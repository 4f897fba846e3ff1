import Treewalk.Text.Alphanumeric
import Treewalk.Text.Blank
import Treewalk.Text.Break.Basic
import Treewalk.Text.Columns

namespace Treewalk.Text

/-- The hyphens after which the classes of characters break no line. -/
def isWordHyphen (c : Char) : Bool := c == '-' || c == '\u00ad'

/-- What belongs to the part of a line that has been begun, and the parts after it. A sequence goes
with the character that follows it. -/
def partsAfter (r : Reading) (hyphened : Bool) : List Glyph → List Char × List (List Char)
  | [] => ([], [])
  | ⟨c, true⟩ :: gs =>
    let next := BreakClass.ofChar c
    let (own, others) := partsAfter (r.after next) (isWordHyphen c) gs
    if !hyphened && r.breaksBefore next then ([], (c :: own) :: others) else (c :: own, others)
  | ⟨c, false⟩ :: gs =>
    match partsAfter r hyphened gs with
    | ([], part :: parts) => ([], (c :: part) :: parts)
    | (own, others) => (c :: own, others)

/-- The list with its last two parts made one. -/
def joinLast : List (List Char) → List (List Char)
  | [] => []
  | [part] => [part]
  | [part, last] => [part ++ last]
  | part :: parts => part :: joinLast parts

/-- The parts of a line between which it may break. A hyphen at its end holds the last two
together. -/
def parts (line : List Char) : List (List Char) :=
  let (own, others) := partsAfter .start false (glyphs line)
  let all := if own.isEmpty then others else own :: others
  let plain := (glyphs line).filter Glyph.plain
  if plain.getLast?.any (fun g => isWordHyphen g.char) then joinLast all else all

theorem flatten_partsAfter (r : Reading) (hyphened : Bool) (gs : List Glyph) :
    (partsAfter r hyphened gs).1 ++ (partsAfter r hyphened gs).2.flatten = gs.map Glyph.char := by
  fun_induction partsAfter r hyphened gs with
  | case1 => rfl
  | case2 r hyphened c gs next own others heq _ ih =>
    simp only [heq] at ih
    simp [← ih]
  | case3 r hyphened c gs next own others heq _ ih =>
    simp only [heq] at ih
    simp [← ih]
  | case4 r hyphened c gs part parts heq ih =>
    simp only [heq] at ih
    simp [← ih]
  | case5 r hyphened c gs own others _ heq ih =>
    simp only [heq] at ih
    simp [← ih]

theorem flatten_joinLast (parts : List (List Char)) : (joinLast parts).flatten = parts.flatten := by
  fun_induction joinLast parts with
  | case1 => rfl
  | case2 => rfl
  | case3 => simp
  | case4 part parts _ _ ih => simp [ih]

/-- Nothing is lost or moved. -/
theorem flatten_parts (line : List Char) : (parts line).flatten = line := by
  have h := flatten_partsAfter .start false (glyphs line)
  rw [glyphs, map_char_glyphsFrom, ← glyphs] at h
  have all (own : List Char) (others : List (List Char)) :
      (if own.isEmpty then others else own :: others).flatten = own ++ others.flatten := by
    cases own <;> rfl
  simp only [parts]
  split
  · rw [flatten_joinLast, all, h]
  · rw [all, h]

/-- A part of a line that is not broken. The blanks after it are not shown at the end of a line. -/
structure Piece where
  text : List Char
  blanks : Nat

namespace Piece

def ofPart (part : List Char) : Piece :=
  let text := (part.reverse.dropWhile (· == ' ')).reverse
  ⟨text, part.length - text.length⟩

def chars (p : Piece) : List Char := p.text ++ List.replicate p.blanks ' '

end Piece

/-- A word, cut after each hyphen that has letters or numbers on both sides. -/
def cutAtHyphens (begun : List Char) : List Char → List (List Char)
  | [] => [begun.reverse]
  | c :: cs =>
    if c == '-' && begun.head?.any isAlphanumeric && cs.head?.any isAlphanumeric then
      (c :: begun).reverse :: cutAtHyphens [] cs
    else cutAtHyphens (c :: begun) cs

/-- A word, cut where it has come to the width of a line. -/
def cutAtWidth (limit : Nat) (begun : List Char) (taken : Nat) : List Glyph → List (List Char)
  | [] => [begun.reverse]
  | g :: gs =>
    if g.plain && taken != 0 && limit < taken + g.columns then
      begun.reverse :: cutAtWidth limit [g.char] g.columns gs
    else cutAtWidth limit (g.char :: begun) (taken + g.columns) gs

/-- The parts of a piece, the last of which has its blanks. -/
def Piece.split (limit : Nat) (p : Piece) : List Piece :=
  let texts := (cutAtHyphens [] p.text).flatMap fun text =>
    if limit < width text then cutAtWidth limit [] 0 (glyphs text) else [text]
  let count := texts.length
  texts.mapIdx fun i text => ⟨text, if i + 1 = count then p.blanks else 0⟩

/-- The characters of a line, without the blanks at its end. -/
def lineOfPieces : List Piece → List Char
  | [] => []
  | [p] => p.text
  | p :: ps => p.chars ++ lineOfPieces ps

/-- Fills lines with as many pieces as fit, after the pieces of a line that has been begun (the last
one first). -/
def fillLines (limit : Nat) (begun : List Piece) (taken : Nat) : List Piece → List (List Char)
  | [] => [lineOfPieces begun.reverse]
  | p :: ps =>
    if !begun.isEmpty && limit < taken + width p.text then
      lineOfPieces begun.reverse :: fillLines limit [p] (width p.text + p.blanks) ps
    else fillLines limit (p :: begun) (taken + width p.text + p.blanks) ps

/-- One line of a text as lines of a limited width. A first word that is too long for one line goes
to the next. -/
def foldLine (limit : Nat) (line : List Char) : List (List Char) :=
  fillLines limit [⟨[], 0⟩] 0 ((parts line).flatMap (fun part => (Piece.ofPart part).split limit))

/-- Puts one text before the first line and another before each of the others. -/
def withMargins (first other : String) : List (List Char) → List String
  | [] => []
  | line :: lines =>
    (first ++ String.ofList line) :: lines.map (fun line => other ++ String.ofList line)

/-- A text in lines of at most so many columns with their margins, each ended by a line feed. -/
def wrap (columns : Nat) (first other text : String) : String :=
  let (complete, last) := splitLines text.toList
  let limit := columns - width other.toList
  String.join ((withMargins first other ((complete ++ [last]).flatMap (foldLine limit))).map
    (fun line => line ++ "\n"))

end Treewalk.Text
