import Treewalk.Text.Break.Classes
import Treewalk.Text.Syllable

namespace Treewalk.Text

/-- What a character is for the breaking of lines. It depends on the classes of two neighbours
whether a line may break between them (Unicode 15). What is in no class is a letter. -/
inductive BreakClass where
  | ending
  | blank
  | hiddenBlank
  | joiner
  | mark
  | wordJoiner
  | glue
  | dash
  | trailingBreak
  | leadingBreak
  | hyphen
  | contingent
  | closing
  | closingParenthesis
  | exclamation
  | inseparable
  | nonstarter
  | opening
  | quotation
  | infixed
  | numeral
  | slash
  | trailingUnit
  | leadingUnit
  | letter
  | hebrew
  | ideograph
  | emojiBase
  | skinTone
  | regional
  | syllable (part : SyllablePart)
deriving DecidableEq

namespace BreakClass

/-- The classes that have few characters. -/
def ofSign? : Char → Option BreakClass
  | ' ' => some blank
  | '\u200b' => some hiddenBlank
  | '\u200d' => some joiner
  | '-' => some hyphen
  | '/' => some slash
  | '\ufffc' => some contingent
  | _ => none

/-- The classes that have ranges of characters. -/
def ranges : List (BreakClass × List (Nat × Nat)) :=
  [(ending, endingRanges), (wordJoiner, wordJoinerRanges), (glue, glueRanges), (mark, markRanges),
   (dash, dashRanges), (trailingBreak, trailingBreakRanges), (leadingBreak, leadingBreakRanges),
   (closing, closingRanges), (closingParenthesis, closingParenthesisRanges),
   (exclamation, exclamationRanges), (inseparable, inseparableRanges),
   (nonstarter, nonstarterRanges), (opening, openingRanges), (quotation, quotationRanges),
   (infixed, infixedRanges), (numeral, numeralRanges), (trailingUnit, trailingUnitRanges),
   (leadingUnit, leadingUnitRanges), (hebrew, hebrewRanges), (ideograph, ideographRanges),
   (emojiBase, emojiBaseRanges), (skinTone, [(0x1f3fb, 0x1f3ff)]),
   (regional, [(0x1f1e6, 0x1f1ff)])]

def ofRange? (c : Char) : Option BreakClass :=
  (ranges.find? (fun entry => inRanges entry.2 c)).map (fun entry => entry.1)

def ofChar (c : Char) : BreakClass :=
  (ofSign? c <|> (SyllablePart.ofChar? c).map syllable <|> ofRange? c).getD letter

def isMark (b : BreakClass) : Bool := b == mark || b == joiner

def isAlphabetic (b : BreakClass) : Bool := b == letter || b == hebrew

def isUnit (b : BreakClass) : Bool := b == trailingUnit || b == leadingUnit

def isPicture (b : BreakClass) : Bool := b == ideograph || b == emojiBase || b == skinTone

def isSyllable : BreakClass → Bool
  | syllable _ => true
  | _ => false

/-- A mark that has nothing to belong to stands for a letter. -/
def standing (b : BreakClass) : BreakClass := if b.isMark then letter else b

/-- Classes before which no line breaks, not even after blanks. -/
def clings : BreakClass → Bool
  | closing | closingParenthesis | exclamation | infixed | slash | wordJoiner => true
  | _ => false

/-- Whether a line may break after the blanks between two classes. -/
def breaksAfterBlanks (a b : BreakClass) : Bool :=
  !(b.clings || a == opening || (a == quotation && b == opening) ||
    ((a == closing || a == closingParenthesis) && b == nonstarter) || (a == dash && b == dash))

/-- Whether two neighbours belong together like the parts of a number, a word, a name, a picture or
a syllable. -/
def belongTogether : BreakClass → BreakClass → Bool
  | letter, b | hebrew, b | numeral, b =>
    b.isAlphabetic || b == numeral || b.isUnit || b == opening
  | closing, b => b.isUnit
  | closingParenthesis, b => b.isAlphabetic || b == numeral || b.isUnit
  | infixed, b => b.isAlphabetic || b == numeral
  | hyphen, b => b == numeral
  | slash, b => b == numeral || b == hebrew
  | leadingUnit, b =>
    b.isAlphabetic || b == numeral || b == opening || b.isPicture || b.isSyllable
  | trailingUnit, b => b.isAlphabetic || b == numeral || b == opening
  | ideograph, b | skinTone, b => b == trailingUnit
  | emojiBase, b => b == trailingUnit || b == skinTone
  | syllable part, syllable next => part.continues next
  | syllable _, b => b == trailingUnit
  | _, _ => false

/-- Classes that hold on to both their neighbours, whatever these are. -/
def holds (a b : BreakClass) : Bool :=
  b.clings || b == quotation || a == wordJoiner || a == glue || a == opening || a == quotation ||
    (b == glue && a != trailingBreak && a != hyphen) || (a == dash && b == dash)

/-- Whether a line may break between two neighbours. -/
def breaksBetween (a b : BreakClass) : Bool :=
  if holds a b then false
  else if a == contingent || b == contingent then true
  else !(b == trailingBreak || b == hyphen || b == nonstarter || b == inseparable ||
    a == leadingBreak || a.belongTogether b)

end BreakClass

/-- What has been read of a line: the class of the last character, whether blanks follow it, and
whether it is a joiner. A hyphen may stand after a Hebrew letter (`hebrewHyphen`), and a regional
letter may still lack its second (`unpaired`). -/
structure Reading where
  last : Option BreakClass
  afterBlanks : Bool
  joined : Bool
  hebrewHyphen : Bool
  unpaired : Bool

namespace Reading

def start : Reading := ⟨none, false, false, false, false⟩

/-- Whether the next character is a mark of the one before it. -/
def takesMark (r : Reading) (next : BreakClass) : Bool :=
  next.isMark && !r.afterBlanks && r.last.any (fun last => last != .ending && last != .hiddenBlank)

def after (r : Reading) (next : BreakClass) : Reading :=
  if next == .blank then { r with afterBlanks := true, joined := false }
  else if r.takesMark next then { r with joined := next == .joiner }
  else
    { last := some next.standing
      afterBlanks := false
      joined := next == .joiner
      hebrewHyphen :=
        (next == .hyphen || next == .trailingBreak) && r.last == some .hebrew && !r.afterBlanks
      unpaired := next == .regional && !(r.unpaired && !r.afterBlanks) }

/-- Whether the line may break before the next character. -/
def breaksBefore (r : Reading) (next : BreakClass) : Bool :=
  if r.last == some .ending && !r.afterBlanks then true
  else if next == .ending || next == .blank || next == .hiddenBlank then false
  else if r.joined || r.takesMark next then false
  else if r.last == some .hiddenBlank then true
  else if r.afterBlanks then (r.last.getD .letter).breaksAfterBlanks next
  else match r.last with
    | none => false
    | some last =>
      last.breaksBetween next.standing && !(r.hebrewHyphen && next != .contingent) &&
        !(r.unpaired && next == .regional)

end Reading

end Treewalk.Text
