import Treewalk.Text.Cluster.Classes

namespace Treewalk.Text

/-- Characters that are not shown, besides those that are shown on the one before them. -/
def unseenRanges : List (Nat × Nat) :=
  [(0x0, 0x1f), (0x7f, 0x9f), (0xad, 0xad), (0x605, 0x605), (0x61c, 0x61c), (0x70f, 0x70f),
   (0x890, 0x891), (0x8e2, 0x8e2), (0x1160, 0x11ff), (0x180e, 0x180e), (0x200b, 0x200b),
   (0x200d, 0x200f), (0x202a, 0x202e), (0x2060, 0x206f), (0x3164, 0x3164), (0xa8fa, 0xa8fa),
   (0xd7b0, 0xd7c6), (0xd7cb, 0xd7fb), (0xfeff, 0xfeff), (0xffa0, 0xffa0), (0xfff0, 0xfff8),
   (0x1bca0, 0x1bca3), (0x1d173, 0x1d17a), (0xe0000, 0xe001f), (0xe0080, 0xe00ff),
   (0xe01f0, 0xe0fff)]

/-- Ideographs, kana, syllables, full-width forms and pictures. -/
def wideRanges : List (Nat × Nat) :=
  [(0x1100, 0x115f), (0x231a, 0x231b), (0x2329, 0x232a), (0x23e9, 0x23ec), (0x23f0, 0x23f0),
   (0x23f3, 0x23f3), (0x25fd, 0x25fe), (0x2614, 0x2615), (0x2630, 0x2637), (0x2648, 0x2653),
   (0x267f, 0x267f), (0x268a, 0x268f), (0x2693, 0x2693), (0x26a1, 0x26a1), (0x26aa, 0x26ab),
   (0x26bd, 0x26be), (0x26c4, 0x26c5), (0x26ce, 0x26ce), (0x26d4, 0x26d4), (0x26ea, 0x26ea),
   (0x26f2, 0x26f3), (0x26f5, 0x26f5), (0x26fa, 0x26fa), (0x26fd, 0x26fd), (0x2705, 0x2705),
   (0x270a, 0x270b), (0x2728, 0x2728), (0x274c, 0x274c), (0x274e, 0x274e), (0x2753, 0x2755),
   (0x2757, 0x2757), (0x2795, 0x2797), (0x27b0, 0x27b0), (0x27bf, 0x27bf), (0x2b1b, 0x2b1c),
   (0x2b50, 0x2b50), (0x2b55, 0x2b55), (0x2e80, 0x2e99), (0x2e9b, 0x2ef3), (0x2f00, 0x2fd5),
   (0x2ff0, 0x303e), (0x3041, 0x3096), (0x309b, 0x30ff), (0x3105, 0x312f), (0x3131, 0x318e),
   (0x3190, 0x31e5), (0x31ef, 0x321e), (0x3220, 0x3247), (0x3250, 0xa48c), (0xa490, 0xa4c6),
   (0xa960, 0xa97c), (0xac00, 0xd7a3), (0xf900, 0xfaff), (0xfe10, 0xfe19), (0xfe30, 0xfe52),
   (0xfe54, 0xfe66), (0xfe68, 0xfe6b), (0xff01, 0xff60), (0xffe0, 0xffe6), (0x16fe0, 0x16fe3),
   (0x16ff2, 0x16ff6), (0x17000, 0x18cd5), (0x18cff, 0x18d1e), (0x18d80, 0x18df2),
   (0x1aff0, 0x1aff3), (0x1aff5, 0x1affb), (0x1affd, 0x1affe), (0x1b000, 0x1b122),
   (0x1b132, 0x1b132), (0x1b150, 0x1b152), (0x1b155, 0x1b155), (0x1b164, 0x1b167),
   (0x1b170, 0x1b2fb), (0x1d300, 0x1d356), (0x1d360, 0x1d376), (0x1f004, 0x1f004),
   (0x1f0cf, 0x1f0cf), (0x1f18e, 0x1f18e), (0x1f191, 0x1f19a), (0x1f200, 0x1f202),
   (0x1f210, 0x1f23b), (0x1f240, 0x1f248), (0x1f250, 0x1f251), (0x1f260, 0x1f265),
   (0x1f300, 0x1f320), (0x1f32d, 0x1f335), (0x1f337, 0x1f37c), (0x1f37e, 0x1f393),
   (0x1f3a0, 0x1f3ca), (0x1f3cf, 0x1f3d3), (0x1f3e0, 0x1f3f0), (0x1f3f4, 0x1f3f4),
   (0x1f3f8, 0x1f43e), (0x1f440, 0x1f440), (0x1f442, 0x1f4fc), (0x1f4ff, 0x1f53d),
   (0x1f54b, 0x1f54e), (0x1f550, 0x1f567), (0x1f57a, 0x1f57a), (0x1f595, 0x1f596),
   (0x1f5a4, 0x1f5a4), (0x1f5fb, 0x1f64f), (0x1f680, 0x1f6c5), (0x1f6cc, 0x1f6cc),
   (0x1f6d0, 0x1f6d2), (0x1f6d5, 0x1f6d8), (0x1f6dc, 0x1f6df), (0x1f6eb, 0x1f6ec),
   (0x1f6f4, 0x1f6fc), (0x1f7e0, 0x1f7eb), (0x1f7f0, 0x1f7f0), (0x1f90c, 0x1f93a),
   (0x1f93c, 0x1f945), (0x1f947, 0x1f9ff), (0x1fa70, 0x1fa7c), (0x1fa80, 0x1fa8a),
   (0x1fa8e, 0x1fac6), (0x1fac8, 0x1fac8), (0x1facd, 0x1fadc), (0x1fadf, 0x1faea),
   (0x1faef, 0x1faf8), (0x20000, 0x2fffd), (0x30000, 0x3fffd)]

/-- Skin tones are pictures of their own. -/
def isSkinTone (c : Char) : Bool := 0x1f3fb ≤ c.toNat && c.toNat ≤ 0x1f3ff

/-- The columns that a character takes on a terminal (Unicode 17). -/
def columns (c : Char) : Nat :=
  if inRanges unseenRanges c || (inRanges extenderRanges c && !isSkinTone c) then 0
  else if inRanges wideRanges c then 2
  else if c == '\u17d8' then 3
  else 1

/-- What is being read: plain text, the character after an escape, a control sequence, or a command
that has come to some character. -/
inductive Passage where
  | text
  | escape
  | control
  | command (last : Char)
deriving DecidableEq

def Passage.after : Passage → Char → Passage
  | text, c => if c == '\x1b' then escape else text
  | escape, c => if c == '[' then control else if c == ']' then command c else text
  | control, c => if '@' ≤ c && c ≤ '~' then text else control
  | command last, c => if c == '\x07' || (c == '\\' && last == '\x1b') then text else command c

/-- A character of a line, which is plain text or part of a sequence. -/
structure Glyph where
  char : Char
  plain : Bool

def Glyph.columns (g : Glyph) : Nat := if g.plain then Text.columns g.char else 0

/-- The characters of a line that goes on from some passage. -/
def glyphsFrom (p : Passage) : List Char → List Glyph
  | [] => []
  | c :: cs =>
    let next := p.after c
    ⟨c, p == .text && next == .text⟩ :: glyphsFrom next cs

def glyphs (cs : List Char) : List Glyph := glyphsFrom .text cs

theorem map_char_glyphsFrom (p : Passage) (cs : List Char) :
    (glyphsFrom p cs).map Glyph.char = cs := by
  induction cs generalizing p with
  | nil => rfl
  | cons c cs ih => rw [glyphsFrom, List.map_cons, ih]

/-- The columns that a text takes in one line. -/
def width (cs : List Char) : Nat := (glyphs cs).foldr (fun g total => g.columns + total) 0

end Treewalk.Text
