namespace Treewalk.Text

/-- The parts from which syllables are composed, and the syllables that are one character. -/
inductive SyllablePart where
  | leading
  | vowel
  | trailing
  | openSyllable
  | closedSyllable
deriving DecidableEq

namespace SyllablePart

/-- A whole syllable is open, or closed by a trailing part. -/
def ofChar? (c : Char) : Option SyllablePart :=
  let n := c.toNat
  if (0x1100 ≤ n && n ≤ 0x115f) || (0xa960 ≤ n && n ≤ 0xa97c) then some leading
  else if (0x1160 ≤ n && n ≤ 0x11a7) || (0xd7b0 ≤ n && n ≤ 0xd7c6) then some vowel
  else if (0x11a8 ≤ n && n ≤ 0x11ff) || (0xd7cb ≤ n && n ≤ 0xd7fb) then some trailing
  else if 0xac00 ≤ n && n ≤ 0xd7a3 then
    some (if (n - 0xac00) % 28 == 0 then openSyllable else closedSyllable)
  else none

/-- Whether a part goes on with the syllable of the part before it. -/
def continues : SyllablePart → SyllablePart → Bool
  | leading, next => next == leading || next == vowel || next == openSyllable ||
      next == closedSyllable
  | vowel, next | openSyllable, next => next == vowel || next == trailing
  | trailing, next | closedSyllable, next => next == trailing

end SyllablePart

end Treewalk.Text
