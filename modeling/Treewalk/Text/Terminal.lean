namespace Treewalk.Text

/-- What a terminal has begun to read: plain text, the head of an escape, a control sequence, a
command for the terminal itself, or the head or the body of a string for a device. -/
inductive TerminalMode where
  | text
  | escape
  | escapeMarked
  | sequence
  | command
  | device
  | deviceParameters
  | deviceMarked
  | string
deriving DecidableEq

namespace TerminalMode

/-- The mode that an escape begins with the code after it. -/
def afterEscape (n : Nat) : TerminalMode :=
  if n < 0x20 || n == 0x7f then escape
  else if n < 0x30 then escapeMarked
  else if n == 0x5b then sequence
  else if n == 0x5d then command
  else if n == 0x50 then device
  else if n == 0x58 || n == 0x5e || n == 0x5f then string
  else text

/-- The mode after a code of ASCII. An escape, and the two codes that cancel, act in every mode. -/
def afterCode (m : TerminalMode) (n : Nat) : TerminalMode :=
  if n == 0x18 || n == 0x1a then text
  else if n == 0x1b then escape
  else match m with
    | text => text
    | escape => afterEscape n
    | escapeMarked => if 0x30 ≤ n && n != 0x7f then text else escapeMarked
    | sequence => if 0x40 ≤ n && n != 0x7f then text else sequence
    | command => if n == 0x07 then text else command
    | device =>
      if n < 0x20 || n == 0x7f then device
      else if n < 0x30 then deviceMarked
      else if n < 0x40 then deviceParameters
      else string
    | deviceParameters =>
      if n < 0x20 || n == 0x7f then deviceParameters
      else if n < 0x30 then deviceMarked
      else if n < 0x3c then deviceParameters
      else string
    | deviceMarked => if n < 0x30 || n == 0x7f then deviceMarked else string
    | string => string

/-- Whether one of the bytes of a character beyond ASCII is the one that ends a string. -/
def hasTerminator (n : Nat) : Bool :=
  n % 64 == 0x1c || (0x800 ≤ n && n / 64 % 64 == 0x1c) || (0x10000 ≤ n && n / 4096 % 64 == 0x1c)

def after (m : TerminalMode) (c : Char) : TerminalMode :=
  if c.toNat < 0x80 then m.afterCode c.toNat
  else if m = string ∧ hasTerminator c.toNat then text
  else m

/-- Whether blanks are shown in this mode although nothing else is. -/
def showsBlanks : TerminalMode → Bool
  | escape | escapeMarked | sequence => true
  | _ => false

end TerminalMode

/-- The controls that are blanks. -/
def isBlankControl (c : Char) : Bool := c == '\t' || c == '\n' || c == '\x0c' || c == '\r'

/-- Whether a character is shown in plain text. -/
def isShown (c : Char) : Bool := (' ' ≤ c && c != '\x7f') || isBlankControl c

/-- What is shown of a text. A blank inside a sequence is shown, and so is what follows it, until a
control takes the sequence up again. -/
def shownFrom (m : TerminalMode) (showing : Bool) : List Char → List Char
  | [] => []
  | c :: cs =>
    if showing || m == .text then
      if isShown c then c :: shownFrom (if 0x80 ≤ c.toNat then .text else m) true cs
      else shownFrom (m.after c) false cs
    else if m.showsBlanks && isBlankControl c then c :: shownFrom m true cs
    else shownFrom (m.after c) false cs

/-- The text that is left without controls and sequences. Controls that are blanks stay, and so do
characters beyond ASCII. -/
def withoutControls (s : String) : String := String.ofList (shownFrom .text false s.toList)

end Treewalk.Text
