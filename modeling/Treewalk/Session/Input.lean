import Treewalk.Text.Blank

namespace Treewalk

open Text

/-- Whether the text so far is inside a string, and how many brackets of each kind are open, counted
modulo 2^32. -/
structure OpenBrackets where
  inString : Bool
  braces : Int32
  brackets : Int32
  parens : Int32
deriving DecidableEq

namespace OpenBrackets

def start : OpenBrackets := ⟨false, 0, 0, 0⟩

def afterBracket (o : OpenBrackets) : Char → OpenBrackets
  | '{' => { o with braces := o.braces + 1 }
  | '}' => { o with braces := o.braces - 1 }
  | '[' => { o with brackets := o.brackets + 1 }
  | ']' => { o with brackets := o.brackets - 1 }
  | '(' => { o with parens := o.parens + 1 }
  | ')' => { o with parens := o.parens - 1 }
  | _ => o

/-- Brackets inside a string do not count. -/
def after (o : OpenBrackets) (c : Char) : OpenBrackets :=
  if c == '"' then { o with inString := !o.inString }
  else if o.inString then o
  else o.afterBracket c

/-- No kind has more opening than closing brackets. -/
def allClosed (o : OpenBrackets) : Bool := o.braces ≤ 0 && o.brackets ≤ 0 && o.parens ≤ 0

end OpenBrackets

/-- Whether nothing more is waited for. A string that was not closed is not waited for. -/
def bracketsClosed (text : String) : Bool :=
  (text.toList.foldl OpenBrackets.after .start).allClosed

/-- Adds a line to the pending input, and tells whether the input is complete now. A blank line
completes what is pending. -/
def extendInput (pending line : String) : String × Bool :=
  if pending.isEmpty then (line, bracketsClosed line)
  else if (trim line).isEmpty then (pending, true)
  else
    let extended := pending ++ "\n" ++ line
    (extended, bracketsClosed extended)

end Treewalk
