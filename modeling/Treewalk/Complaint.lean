import Treewalk.Text.Wrap

namespace Treewalk

open Text

/-- What is said to a person when something cannot be done, with its causes and what helps. -/
structure Complaint where
  code : Option String
  message : String
  causes : List String
  help : Option String

namespace Complaint

def ofMessage (message : String) : Complaint := ⟨none, message, [], none⟩

def lineWidth : Nat := 78

/-- Each cause hangs on what it is a cause of. -/
def causesText : List String → String
  | [] => ""
  | [cause] => wrap lineWidth "  ╰─▶ " "      " cause
  | cause :: causes => wrap lineWidth "  ├─▶ " "  │   " cause ++ causesText causes

def text (c : Complaint) : String :=
  let header := match c.code with
    | some code => code ++ "\n\n"
    | none => ""
  let help := match c.help with
    | some help => wrap lineWidth "  help: " "        " help
    | none => ""
  header ++ wrap lineWidth "  × " "  │ " c.message ++ causesText c.causes ++ help ++ "\n"

end Complaint

end Treewalk
