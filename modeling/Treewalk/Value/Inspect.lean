import Treewalk.Tree.Printer
import Treewalk.Value.Basic

namespace Treewalk

/-- The lines of a function's body, one statement each. -/
def bodyLines : List Statement → String
  | [] => ""
  | s :: rest => s.render ++ "\n" ++ bodyLines rest

mutual

/-- The text that users see of a value. -/
def Value.inspect : Value → String
  | .integer n => toString n.toInt
  | .boolean b => if b then "true" else "false"
  | .string s => s
  | .null => "null"
  | .returned v => v.inspect
  | .error message => "ERROR: " ++ message
  | .function _ parameters body _ =>
    "fn(" ++ parameterText parameters ++ ") \x7b\n" ++ bodyLines body ++ "\x7d"
  | .builtin _ => "builtin function"
  | .array _ elements => "[" ++ inspectElements elements ++ "]"
  | .hash _ entries => "\x7b" ++ inspectEntries entries ++ "\x7d"

def inspectElements : List Value → String
  | [] => ""
  | v :: rest => v.inspect ++ itemGap rest ++ inspectElements rest

def inspectEntries : List (Key × Value) → String
  | [] => ""
  | (k, v) :: rest => k.inspect ++ ": " ++ v.inspect ++ itemGap rest ++ inspectEntries rest

end

end Treewalk
