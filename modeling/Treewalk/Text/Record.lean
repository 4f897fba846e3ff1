namespace Treewalk.Text

def commaSeparated (items : List String) : String := ", ".intercalate items

/-- A sequence in square brackets. -/
def sequence (items : List String) : String := "[" ++ commaSeparated items ++ "]"

/-- A constructor with its arguments. -/
def variant (name : String) (arguments : List String) : String :=
  name ++ "(" ++ commaSeparated arguments ++ ")"

/-- A constructor with its named fields, of which there is at least one. -/
def record (name : String) (fields : List (String × String)) : String :=
  name ++ " \x7b " ++ commaSeparated (fields.map (fun f => f.1 ++ ": " ++ f.2)) ++ " \x7d"

/-- Keys with their values, in the order given. -/
def mapping (entries : List (String × String)) : String :=
  "\x7b" ++ commaSeparated (entries.map (fun e => e.1 ++ ": " ++ e.2)) ++ "\x7d"

end Treewalk.Text
