import Treewalk.Text.Hidden

namespace Treewalk.Text

def hexadecimal (n : Nat) : String := String.ofList (Nat.toDigits 16 n)

def escape (c : Char) : String :=
  if c == '\x00' then "\\0"
  else if c == '\t' then "\\t"
  else if c == '\n' then "\\n"
  else if c == '\r' then "\\r"
  else if c == '"' then "\\\""
  else if c == '\\' then "\\\\"
  else if c.toNat < 0x7f && ' ' ≤ c then c.toString
  else if isHidden c then "\\u\x7b" ++ hexadecimal c.toNat ++ "\x7d"
  else c.toString

/-- Text between quotes, with escapes for the characters that would not be seen or would end it. -/
def quote (s : String) : String := "\"" ++ String.join (s.toList.map escape) ++ "\""

end Treewalk.Text
