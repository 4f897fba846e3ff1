import Treewalk.Text.Cluster.Basic

namespace Treewalk.Text

/-- The characters that are left and the widths in bytes of their clusters, both with the last one
first. -/
structure Typing where
  left : List Char
  widths : List Nat

/-- The list without characters of so many bytes at its front, unless one would be cut in two. -/
def dropBytes? (width : Nat) : List Char → Option (List Char)
  | [] => if width = 0 then some [] else none
  | c :: cs =>
    if width = 0 then some (c :: cs)
    else if c.utf8Size ≤ width then dropBytes? (width - c.utf8Size) cs
    else none

/-- The width that is kept of a cluster. One byte is all the room there is for it, so that of a
cluster of 256 bytes or more only what exceeds the last multiple of 256 is erased. -/
def keptWidth (cluster : List Char) : Nat := (String.ofList cluster).utf8ByteSize % 256

/-- Takes the next cluster of a line. A backspace where nothing is left has no effect. -/
def Typing.press? (t : Typing) (cluster : List Char) : Option Typing :=
  if cluster = ['\x08'] then
    match t.widths with
    | [] => some t
    | width :: widths => (dropBytes? width t.left).map (fun left => ⟨left, widths⟩)
  else some ⟨cluster.reverse ++ t.left, keptWidth cluster :: t.widths⟩

/-- What is left of a line, unless a character would be cut in two. -/
def afterErasing? (line : String) : Option String :=
  if line.toList.contains '\x08' then
    let typing? := (clusters line.toList).foldlM Typing.press? ⟨[], []⟩
    typing?.map (fun typing => String.ofList typing.left.reverse)
  else some line

end Treewalk.Text
