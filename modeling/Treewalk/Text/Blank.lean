namespace Treewalk.Text

/-- The white space characters of Unicode. They are more than the four characters that separate
tokens. -/
def isBlank (c : Char) : Bool :=
  let n := c.toNat
  (0x9 ≤ n && n ≤ 0xd) || n == 0x20 || n == 0x85 || n == 0xa0 || n == 0x1680 ||
    (0x2000 ≤ n && n ≤ 0x200a) || n == 0x2028 || n == 0x2029 || n == 0x202f || n == 0x205f ||
    n == 0x3000

/-- The text without the blanks at its two ends. -/
def trim (s : String) : String :=
  String.ofList ((s.toList.dropWhile isBlank).reverse.dropWhile isBlank).reverse

/-- The first run of other characters. -/
def firstWord (s : String) : String :=
  String.ofList ((s.toList.dropWhile isBlank).takeWhile (fun c => !isBlank c))

/-- The lines of a text and the text after its last line feed. -/
def splitLines : List Char → List (List Char) × List Char
  | [] => ([], [])
  | c :: cs =>
    if c == '\n' then let (lines, last) := splitLines cs; ([] :: lines, last)
    else match splitLines cs with
      | ([], last) => ([], c :: last)
      | (line :: lines, last) => ((c :: line) :: lines, last)

/-- A line without the carriage return that may end it. -/
def withoutReturn (line : List Char) : List Char :=
  if line.getLast? == some '\r' then line.dropLast else line

/-- The lines of a text as they are typed: a line ends with a line feed, which a carriage return
may precede, or with the text. -/
def lines (s : String) : List String :=
  let (complete, last) := splitLines s.toList
  let unfinished := if last.isEmpty then [] else [last]
  (complete.map withoutReturn ++ unfinished).map String.ofList

end Treewalk.Text
