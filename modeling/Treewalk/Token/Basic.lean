namespace Treewalk

/-- A range of bytes in the source text, the last one excluded. -/
structure Span where
  start : Nat
  stop : Nat
deriving DecidableEq, Inhabited

namespace Span

def length (s : Span) : Nat := s.stop - s.start

def isEmpty (s : Span) : Bool := s.start == s.stop

/-- The same range in a text that has `n` more bytes in front. -/
def shift (n : Nat) (s : Span) : Span := ⟨s.start + n, s.stop + n⟩

end Span

inductive TokenKind where
  | illegal
  | endOfInput
  | identifier
  | integer
  | string
  | assign
  | plus
  | minus
  | bang
  | asterisk
  | slash
  | less
  | greater
  | equal
  | notEqual
  | comma
  | semicolon
  | colon
  | leftParen
  | rightParen
  | leftBrace
  | rightBrace
  | leftBracket
  | rightBracket
  | functionWord
  | letWord
  | trueWord
  | falseWord
  | ifWord
  | elseWord
  | returnWord
deriving DecidableEq, Inhabited

namespace TokenKind

/-- The name by which messages speak of a kind. -/
def name : TokenKind → String
  | illegal => "ILLEGAL"
  | endOfInput => "EOF"
  | identifier => "IDENT"
  | integer => "INT"
  | string => "STRING"
  | assign => "="
  | plus => "+"
  | minus => "-"
  | bang => "!"
  | asterisk => "*"
  | slash => "/"
  | less => "<"
  | greater => ">"
  | equal => "=="
  | notEqual => "!="
  | comma => ","
  | semicolon => ";"
  | colon => ":"
  | leftParen => "("
  | rightParen => ")"
  | leftBrace => "\x7b"
  | rightBrace => "\x7d"
  | leftBracket => "["
  | rightBracket => "]"
  | functionWord => "FUNCTION"
  | letWord => "LET"
  | trueWord => "TRUE"
  | falseWord => "FALSE"
  | ifWord => "IF"
  | elseWord => "ELSE"
  | returnWord => "RETURN"

def all : List TokenKind :=
  [illegal, endOfInput, identifier, integer, string, assign, plus, minus, bang, asterisk, slash,
    less, greater, equal, notEqual, comma, semicolon, colon, leftParen, rightParen, leftBrace,
    rightBrace, leftBracket, rightBracket, functionWord, letWord, trueWord, falseWord, ifWord,
    elseWord, returnWord]

def ofName? (s : String) : Option TokenKind := all.find? (fun k => k.name == s)

/-- A run of letters is a keyword if it spells one, and an identifier otherwise. -/
def ofWord (word : String) : TokenKind :=
  if word = "fn" then functionWord
  else if word = "let" then letWord
  else if word = "true" then trueWord
  else if word = "false" then falseWord
  else if word = "if" then ifWord
  else if word = "else" then elseWord
  else if word = "return" then returnWord
  else identifier

/-- The kind of a character that is a token by itself. -/
def ofSymbol? : Char → Option TokenKind
  | '=' => some assign
  | '!' => some bang
  | '+' => some plus
  | '-' => some minus
  | '*' => some asterisk
  | '/' => some slash
  | '<' => some less
  | '>' => some greater
  | ',' => some comma
  | ';' => some semicolon
  | ':' => some colon
  | '(' => some leftParen
  | ')' => some rightParen
  | '{' => some leftBrace
  | '}' => some rightBrace
  | '[' => some leftBracket
  | ']' => some rightBracket
  | _ => none

/-- Tokens of these kinds differ in their literals. -/
def isVaried : TokenKind → Bool
  | identifier | integer | string | illegal => true
  | _ => false

end TokenKind

structure Token where
  kind : TokenKind
  literal : String
  span : Span
deriving DecidableEq, Inhabited

namespace Token

/-- The token that stands behind a text of `n` bytes. -/
def atEnd (n : Nat) : Token := ⟨.endOfInput, "", ⟨n, n⟩⟩

def isEnd (t : Token) : Bool := t.kind == .endOfInput

def describe (t : Token) : String :=
  if t.kind.isVaried then t.kind.name ++ "(" ++ t.literal ++ ")" else t.kind.name

def shift (n : Nat) (t : Token) : Token := { t with span := t.span.shift n }

end Token

end Treewalk
