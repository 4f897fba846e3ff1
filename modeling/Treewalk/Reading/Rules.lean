import Treewalk.Tree.Basic
import Treewalk.Reading.Cursor
import Treewalk.Reading.Precedence

namespace Treewalk

open Reader

/-- Reads an expression, together with the operators after it that bind tighter than given. The
rules take it as an argument, so that `readExpression` alone is recursive. -/
abbrev ExpressionReader := Precedence → Reader Expression

def letStatement (expression : ExpressionReader) : Reader Statement :=
  within .letStatement do
    expect .identifier
    let name ← current
    expect .assign
    advance
    let value ← expression .lowest
    skip .semicolon
    return .binding name.literal value

def returnStatement (expression : ExpressionReader) : Reader Statement :=
  within .returnStatement do
    advance
    let value ← expression .lowest
    skip .semicolon
    return .return value

def expressionStatement (expression : ExpressionReader) : Reader Statement :=
  within .expressionStatement do
    let value ← expression .lowest
    skip .semicolon
    return .expression value

def statement (expression : ExpressionReader) : Reader Statement :=
  within .statement do
    let token ← current
    match token.kind with
    | .letWord => letStatement expression
    | .returnWord => returnStatement expression
    | _ => expressionStatement expression

/-- Statements from the current token up to one at which they stop. A statement that gives up is
left out, and the next one begins after the token that stopped it. -/
def statementsUntil (stops : TokenKind → Bool) (expression : ExpressionReader) :
    Nat → Reader (List Statement)
  | 0 => pure []
  | rounds + 1 => do
    let token ← current
    if stops token.kind then pure []
    else do
      let first ← orNone (statement expression)
      advance
      let rest ← statementsUntil stops expression rounds
      return first.toList ++ rest

def endsBlock (kind : TokenKind) : Bool := kind == .rightBrace || kind == .endOfInput

def endsProgram (kind : TokenKind) : Bool := kind == .endOfInput

/-- The statements after the current brace, up to the brace that closes it or the end of input. -/
def block (expression : ExpressionReader) (rounds : Nat) : Reader Block :=
  within .block do
    advance
    statementsUntil endsBlock expression rounds

def itemsAfterCommas {α : Type} (item : Reader α) : Nat → Reader (List α)
  | 0 => pure []
  | rounds + 1 => do
    let next ← upcoming
    if next.kind = .comma then do
      advance
      advance
      let first ← item
      let rest ← itemsAfterCommas item rounds
      return first :: rest
    else pure []

/-- Items between the current token, which opens the list, and one of the given kind, which closes
it; commas stand between them. -/
def delimited {α : Type} (close : TokenKind) (item : Reader α) (rounds : Nat) :
    Reader (List α) :=
  within .list do
    let next ← upcoming
    if next.kind = close then do
      advance
      return []
    else do
      advance
      let first ← item
      let rest ← itemsAfterCommas item rounds
      expect close
      return first :: rest

def parameter : Reader String := do
  let token ← current
  if token.kind = .identifier then return token.literal
  else raise (.unexpected .identifier token.kind token.span)

def hashPair (expression : ExpressionReader) : Reader (Expression × Expression) := do
  let key ← expression .lowest
  expect .colon
  advance
  let value ← expression .lowest
  return (key, value)

/-- A literal is at most 2^63 - 1, so that none is read as a negative number. -/
def integerLiteral (token : Token) : Reader Expression :=
  let value := Nat.ofDigitChars 10 token.literal.toList 0
  if value ≤ 9223372036854775807 then pure (.integer (Int64.ofNat value))
  else raise (.integerTooLarge token.literal token.span)

def unaryExpression (expression : ExpressionReader) (operator : UnaryOperator) :
    Reader Expression :=
  within .unary do
    advance
    let operand ← expression .unary
    return .unary operator operand

def groupedExpression (expression : ExpressionReader) : Reader Expression :=
  within .group do
    advance
    let inner ← expression .lowest
    expect .rightParen
    return inner

def conditional (expression : ExpressionReader) (rounds : Nat) : Reader Expression :=
  within .conditional do
    expect .leftParen
    advance
    let condition ← expression .lowest
    expect .rightParen
    expect .leftBrace
    let consequence ← block expression rounds
    let next ← upcoming
    if next.kind = .elseWord then do
      advance
      expect .leftBrace
      let alternative ← block expression rounds
      return .conditional condition consequence (some alternative)
    else return .conditional condition consequence none

def functionLiteral (expression : ExpressionReader) (rounds : Nat) : Reader Expression :=
  within .function do
    expect .leftParen
    let parameters ← delimited .rightParen parameter rounds
    expect .leftBrace
    let body ← block expression rounds
    return .function parameters body

def arrayLiteral (expression : ExpressionReader) (rounds : Nat) : Reader Expression :=
  within .array do
    let elements ← delimited .rightBracket (expression .lowest) rounds
    return .array elements

def hashLiteral (expression : ExpressionReader) (rounds : Nat) : Reader Expression :=
  within .hash do
    let pairs ← delimited .rightBrace (hashPair expression) rounds
    return .hash pairs

/-- The expression that starts with the given token, which is the current one, without the
operators after it. -/
def operand (expression : ExpressionReader) (rounds : Nat) (token : Token) : Reader Expression :=
  match token.kind with
  | .identifier => return .identifier token.literal
  | .integer => integerLiteral token
  | .string => return .string token.literal
  | .trueWord => return .boolean true
  | .falseWord => return .boolean false
  | .bang => unaryExpression expression .not
  | .minus => unaryExpression expression .negate
  | .leftParen => groupedExpression expression
  | .ifWord => conditional expression rounds
  | .functionWord => functionLiteral expression rounds
  | .leftBracket => arrayLiteral expression rounds
  | .leftBrace => hashLiteral expression rounds
  | kind => raise (.noRule kind token.span)

def BinaryOperator.ofKind? : TokenKind → Option BinaryOperator
  | .plus => some .add
  | .minus => some .subtract
  | .asterisk => some .multiply
  | .slash => some .divide
  | .less => some .less
  | .greater => some .greater
  | .equal => some .equal
  | .notEqual => some .notEqual
  | _ => none

def binaryExpression (expression : ExpressionReader) (operator : BinaryOperator)
    (left : Expression) : Reader Expression :=
  within .binary do
    let token ← current
    advance
    let right ← expression (.of token.kind)
    return .binary operator left right

def callExpression (expression : ExpressionReader) (rounds : Nat) (callee : Expression) :
    Reader Expression :=
  within .call do
    let arguments ← delimited .rightParen (expression .lowest) rounds
    return .call callee arguments

def indexExpression (expression : ExpressionReader) (collection : Expression) :
    Reader Expression :=
  within .index do
    advance
    let index ← expression .lowest
    expect .rightBracket
    return .index collection index

/-- How a token goes on with an operand before it, if it does. -/
def continuation? (expression : ExpressionReader) (rounds : Nat) (kind : TokenKind) :
    Option (Expression → Reader Expression) :=
  match kind with
  | .leftParen => some (callExpression expression rounds)
  | .leftBracket => some (indexExpression expression)
  | _ => (BinaryOperator.ofKind? kind).map (binaryExpression expression)

/-- Takes in the operators after an operand as long as they bind tighter than given. -/
def operatorsAbove (precedence : Precedence) (expression : ExpressionReader) (rounds : Nat) :
    Nat → Expression → Reader Expression
  | 0, left => pure left
  | round + 1, left => do
    let next ← upcoming
    if precedence < .of next.kind then
      match continuation? expression rounds next.kind with
      | none => pure left
      | some goOn => do
        advance
        let extended ← goOn left
        operatorsAbove precedence expression rounds round extended
    else pure left

/-- Reads an expression at the current token. The number bounds both the nesting and the
repetitions; one more than the number of pending tokens is enough, because every inner expression
begins at a later token. -/
def readExpression : Nat → ExpressionReader
  | 0, _ => fail
  | n + 1, precedence =>
    within .expression do
      let token ← current
      let first ← operand (readExpression n) n token
      operatorsAbove precedence (readExpression n) n n first

end Treewalk
