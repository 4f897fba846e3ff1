import Treewalk.Tree.Basic

namespace Treewalk

/-- What stands between a list item and the items after it. -/
def itemGap {α : Type} (rest : List α) : String := if rest.isEmpty then "" else ", "

def parameterText : List String → String
  | [] => ""
  | name :: rest => name ++ itemGap rest ++ parameterText rest

/-- What stands between a statement and the statements after it. -/
def Statement.gap (s : Statement) (rest : List Statement) : String :=
  if rest.isEmpty then ""
  else match s with
    | .expression _ => "; "
    | _ => " "

mutual

/-- The canonical text. Every binary and unary operation and every index expression is enclosed in
parentheses, and strings keep their quotes. -/
@[simp] def Expression.render : Expression → String
  | .identifier name => name
  | .integer value => toString value.toInt
  | .boolean value => if value then "true" else "false"
  | .string value => "\"" ++ value ++ "\""
  | .unary operator operand => "(" ++ operator.symbol ++ operand.render ++ ")"
  | .binary operator left right =>
    "(" ++ left.render ++ " " ++ operator.symbol ++ " " ++ right.render ++ ")"
  | .conditional condition consequence none =>
    "if (" ++ condition.render ++ ") " ++ renderBlock consequence
  | .conditional condition consequence (some alternative) =>
    "if (" ++ condition.render ++ ") " ++ renderBlock consequence ++ " else " ++
      renderBlock alternative
  | .function parameters body => "fn(" ++ parameterText parameters ++ ") " ++ renderBlock body
  | .call callee arguments => callee.render ++ "(" ++ renderExpressions arguments ++ ")"
  | .array elements => "[" ++ renderExpressions elements ++ "]"
  | .index collection index => "(" ++ collection.render ++ "[" ++ index.render ++ "])"
  | .hash pairs => "\x7b" ++ renderPairs pairs ++ "\x7d"

@[simp] def Statement.render : Statement → String
  | .binding name value => "let " ++ name ++ " = " ++ value.render ++ ";"
  | .return value => "return " ++ value.render ++ ";"
  | .expression value => value.render

def renderStatements : List Statement → String
  | [] => ""
  | s :: rest => s.render ++ s.gap rest ++ renderStatements rest

/-- A block without statements keeps one blank. -/
def renderBlock : List Statement → String
  | [] => "\x7b \x7d"
  | s :: rest => "\x7b " ++ (s.render ++ s.gap rest ++ renderStatements rest) ++ " \x7d"

def renderExpressions : List Expression → String
  | [] => ""
  | e :: rest => e.render ++ itemGap rest ++ renderExpressions rest

def renderPairs : List (Expression × Expression) → String
  | [] => ""
  | (key, value) :: rest =>
    key.render ++ ": " ++ value.render ++ itemGap rest ++ renderPairs rest

end

def Program.render (p : Program) : String := renderStatements p.statements

/-- The word or sign that a tree is recognised by: a leaf's own text, or what its outermost
construct is written with. -/
def Expression.mark : Expression → String
  | .identifier name => name
  | .integer value => toString value.toInt
  | .boolean value => if value then "true" else "false"
  | .string value => value
  | .unary operator _ => operator.symbol
  | .binary operator _ _ => operator.symbol
  | .conditional .. => "if"
  | .function .. => "fn"
  | .call .. => "("
  | .array .. => "["
  | .index .. => "["
  | .hash .. => "\x7b"

def Statement.mark : Statement → String
  | .binding .. => "let"
  | .return .. => "return"
  | .expression value => value.mark

def Program.mark (p : Program) : String := (p.statements.head?.map Statement.mark).getD ""

end Treewalk
