import Treewalk.Text.Quoted
import Treewalk.Text.Record
import Treewalk.Tree.Basic

namespace Treewalk

open Text

def UnaryOperator.outline : UnaryOperator → String
  | .not => "Bang"
  | .negate => "Minus"

def BinaryOperator.outline : BinaryOperator → String
  | .add => "Plus"
  | .subtract => "Minus"
  | .multiply => "Multiply"
  | .divide => "Divide"
  | .less => "Less"
  | .greater => "Greater"
  | .equal => "Equal"
  | .notEqual => "NotEqual"

def outlineName (name : String) : String := record "Identifier" [("name", quote name)]

def outlineBoolean (b : Bool) : String := if b then "true" else "false"

def outlineBlockOf (statements : List String) : String :=
  record "BlockStatement" [("statements", sequence statements)]

def outlineFunctionOf (parameters : List String) (body : String) : String :=
  record "FunctionLiteral"
    [("parameters", sequence (parameters.map outlineName)), ("body", body)]

def outlineConditionalOf (condition consequence alternative : String) : String :=
  variant "If" [record "IfExpression"
    [("condition", condition), ("consequence", consequence), ("alternative", alternative)]]

mutual

/-- The tree written out in full as nested records, for those who look into the machinery. -/
def Expression.outline : Expression → String
  | .identifier name => variant "Identifier" [outlineName name]
  | .integer value =>
    variant "Integer" [record "IntegerLiteral" [("value", toString value.toInt)]]
  | .boolean value => variant "Boolean" [record "BooleanLiteral" [("value", outlineBoolean value)]]
  | .string value => variant "String" [record "StringLiteral" [("value", quote value)]]
  | .unary operator operand =>
    variant "Prefix" [record "PrefixExpression"
      [("operator", operator.outline), ("operand", operand.outline)]]
  | .binary operator left right =>
    variant "Infix" [record "InfixExpression"
      [("operator", operator.outline), ("left", left.outline), ("right", right.outline)]]
  | .conditional condition consequence none =>
    outlineConditionalOf condition.outline (outlineBlockOf (outlineStatements consequence)) "None"
  | .conditional condition consequence (some alternative) =>
    outlineConditionalOf condition.outline (outlineBlockOf (outlineStatements consequence))
      (variant "Some" [outlineBlockOf (outlineStatements alternative)])
  | .function parameters body =>
    variant "Function" [outlineFunctionOf parameters (outlineBlockOf (outlineStatements body))]
  | .call callee arguments =>
    variant "Call" [record "CallExpression"
      [("callee", callee.outline), ("arguments", sequence (outlineExpressions arguments))]]
  | .array elements =>
    variant "Array" [record "ArrayLiteral" [("elements", sequence (outlineExpressions elements))]]
  | .index collection index =>
    variant "Index" [record "IndexExpression"
      [("collection", collection.outline), ("index", index.outline)]]
  | .hash pairs =>
    variant "Hash" [record "HashLiteral" [("pairs", sequence (outlinePairs pairs))]]

def Statement.outline : Statement → String
  | .binding name value =>
    variant "Let" [record "LetStatement" [("name", outlineName name), ("value", value.outline)]]
  | .return value => variant "Return" [record "ReturnStatement" [("value", value.outline)]]
  | .expression value =>
    variant "Expression" [record "ExpressionStatement" [("expression", value.outline)]]

def outlineStatements : List Statement → List String
  | [] => []
  | s :: rest => s.outline :: outlineStatements rest

def outlineExpressions : List Expression → List String
  | [] => []
  | e :: rest => e.outline :: outlineExpressions rest

def outlinePairs : List (Expression × Expression) → List String
  | [] => []
  | (key, value) :: rest => variant "" [key.outline, value.outline] :: outlinePairs rest

end

def outlineBlock (body : Block) : String := outlineBlockOf (outlineStatements body)

def outlineFunction (parameters : List String) (body : Block) : String :=
  outlineFunctionOf parameters (outlineBlock body)

end Treewalk
