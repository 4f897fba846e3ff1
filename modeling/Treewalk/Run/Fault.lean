import Treewalk.Value.Basic

namespace Treewalk

/-- The reasons for which an evaluation fails. -/
inductive Fault where
  | typeMismatch (left : Tag) (operator : BinaryOperator) (right : Tag)
  | unknownUnary (operator : UnaryOperator) (operand : Tag)
  | unknownBinary (left : Tag) (operator : BinaryOperator) (right : Tag)
  | unbound (name : String)
  | notCallable (found : Tag)
  | notIndexable (found : Tag)
  | unusableKey (found : Tag)
  | wrongArity (expected found : Nat)
  | divisionByZero
  | builtinArity (expected found : Nat)
  | builtinArgument (callee : Builtin) (found : Tag)
deriving DecidableEq

namespace Fault

def message : Fault → String
  | typeMismatch left operator right =>
    "type mismatch: " ++ left.name ++ " " ++ operator.symbol ++ " " ++ right.name
  | unknownUnary operator operand => "unknown operator: " ++ operator.symbol ++ operand.name
  | unknownBinary left operator right =>
    "unknown operator: " ++ left.name ++ " " ++ operator.symbol ++ " " ++ right.name
  | unbound name => "identifier not found: " ++ name
  | notCallable found => "not a function: " ++ found.name
  | notIndexable found => "index operator not supported: " ++ found.name
  | unusableKey found => "unusable as hash key: " ++ found.name
  | wrongArity expected found =>
    "wrong number of arguments: want=" ++ toString expected ++ ", got=" ++ toString found
  | divisionByZero => "division by zero"
  | builtinArity expected found =>
    "wrong number of arguments. got=" ++ toString found ++ ", want=" ++ toString expected
  | builtinArgument .len found => "argument to `len` not supported, got " ++ found.name
  | builtinArgument callee found =>
    "argument to `" ++ callee.name ++ "` must be ARRAY, got " ++ found.name

def code : Fault → String
  | typeMismatch .. => "monkey::runtime::type_mismatch"
  | unknownUnary .. => "monkey::runtime::unknown_operator"
  | unknownBinary .. => "monkey::runtime::unknown_operator"
  | unbound .. => "monkey::runtime::identifier_not_found"
  | notCallable .. => "monkey::runtime::not_a_function"
  | notIndexable .. => "monkey::runtime::index_not_supported"
  | unusableKey .. => "monkey::runtime::unusable_hash_key"
  | wrongArity .. => "monkey::runtime::wrong_arity"
  | divisionByZero => "monkey::runtime::division_by_zero"
  | builtinArity .. => "monkey::runtime::builtin"
  | builtinArgument .. => "monkey::runtime::builtin"

def help? : Fault → Option String
  | typeMismatch .. => some "both operands of an arithmetic operator must have the same type"
  | unbound .. => some "bind the name with `let` before using it"
  | notIndexable .. => some "only arrays (by integer) and hashes can be indexed"
  | unusableKey .. => some "hash keys must be integers, booleans or strings"
  | _ => none

end Fault

end Treewalk
