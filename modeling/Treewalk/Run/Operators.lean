import Treewalk.Run.Evaluation
import Treewalk.Value.Equality

namespace Treewalk

open Evaluation

/-- The outcome of a computation that changes nothing. -/
def Evaluation.ofExcept {α : Type} : Except Fault α → Evaluation α
  | .ok a => pure a
  | .error fault => fail fault

def UnaryOperator.apply : UnaryOperator → Value → Except Fault Value
  | .not, v => .ok (.boolean (!v.isTruthy))
  | .negate, .integer n => .ok (.integer (-n))
  | .negate, v => .error (.unknownUnary .negate v.tag)

/-- Results wrap modulo 2^64; a quotient is cut off toward zero. -/
def BinaryOperator.applyIntegers : BinaryOperator → Int64 → Int64 → Except Fault Value
  | .add, a, b => .ok (.integer (a + b))
  | .subtract, a, b => .ok (.integer (a - b))
  | .multiply, a, b => .ok (.integer (a * b))
  | .divide, a, b => if b = 0 then .error .divisionByZero else .ok (.integer (a / b))
  | .less, a, b => .ok (.boolean (a < b))
  | .greater, a, b => .ok (.boolean (b < a))
  | .equal, a, b => .ok (.boolean (a == b))
  | .notEqual, a, b => .ok (.boolean (a != b))

/-- Strings can be joined, but not compared. -/
def BinaryOperator.applyStrings : BinaryOperator → String → String → Except Fault Value
  | .add, a, b => .ok (.string (a ++ b))
  | operator, _, _ => .error (.unknownBinary .string operator .string)

def BinaryOperator.applyOthers : BinaryOperator → Value → Value → Except Fault Value
  | .equal, a, b => .ok (.boolean (a.identical b))
  | .notEqual, a, b => .ok (.boolean (!a.identical b))
  | operator, a, b =>
    if a.tag = b.tag then .error (.unknownBinary a.tag operator b.tag)
    else .error (.typeMismatch a.tag operator b.tag)

def BinaryOperator.apply (operator : BinaryOperator) : Value → Value → Except Fault Value
  | .integer a, .integer b => operator.applyIntegers a b
  | .string a, .string b => operator.applyStrings a b
  | a, b => operator.applyOthers a b

def Value.toKey (v : Value) : Except Fault Key :=
  match v.key? with
  | some key => .ok key
  | none => .error (.unusableKey v.tag)

/-- The element at an index, which may be negative or too large. -/
def elementAt (elements : List Value) (i : Int64) : Value :=
  if i < 0 then .null else (elements[i.toInt.toNat]?).getD .null

def Value.at (collection index : Value) : Except Fault Value :=
  match collection, index with
  | .array _ elements, .integer i => .ok (elementAt elements i)
  | .hash _ entries, v => v.toKey.map (fun key => (Entries.get? key.hashKey entries).getD .null)
  | _, _ => .error (.notIndexable collection.tag)

namespace Builtin

def lengthOf : Value → Evaluation Value
  | .string s => pure (.integer (Int64.ofNat s.utf8ByteSize))
  | .array _ elements => pure (.integer (Int64.ofNat elements.length))
  | v => fail (.builtinArgument len v.tag)

/-- The elements of the array that `callee` is applied to. -/
def elementsFor (callee : Builtin) : Value → Evaluation (List Value)
  | .array _ elements => pure elements
  | v => fail (.builtinArgument callee v.tag)

def printAll : List Value → Evaluation Unit
  | [] => pure ()
  | v :: others => do
    record (.printed v)
    printAll others

def unary (callee : Builtin) (argument : Value) : Evaluation Value :=
  match callee with
  | len => lengthOf argument
  | first => do
    let elements ← elementsFor first argument
    return elements.headD .null
  | last => do
    let elements ← elementsFor last argument
    return elements.getLastD .null
  | _ => do
    let elements ← elementsFor rest argument
    match elements with
    | [] => return .null
    | _ :: others => newArray others

def apply (callee : Builtin) (arguments : List Value) : Evaluation Value :=
  match callee with
  | puts => do
    printAll arguments
    return .null
  | push =>
    match arguments with
    | [collection, v] => do
      let elements ← elementsFor push collection
      newArray (elements ++ [v])
    | _ => fail (.builtinArity 2 arguments.length)
  | callee =>
    match arguments with
    | [argument] => unary callee argument
    | _ => fail (.builtinArity 1 arguments.length)

end Builtin

end Treewalk
