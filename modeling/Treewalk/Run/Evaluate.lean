import Treewalk.Run.Operators

namespace Treewalk

open Evaluation

/-- Evaluates an expression in a scope. The rules take it as an argument, so that `evaluate` alone
is recursive. -/
abbrev Eval := ScopeId → Expression → Evaluation Value

/-- The value of the name, which is a built-in function if no scope binds it. -/
def nameValue (scope : ScopeId) (name : String) : Evaluation Value := do
  let bound ← look scope name
  match bound with
  | some v => pure v
  | none =>
    match Builtin.ofName? name with
    | some b => pure (.builtin b)
    | none => fail (.unbound name)

def runStatement (eval : Eval) (scope : ScopeId) : Statement → Evaluation Value
  | .binding name e => do
    let v ← eval scope e
    define scope name v
    return .null
  | .return e => do
    let v ← eval scope e
    return .returned v
  | .expression e => eval scope e

/-- The value of the last statement, or of the first one that returns. Without statements it is
the value given. -/
def runStatements (eval : Eval) (scope : ScopeId) : List Statement → Value → Evaluation Value
  | [], v => pure v
  | s :: rest, _ => do
    let v ← runStatement eval scope s
    if v.isReturned then return v else runStatements eval scope rest v

def runBlock (eval : Eval) (scope : ScopeId) (body : Block) : Evaluation Value :=
  runStatements eval scope body .null

/-- What a call or a program makes of a value that is on its way out. A `return` travels as a
`returned` value out of the blocks around it until then. -/
def Value.unwrapped : Value → Value
  | .returned v => v
  | v => v

def evalAll (eval : Expression → Evaluation Value) : List Expression → Evaluation (List Value)
  | [] => pure []
  | e :: rest => do
    let v ← eval e
    let vs ← evalAll eval rest
    return v :: vs

/-- Evaluates each key before its value, and refuses a key before its value is evaluated. -/
def evalPairs (eval : Expression → Evaluation Value) :
    List (Expression × Expression) → Entries Value → Evaluation (Entries Value)
  | [], entries => pure entries
  | (k, e) :: rest, entries => do
    let v ← eval k
    let key ← ofExcept v.toKey
    let w ← eval e
    evalPairs eval rest (Entries.insert key w entries)

def bindAll (scope : ScopeId) : List (String × Value) → Evaluation Unit
  | [] => pure ()
  | (name, v) :: rest => do
    define scope name v
    bindAll scope rest

/-- A new scope inside another, in which the parameters are bound to the arguments. -/
def callScope (parameters : List String) (outer : ScopeId) (arguments : List Value) :
    Evaluation ScopeId := do
  let inner ← innerScope outer
  bindAll inner (parameters.zip arguments)
  return inner

theorem bindAll_apply (scope : ScopeId) (bs : List (String × Value)) (m : Machine) :
    bindAll scope bs m = (.done (), { m with memory := m.memory.defineAll scope bs }) := by
  induction bs generalizing m with
  | nil => rfl
  | cons b bs ih => exact ih { m with memory := m.memory.define scope b.1 b.2 }

theorem callScope_apply (parameters : List String) (outer : ScopeId) (arguments : List Value)
    (m : Machine) :
    callScope parameters outer arguments m =
      let (inner, memory) := m.memory.innerScope outer
      (.done inner, { m with memory := memory.defineAll inner (parameters.zip arguments) }) := by
  unfold callScope
  rw [bind_of_done (innerScope_apply outer m), bind_of_done (bindAll_apply _ _ _)]
  rfl

/-- Applies a function in a new scope inside the one in which it was made. -/
def enterFunction (eval : Eval) (parameters : List String) (body : Block) (scope : ScopeId)
    (arguments : List Value) : Evaluation Value :=
  if parameters.length = arguments.length then do
    let inner ← callScope parameters scope arguments
    let v ← asCall parameters.length (runBlock eval inner body)
    return v.unwrapped
  else fail (.wrongArity parameters.length arguments.length)

def callValue (eval : Eval) (callee : Value) (arguments : List Value) : Evaluation Value :=
  match callee with
  | .function _ parameters body scope => enterFunction eval parameters body scope arguments
  | .builtin b => do
    record (.builtinCalled b arguments.length)
    b.apply arguments
  | _ => fail (.notCallable callee.tag)

/-- One level of evaluation. -/
def evalNode (eval : Eval) (scope : ScopeId) : Expression → Evaluation Value
  | .identifier name => nameValue scope name
  | .integer n => pure (.integer n)
  | .boolean b => pure (.boolean b)
  | .string s => pure (.string s)
  | .unary operator operand => do
    let v ← eval scope operand
    ofExcept (operator.apply v)
  | .binary operator left right => do
    let v ← eval scope left
    let w ← eval scope right
    ofExcept (operator.apply v w)
  | .conditional condition consequence alternative => do
    let v ← eval scope condition
    if v.isTruthy then runBlock eval scope consequence
    else match alternative with
      | some body => runBlock eval scope body
      | none => return .null
  | .function parameters body => newFunction parameters body scope
  | .call callee arguments => do
    let v ← eval scope callee
    let vs ← evalAll (eval scope) arguments
    callValue eval v vs
  | .array elements => do
    let vs ← evalAll (eval scope) elements
    newArray vs
  | .index collection index => do
    let v ← eval scope collection
    let w ← eval scope index
    ofExcept (v.at w)
  | .hash pairs => do
    let entries ← evalPairs (eval scope) pairs []
    newHash entries

/-- Evaluates an expression whose evaluation is nested at most as deep as the number says. -/
def evaluate : Nat → Eval
  | 0, _, _ => giveUp
  | n + 1, scope, e => evalNode (evaluate n) scope e

/-- A program has the value of its last statement, or of the first `return` that it reaches. -/
def Program.run (p : Program) (budget : Nat) (scope : ScopeId) : Evaluation Value := do
  let v ← runBlock (evaluate budget) scope p.statements
  return v.unwrapped

/-- Calls a function with arguments that have been evaluated already. -/
def Value.call (callee : Value) (budget : Nat) (arguments : List Value) : Evaluation Value :=
  callValue (evaluate budget) callee arguments

/-- The nesting that is granted where nothing else is asked for. -/
def recursionBudget : Nat := 100000

/-- What callers see who cannot tell faults from values. -/
def Outcome.toValue? : Outcome Value → Option Value
  | .done v => some v
  | .failed fault => some (.error fault.message)
  | .exhausted => none

end Treewalk
