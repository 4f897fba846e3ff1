import Treewalk.Run.Evaluate

namespace Treewalk

open Evaluation

/-- A step that a `return` may leave, with the value that it returns. Nothing that would follow on
the `return` takes place. -/
abbrev Escaping (α : Type) := ExceptT Value Evaluation α

namespace Escaping

/-- Evaluates an expression in a scope. -/
abbrev Eval := ScopeId → Expression → Escaping Value

/-- A step that no `return` leaves. -/
def lift {α : Type} (p : Evaluation α) : Escaping α := ExceptT.lift p

/-- Nothing beyond is left: the value with which the step was left counts as its own. -/
def caught (p : Escaping Value) : Evaluation Value := do
  let r ← p.run
  match r with
  | .ok v => return v
  | .error v => return v

def statement (eval : Eval) (scope : ScopeId) : Statement → Escaping Value
  | .binding name e => do
    let v ← eval scope e
    lift (define scope name v)
    return .null
  | .return e => do
    let v ← eval scope e
    throw v
  | .expression e => eval scope e

/-- The value of the last statement. Without statements it is the value given. -/
def statements (eval : Eval) (scope : ScopeId) : List Statement → Value → Escaping Value
  | [], v => pure v
  | s :: rest, _ => do
    let v ← statement eval scope s
    statements eval scope rest v

def block (eval : Eval) (scope : ScopeId) (body : Block) : Escaping Value :=
  statements eval scope body .null

def all (eval : Expression → Escaping Value) : List Expression → Escaping (List Value)
  | [] => pure []
  | e :: rest => do
    let v ← eval e
    let vs ← all eval rest
    return v :: vs

def pairs (eval : Expression → Escaping Value) :
    List (Expression × Expression) → Entries Value → Escaping (Entries Value)
  | [], entries => pure entries
  | (k, e) :: rest, entries => do
    let v ← eval k
    let key ← lift (ofExcept v.toKey)
    let w ← eval e
    pairs eval rest (Entries.insert key w entries)

/-- A call can be left, but what is around it goes on. -/
def call (eval : Eval) (callee : Value) (arguments : List Value) : Escaping Value :=
  match callee with
  | .function _ parameters body outer =>
    if parameters.length = arguments.length then do
      let inner ← lift (callScope parameters outer arguments)
      lift (asCall parameters.length (block eval inner body).caught)
    else lift (fail (.wrongArity parameters.length arguments.length))
  | .builtin b => do
    lift (record (.builtinCalled b arguments.length))
    lift (b.apply arguments)
  | _ => lift (fail (.notCallable callee.tag))

def node (eval : Eval) (scope : ScopeId) : Expression → Escaping Value
  | .identifier name => lift (nameValue scope name)
  | .integer n => pure (.integer n)
  | .boolean b => pure (.boolean b)
  | .string s => pure (.string s)
  | .unary operator operand => do
    let v ← eval scope operand
    lift (ofExcept (operator.apply v))
  | .binary operator left right => do
    let v ← eval scope left
    let w ← eval scope right
    lift (ofExcept (operator.apply v w))
  | .conditional condition consequence alternative => do
    let v ← eval scope condition
    if v.isTruthy then block eval scope consequence
    else match alternative with
      | some body => block eval scope body
      | none => return .null
  | .function parameters body => lift (newFunction parameters body scope)
  | .call callee arguments => do
    let v ← eval scope callee
    let vs ← all (eval scope) arguments
    call eval v vs
  | .array elements => do
    let vs ← all (eval scope) elements
    lift (newArray vs)
  | .index collection index => do
    let v ← eval scope collection
    let w ← eval scope index
    lift (ofExcept (v.at w))
  | .hash entries => do
    let es ← pairs (eval scope) entries []
    lift (newHash es)

/-- Gives up where evaluations are nested deeper than the number says. -/
def evaluate : Nat → Eval
  | 0, _, _ => lift giveUp
  | n + 1, scope, e => node (evaluate n) scope e

end Escaping

/-- The program has the value of its last statement, or the value with which it is left. -/
def Program.runEscaping (p : Program) (budget : Nat) (scope : ScopeId) : Evaluation Value :=
  (Escaping.block (Escaping.evaluate budget) scope p.statements).caught

end Treewalk
