import Treewalk.Run.Evaluate

namespace Treewalk

/-- The step can have the result. -/
def Evaluation.Gives {α : Type} (p : Evaluation α) (m : Machine) (a : α) : Prop :=
  ∃ m', p m = (.done a, m')

/-- What is said of the result of the step and the machine after it, if it has a result. -/
def Evaluation.After {α : Type} (p : Evaluation α) (K : α → Machine → Value → Prop) (m : Machine)
    (v : Value) : Prop :=
  ∃ a m', p m = (.done a, m') ∧ K a m' v

open Evaluation

/-- Which values are kept while an expression is evaluated. -/
abbrev Keeping := ScopeId → Expression → Machine → Value → Prop

section
variable (eval : Eval) (keeps : Keeping) (scope : ScopeId)

/-- What is kept where the value of the expression itself is kept. -/
def Held (e : Expression) (m : Machine) (v : Value) : Prop :=
  keeps scope e m v ∨ Gives (eval scope e) m v

def StatementKeeps : Statement → Machine → Value → Prop
  | .binding _ e => Held eval keeps scope e
  | .return e => Held eval keeps scope e
  | .expression e => keeps scope e

def StatementsKeep : List Statement → Machine → Value → Prop
  | [], _, _ => False
  | s :: rest, m, v =>
    StatementKeeps eval keeps scope s m v ∨
      After (runStatement eval scope s)
        (fun w m' v => w.isReturned = false ∧ StatementsKeep rest m' v) m v

def ExpressionsKeep : List Expression → Machine → Value → Prop
  | [], _, _ => False
  | e :: rest, m, v =>
    Held eval keeps scope e m v ∨
      After (eval scope e) (fun _ m' v => ExpressionsKeep rest m' v) m v

/-- Keys are not kept as they are, only what they are found by. -/
def PairsKeep : List (Expression × Expression) → Machine → Value → Prop
  | [], _, _ => False
  | (k, e) :: rest, m, v =>
    keeps scope k m v ∨
      After (eval scope k) (fun w m' v => w.key?.isSome = true ∧
        (Held eval keeps scope e m' v ∨
          After (eval scope e) (fun _ m'' v => PairsKeep rest m'' v) m' v)) m v

end

section
variable (eval : Eval) (keeps : Keeping)

def CallKeeps (callee : Value) (arguments : List Value) (m : Machine) (v : Value) : Prop :=
  match callee with
  | .function _ parameters body outer =>
    parameters.length = arguments.length ∧
      After (callScope parameters outer arguments) (fun inner m' v =>
        StatementsKeep eval keeps inner body (m'.startCall parameters.length) v) m v
  | _ => False

def NodeKeeps (scope : ScopeId) : Expression → Machine → Value → Prop
  | .unary _ e => keeps scope e
  | .binary _ a b => fun m v =>
    keeps scope a m v ∨ After (eval scope a) (fun _ => keeps scope b) m v
  | .conditional c body none => fun m v =>
    keeps scope c m v ∨ After (eval scope c) (fun w m' v =>
      w.isTruthy = true ∧ StatementsKeep eval keeps scope body m' v) m v
  | .conditional c body (some other) => fun m v =>
    keeps scope c m v ∨ After (eval scope c) (fun w m' v =>
      StatementsKeep eval keeps scope (if w.isTruthy then body else other) m' v) m v
  | .call f arguments => fun m v =>
    keeps scope f m v ∨ After (eval scope f) (fun callee m' v =>
      ExpressionsKeep eval keeps scope arguments m' v ∨
        After (evalAll (eval scope) arguments) (fun vs =>
          CallKeeps eval keeps callee vs) m' v) m v
  | .array elements => ExpressionsKeep eval keeps scope elements
  | .index c i => fun m v => keeps scope c m v ∨ After (eval scope c) (fun _ => keeps scope i) m v
  | .hash pairs => PairsKeep eval keeps scope pairs
  | _ => fun _ _ => False

end

/-- What is kept while an expression is evaluated to the given depth. -/
def Keeps : Nat → Keeping
  | 0 => fun _ _ _ _ => False
  | n + 1 => NodeKeeps (evaluate n) (Keeps n)

end Treewalk
