import Treewalk.Proofs.Run.Errors
import Treewalk.Proofs.Values.Sameness

namespace Treewalk

open Evaluation

/-- What an evaluation or a call comes to: a value that it makes, or one that it hands on. Which of
the two it is, is said by the text alone. -/
inductive Delivery where
  | made (v : Value)
  | handed (v : Value)

/-- The first one comes first. -/
abbrev Deliveries := List Delivery

def Delivery.value : Delivery → Value
  | made v => v
  | handed v => v

def Delivery.of (makes : Bool) (v : Value) : Delivery := if makes then .made v else .handed v

/-- Literals of functions, arrays and hashes make what they evaluate to. -/
def Expression.makes : Expression → Bool
  | .function _ _ | .array _ | .hash _ => true
  | _ => false

/-- The arrays that come from `rest` and `push` are made by them. -/
def Builtin.makes : Builtin → Value → Bool
  | rest, v => v.tag = .array
  | push, v => v.tag = .array
  | _, _ => false

/-- What is delivered after the step, if it has a result. -/
def Evaluation.thereafter {α : Type} (p : Evaluation α) (f : α → Machine → Deliveries)
    (m : Machine) : Deliveries :=
  match p m with
  | (.done a, m') => f a m'
  | _ => []

/-- What is delivered while an expression is evaluated. -/
abbrev Delivering := ScopeId → Expression → Machine → Deliveries

section
variable (eval : Eval) (deliveries : Delivering) (scope : ScopeId)

def statementDeliveries : Statement → Machine → Deliveries
  | .binding _ e => deliveries scope e
  | .return e => deliveries scope e
  | .expression e => deliveries scope e

def statementsDeliveries : List Statement → Machine → Deliveries
  | [], _ => []
  | s :: rest, m =>
    statementDeliveries deliveries scope s m ++
      (runStatement eval scope s).thereafter (fun v m' =>
        if v.isReturned then [] else statementsDeliveries rest m') m

def expressionsDeliveries : List Expression → Machine → Deliveries
  | [], _ => []
  | e :: rest, m =>
    deliveries scope e m ++ (eval scope e).thereafter (fun _ m' => expressionsDeliveries rest m') m

def pairsDeliveries : List (Expression × Expression) → Machine → Deliveries
  | [], _ => []
  | (k, e) :: rest, m =>
    deliveries scope k m ++ (eval scope k).thereafter (fun v m' =>
      if v.key?.isSome then
        deliveries scope e m' ++
          (eval scope e).thereafter (fun _ m'' => pairsDeliveries rest m'') m'
      else []) m

end

section
variable (eval : Eval) (deliveries : Delivering)

/-- A call of a built-in function is a delivery of its own. -/
def callDeliveries (callee : Value) (arguments : List Value) (m : Machine) : Deliveries :=
  match callee with
  | .function _ parameters body outer =>
    if parameters.length = arguments.length then
      (callScope parameters outer arguments).thereafter (fun inner m' =>
        statementsDeliveries eval deliveries inner body (m'.startCall parameters.length)) m
    else []
  | .builtin b =>
    (callValue eval callee arguments).thereafter (fun v _ => [.of (b.makes v) v]) m
  | _ => []

/-- What is delivered before the expression itself comes to a value. -/
def partsDeliveries (scope : ScopeId) : Expression → Machine → Deliveries
  | .unary _ e, m => deliveries scope e m
  | .binary _ a b, m =>
    deliveries scope a m ++ (eval scope a).thereafter (fun _ => deliveries scope b) m
  | .conditional c body alternative, m =>
    deliveries scope c m ++ (eval scope c).thereafter (fun v m' =>
      if v.isTruthy then statementsDeliveries eval deliveries scope body m'
      else match alternative with
        | some other => statementsDeliveries eval deliveries scope other m'
        | none => []) m
  | .call f arguments, m =>
    deliveries scope f m ++ (eval scope f).thereafter (fun callee m' =>
      expressionsDeliveries eval deliveries scope arguments m' ++
        (evalAll (eval scope) arguments).thereafter (callDeliveries eval deliveries callee) m') m
  | .array elements, m => expressionsDeliveries eval deliveries scope elements m
  | .index c i, m =>
    deliveries scope c m ++ (eval scope c).thereafter (fun _ => deliveries scope i) m
  | .hash pairs, m => pairsDeliveries eval deliveries scope pairs m
  | _, _ => []

def nodeDeliveries (scope : ScopeId) (e : Expression) (m : Machine) : Deliveries :=
  partsDeliveries eval deliveries scope e m ++
    (evalNode eval scope e).thereafter (fun v _ => [.of e.makes v]) m

end

/-- What is delivered while an expression is evaluated to the given depth. -/
def deliveries : Nat → Delivering
  | 0 => fun _ _ _ => []
  | n + 1 => nodeDeliveries (evaluate n) (deliveries n)

/-- A program hands on what it evaluates to. -/
def Program.deliveries (p : Program) (budget : Nat) (scope : ScopeId) (m : Machine) : Deliveries :=
  statementsDeliveries (evaluate budget) (Treewalk.deliveries budget) scope p.statements m ++
    (p.run budget scope).thereafter (fun v _ => [.handed v]) m

/-- What programs deliver that are run one after the other in one scope. -/
def deliveriesEach (budget : Nat) (scope : ScopeId) : List Program → Memory → Deliveries
  | [], _ => []
  | p :: rest, memory =>
    p.deliveries budget scope (.ofMemory memory) ++
      deliveriesEach budget scope rest (p.run budget scope (.ofMemory memory)).2.memory

namespace Deliveries

def Delivers (t : Deliveries) (v : Value) : Prop := ∃ d ∈ t, d.value = v

/-- The value has been delivered, by itself or inside of another one. -/
def Holds (t : Deliveries) (v : Value) : Prop := ∃ d ∈ t, d.value.Contains v

/-- What is known of a value, and of all it holds, once its functions, arrays and hashes are
accounted for: they have been made before. -/
structure Known (t : Deliveries) (v : Value) : Prop where
  errorless : v.isError = false
  keyed : v.Keyed
  made : v.stamp?.isSome = true → .made v ∈ t

def Knows (t : Deliveries) (v : Value) : Prop := v.Throughout t.Known

/-- What the delivery says of a value is so: if it is made, then no value that has been delivered
is identical to it; if it is handed on, it has been made before, and so has what it holds. -/
def Continues (t : Deliveries) : Delivery → Prop
  | .made v => v.stamp?.isSome = true ∧ (∀ w, t.Holds w → v.identical w = false) ∧
      Knows (t ++ [.made v]) v
  | .handed v => t.Knows v

def Faithful (t : Deliveries) : Prop :=
  ∀ before d after, t = before ++ d :: after → Continues before d

/-- The stamps in the order in which they were handed out. -/
def stamps (t : Deliveries) : List Nat :=
  t.filterMap (fun d => match d with
    | .made v => v.stamp?
    | .handed _ => none)

end Deliveries

end Treewalk
