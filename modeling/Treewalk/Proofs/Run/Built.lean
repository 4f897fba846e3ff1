import Treewalk.Run.Evaluate

namespace Treewalk

open Evaluation

/-- Steps, one after the other, and calls made of them. What these keep, every evaluation keeps;
none of them looks at the journal. -/
inductive Evaluation.Built : {α : Type} → Evaluation α → Prop
  | pure {α : Type} (a : α) : Built (Pure.pure a)
  | fail {α : Type} (fault : Fault) : Built (Evaluation.fail fault : Evaluation α)
  | giveUp {α : Type} : Built (Evaluation.giveUp : Evaluation α)
  | printed (v : Value) : Built (record (.printed v))
  | builtinCalled (callee : Builtin) (count : Nat) : Built (record (.builtinCalled callee count))
  | look (scope : ScopeId) (name : String) : Built (Evaluation.look scope name)
  | define (scope : ScopeId) (name : String) (value : Value) :
      Built (Evaluation.define scope name value)
  | innerScope (outer : ScopeId) : Built (Evaluation.innerScope outer)
  | stamp : Built Evaluation.stamp
  | bind {α β : Type} {p : Evaluation α} {f : α → Evaluation β} (hp : Built p)
      (hf : ∀ a, Built (f a)) : Built (p >>= f)
  | asCall {α : Type} {p : Evaluation α} (arity : Nat) (hp : Built p) :
      Built (Evaluation.asCall arity p)

namespace Evaluation.Built

theorem ofExcept {α : Type} (r : Except Fault α) : Built (ofExcept r) := by
  cases r with
  | ok a => exact .pure a
  | error fault => exact .fail fault

theorem newArray (vs : List Value) : Built (newArray vs) := stamp.bind (fun _ => .pure _)

theorem newHash (entries : Entries Value) : Built (newHash entries) := stamp.bind (fun _ => .pure _)

theorem newFunction (parameters : List String) (body : Block) (scope : ScopeId) :
    Built (newFunction parameters body scope) :=
  stamp.bind (fun _ => .pure _)

theorem nameValue (scope : ScopeId) (name : String) : Built (nameValue scope name) := by
  refine (look scope name).bind (fun bound => ?_)
  cases bound with
  | some v => exact .pure v
  | none =>
    cases Builtin.ofName? name with
    | some b => exact .pure (Value.builtin b)
    | none => exact .fail _

theorem elementsFor (b : Builtin) (v : Value) : Built (b.elementsFor v) := by
  cases v with
  | array n vs => exact .pure vs
  | _ => exact .fail _

theorem lengthOf (v : Value) : Built (Builtin.lengthOf v) := by
  cases v with
  | string _ | array _ _ => exact .pure _
  | _ => exact .fail _

theorem unary (b : Builtin) (v : Value) : Built (b.unary v) := by
  unfold Builtin.unary
  split
  · exact lengthOf v
  · exact (elementsFor _ v).bind (fun _ => .pure _)
  · exact (elementsFor _ v).bind (fun _ => .pure _)
  · refine (elementsFor _ v).bind (fun vs => ?_)
    cases vs with
    | nil => exact .pure _
    | cons w ws => exact newArray ws

theorem printAll (vs : List Value) : Built (Builtin.printAll vs) := by
  induction vs with
  | nil => exact .pure ()
  | cons v vs ih => exact (printed v).bind (fun _ => ih)

theorem apply (b : Builtin) (vs : List Value) : Built (b.apply vs) := by
  unfold Builtin.apply
  split
  · exact (printAll vs).bind (fun _ => .pure _)
  · split
    · exact (elementsFor _ _).bind (fun _ => newArray _)
    · exact .fail _
  · split
    · exact unary _ _
    · exact .fail _

theorem bindAll (scope : ScopeId) (bs : List (String × Value)) : Built (bindAll scope bs) := by
  induction bs with
  | nil => exact .pure ()
  | cons b bs ih => exact (define scope b.1 b.2).bind (fun _ => ih)

theorem callScope (parameters : List String) (outer : ScopeId) (arguments : List Value) :
    Built (callScope parameters outer arguments) :=
  (innerScope outer).bind (fun _ => (bindAll _ _).bind (fun _ => .pure _))

section
variable {eval : Eval} (he : ∀ scope e, Built (eval scope e)) (scope : ScopeId)
include he

theorem runStatement (s : Statement) : Built (runStatement eval scope s) := by
  cases s with
  | binding name e =>
    exact (he scope e).bind (fun v => (define scope name v).bind (fun _ => .pure _))
  | «return» e => exact (he scope e).bind (fun v => .pure _)
  | expression e => exact he scope e

theorem runStatements (ss : List Statement) (v : Value) :
    Built (runStatements eval scope ss v) := by
  induction ss generalizing v with
  | nil => exact .pure v
  | cons s rest ih =>
    refine (runStatement he scope s).bind (fun w => ?_)
    split
    · exact .pure w
    · exact ih w

theorem runBlock (body : Block) : Built (runBlock eval scope body) :=
  runStatements he scope body .null

theorem evalAll (es : List Expression) : Built (evalAll (eval scope) es) := by
  induction es with
  | nil => exact .pure []
  | cons e rest ih => exact (he scope e).bind (fun v => ih.bind (fun vs => .pure _))

theorem evalPairs (pairs : List (Expression × Expression)) (entries : Entries Value) :
    Built (evalPairs (eval scope) pairs entries) := by
  induction pairs generalizing entries with
  | nil => exact .pure entries
  | cons pair rest ih =>
    refine (he scope pair.1).bind (fun v => ?_)
    refine (ofExcept v.toKey).bind (fun key => ?_)
    exact (he scope pair.2).bind (fun w => ih _)

omit scope in
theorem callValue (callee : Value) (arguments : List Value) :
    Built (callValue eval callee arguments) := by
  cases callee with
  | function n parameters body outer =>
    simp only [Treewalk.callValue, enterFunction]
    split
    · refine (callScope parameters outer arguments).bind (fun inner => ?_)
      exact (asCall _ (runBlock he inner body)).bind (fun v => .pure _)
    · exact .fail _
  | builtin b => exact (builtinCalled b _).bind (fun _ => apply b arguments)
  | _ => exact .fail _

theorem evalNode (e : Expression) : Built (evalNode eval scope e) := by
  cases e with
  | identifier name => exact nameValue scope name
  | integer n => exact .pure _
  | boolean b => exact .pure _
  | string s => exact .pure _
  | unary o e => exact (he scope e).bind (fun v => ofExcept _)
  | binary o a b => exact (he scope a).bind (fun v => (he scope b).bind (fun w => ofExcept _))
  | conditional c body alternative =>
    refine (he scope c).bind (fun v => ?_)
    split
    · exact runBlock he scope body
    · cases alternative with
      | none => exact .pure _
      | some other => exact runBlock he scope other
  | function parameters body => exact newFunction parameters body scope
  | call f arguments =>
    refine (he scope f).bind (fun v => ?_)
    exact (evalAll he scope arguments).bind (fun vs => callValue he v vs)
  | array elements => exact (evalAll he scope elements).bind (fun vs => newArray vs)
  | index c i => exact (he scope c).bind (fun v => (he scope i).bind (fun w => ofExcept _))
  | hash pairs => exact (evalPairs he scope pairs []).bind (fun es => newHash es)

end

theorem evaluate (budget : Nat) (scope : ScopeId) (e : Expression) :
    Built (evaluate budget scope e) := by
  induction budget generalizing scope e with
  | zero => exact .giveUp
  | succ n ih => exact evalNode ih scope e

theorem run (p : Program) (budget : Nat) (scope : ScopeId) : Built (p.run budget scope) :=
  (runBlock (evaluate budget) scope p.statements).bind (fun _ => .pure _)

end Evaluation.Built

/-- The machine as if more had been recorded before; the events given come last first. -/
def Machine.withPast (past : List Event) (m : Machine) : Machine :=
  { m with journal := m.journal ++ past }

namespace Machine

variable {past : List Event} {m : Machine}

@[simp] theorem withPast_memory : (m.withPast past).memory = m.memory := rfl

@[simp] theorem withPast_nil : m.withPast [] = m := by
  simp [withPast]

theorem events_withPast : (m.withPast past).events = past.reverse ++ m.events := by
  simp [withPast, events]

end Machine

/-- A call that has ended runs no longer. -/
theorem Evaluation.Built.callDepth_eq {α : Type} {p : Evaluation α} (h : Built p) (m : Machine) :
    (p m).2.callDepth = m.callDepth := by
  induction h generalizing m with
  | @bind α β p f hp hf ihp ihf =>
    have hfirst := ihp m
    rw [bind_apply]
    cases hr : p m with
    | mk outcome m' =>
      rw [hr] at hfirst
      cases outcome with
      | done a => exact (ihf a m').trans hfirst
      | failed fault => exact hfirst
      | exhausted => exact hfirst
  | asCall arity hp ih =>
    rw [asCall_apply]
    exact congrArg (· - 1) (ih (m.startCall arity))
  | _ => rfl

/-- The journal is written to, but never read. -/
theorem Evaluation.Built.withPast {α : Type} {p : Evaluation α} (h : Built p) (past : List Event)
    (m : Machine) : p (m.withPast past) = ((p m).1, (p m).2.withPast past) := by
  induction h generalizing m with
  | @bind α β p f hp hf ihp ihf =>
    rw [bind_apply, bind_apply, ihp m]
    cases p m with
    | mk outcome m' =>
      cases outcome with
      | done a => exact ihf a m'
      | failed fault => rfl
      | exhausted => rfl
  | asCall arity hp ih =>
    have hstart : (m.withPast past).startCall arity = (m.startCall arity).withPast past := rfl
    rw [asCall_apply, asCall_apply, hstart, ih]
    rfl
  | _ => rfl

/-- What is kept by each of the three ways to change the memory is kept by every evaluation. -/
theorem Evaluation.Built.keeps {P : Memory → Prop}
    (hdefine : ∀ m s name v, P m → P (m.define s name v))
    (hinner : ∀ m s, P m → P (m.innerScope s).2) (hstamp : ∀ m, P m → P m.stamp.2)
    {α : Type} {p : Evaluation α} (h : Built p) {m : Machine} (hm : P m.memory) :
    P (p m).2.memory := by
  induction h generalizing m with
  | define scope name value => exact hdefine _ _ _ _ hm
  | innerScope outer => exact hinner _ _ hm
  | stamp => exact hstamp _ hm
  | @bind α β p f hp hf ihp ihf =>
    have hfirst := ihp hm
    rw [bind_apply]
    cases hr : p m with
    | mk outcome m' =>
      rw [hr] at hfirst
      cases outcome with
      | done a => exact ihf a hfirst
      | failed fault => exact hfirst
      | exhausted => exact hfirst
  | @asCall α p arity hp ih =>
    have hstart : P (m.startCall arity).memory := hm
    rw [asCall_apply]
    exact ih hstart
  | _ => exact hm

/-- No scope goes away. -/
theorem Evaluation.Built.size_le {α : Type} {p : Evaluation α} (h : Built p) (m : Machine) :
    m.memory.scopes.size ≤ (p m).2.memory.scopes.size := by
  refine h.keeps (P := fun memory => m.memory.scopes.size ≤ memory.scopes.size)
    (fun memory s name v hle => ?_) (fun memory s hle => ?_) (fun _ hle => hle) (Nat.le_refl _)
  · rwa [Memory.size_define]
  · exact Nat.le_trans hle (Nat.le_of_lt Memory.lt_size_innerScope)

end Treewalk
