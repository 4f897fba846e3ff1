import Treewalk.Proofs.Run.Ensures
import Treewalk.Proofs.Types.Values
import Treewalk.Session.Basic

namespace Treewalk

open Evaluation

variable {T : String → Ty}

/-- However the step ends, memory has grown and is typed; and it fails only by a division by zero. -/
def Evaluation.Sound {α : Type} (T : String → Ty) (p : Evaluation α) (m : Machine)
    (P : Memory → α → Prop) : Prop :=
  Ensures (fun m' => m'.memory.Typed T ∧ m.memory.Grows m'.memory) (fun f => f = .divisionByZero) p m
    (fun a m' => P m'.memory a)

namespace Evaluation.Sound

variable {α β : Type} {p : Evaluation α} {f : α → Evaluation β} {m m' : Machine}
  {P : Memory → α → Prop} {R : Memory → β → Prop}

theorem done {a : α} (h : p m = (.done a, m')) (ht : m'.memory.Typed T)
    (hg : m.memory.Grows m'.memory) (ha : P m'.memory a) : Sound T p m P :=
  Ensures.of_done h ⟨ht, hg⟩ ha

theorem pure {a : α} (ht : m.memory.Typed T) (ha : P m.memory a) : Sound T (Pure.pure a) m P :=
  done rfl ht (.refl _) ha

theorem fail (ht : m.memory.Typed T) :
    Sound T (Evaluation.fail .divisionByZero : Evaluation α) m P :=
  Ensures.fail ⟨ht, .refl _⟩ rfl

theorem exhausted (ht : m.memory.Typed T) : Sound T (giveUp : Evaluation α) m P :=
  Ensures.of_exhausted rfl ⟨ht, .refl _⟩

theorem bind (hp : Sound T p m P)
    (hf : ∀ a m', m'.memory.Typed T → m.memory.Grows m'.memory → P m'.memory a →
      Sound T (f a) m' R) : Sound T (p >>= f) m R := by
  refine Ensures.bind hp ?_
  intro a m' _ hm' ha
  refine (hf a m' hm'.1 hm'.2 ha).mono (fun m'' hm'' => ?_) (fun _ _ _ h => h)
  exact ⟨hm''.1, hm'.2.trans hm''.2⟩

theorem asCall {arity : Nat} (h : Sound T p (m.startCall arity) P) :
    Sound T (Evaluation.asCall arity p) m P :=
  Ensures.asCall (fun _ hm' => hm') (fun _ _ ha => ha) h

end Evaluation.Sound

theorem UnaryOperator.apply_hasType {o : UnaryOperator} {m : Memory} {v : Value} {σ τ : Ty}
    (hv : v.HasType T m σ) (ho : o.type? σ = some τ) :
    ∃ w, o.apply v = .ok w ∧ w.HasType T m τ := by
  cases o with
  | not =>
    cases ho
    exact ⟨_, rfl, .boolean _⟩
  | negate =>
    cases hv with
    | integer n =>
      cases ho
      exact ⟨_, rfl, .integer _⟩
    | _ => cases ho

theorem BinaryOperator.applyIntegers_hasType {o : BinaryOperator} {m : Memory} {a b : Int64}
    {τ : Ty} (ho : o.type? .integer .integer = some τ) :
    (∃ u, o.applyIntegers a b = .ok u ∧ u.HasType T m τ) ∨
      o.applyIntegers a b = .error .divisionByZero := by
  cases o with
  | divide =>
    cases ho
    by_cases hb : b = 0
    · exact .inr (if_pos hb)
    · exact .inl ⟨_, if_neg hb, .integer _⟩
  | add | subtract | multiply =>
    cases ho
    exact .inl ⟨_, rfl, .integer _⟩
  | less | greater | equal | notEqual =>
    cases ho
    exact .inl ⟨_, rfl, .boolean _⟩

theorem BinaryOperator.apply_hasType {o : BinaryOperator} {m : Memory} {v w : Value} {σ ρ τ : Ty}
    (hv : v.HasType T m σ) (hw : w.HasType T m ρ) (ho : o.type? σ ρ = some τ) :
    (∃ u, o.apply v w = .ok u ∧ u.HasType T m τ) ∨ o.apply v w = .error .divisionByZero := by
  cases hv with
  | integer a =>
    cases hw with
    | integer b => exact applyIntegers_hasType ho
    | _ => cases o <;> cases ho
  | boolean a =>
    cases hw with
    | boolean b =>
      cases o with
      | equal | notEqual =>
        cases ho
        exact .inl ⟨_, rfl, .boolean _⟩
      | _ => cases ho
    | _ => cases o <;> cases ho
  | string a =>
    cases hw with
    | string b =>
      cases o with
      | add =>
        cases ho
        exact .inl ⟨_, rfl, .string _⟩
      | _ => cases ho
    | _ => cases o <;> cases ho
  | function _ _ => cases o <;> cases ho

theorem sound_nameValue {scope : ScopeId} {known : List String} {m : Machine} {name : String}
    (hm : m.memory.Provides T scope known) (hname : name ∈ known) :
    Sound T (nameValue scope name) m (fun m' v => v.HasType T m' (T name)) := by
  have hbound := (m.memory.isSome_get? scope name).trans (hm.bound name hname)
  obtain ⟨v, hv⟩ := Option.isSome_iff_exists.mp hbound
  have hlook : nameValue scope name m = (.done v, m) := by
    rw [nameValue, bind_of_done (look_apply scope name m), hv]
    rfl
  exact .done hlook hm.typed (.refl _) (hm.typed.get? hv)

/-- Expressions are evaluated to values of their types. -/
def SoundEval (T : String → Ty) (eval : Eval) : Prop :=
  ∀ {scope known e τ m}, Expression.HasType T known e τ → m.memory.Provides T scope known →
    Sound T (eval scope e) m (fun m' v => v.HasType T m' τ)

/-- The value of statements that end in an expression of the type, if there is one. -/
def Value.EndsAs (T : String → Ty) (m : Memory) : Value → Option Ty → Prop
  | v, some τ => v.HasType T m τ
  | v, none => v = .null

theorem Value.EndsAs.unwrapped {m : Memory} {v : Value} {τ : Option Ty} (h : v.EndsAs T m τ) :
    v.unwrapped = v := by
  cases v with
  | returned w =>
    cases τ with
    | none => cases h
    | some τ => cases h
  | _ => rfl

section
variable {eval : Eval} (he : SoundEval T eval) {scope : ScopeId} {known : List String} {m : Machine}
include he

theorem sound_binding {name : String} {e : Expression} (h : e.HasType T known (T name))
    (hm : m.memory.Provides T scope known) :
    Sound T (runStatement eval scope (.binding name e)) m
      (fun m' w => w = .null ∧ m'.Provides T scope (name :: known)) := by
  refine Sound.bind (he h hm) ?_
  intro v m' ht hg hv
  have hm' := (hm.grow ht hg).define hv
  exact .done rfl hm'.typed (Memory.grows_define scope name v) ⟨rfl, hm'⟩

theorem sound_statements {ss : List Statement} {τ : Option Ty} {v : Value}
    (h : StatementsHaveType T known ss τ) (hm : m.memory.Provides T scope known)
    (hv : ss = [] → v = .null) :
    Sound T (runStatements eval scope ss v) m (fun m' w => w.EndsAs T m' τ) := by
  induction ss generalizing known τ v m with
  | nil =>
    cases h
    exact .pure hm.typed (hv rfl)
  | cons s rest ih =>
    cases h with
    | last htype =>
      refine Sound.bind (he htype hm) ?_
      intro w m' ht _ hw
      rw [if_neg (by simp [hw.isReturned])]
      exact .pure ht hw
    | binding htype hrest =>
      refine Sound.bind (sound_binding he htype hm) ?_
      intro w m' _ _ hw
      obtain ⟨rfl, hm'⟩ := hw
      exact ih hrest hm' (fun _ => rfl)
    | expression htype hne hrest =>
      refine Sound.bind (he htype hm) ?_
      intro w m' ht hg hw
      rw [if_neg (by simp [hw.isReturned])]
      exact ih hrest (hm.grow ht hg) (fun hnil => absurd hnil hne)

theorem sound_block {body : Block} {τ : Option Ty} (h : StatementsHaveType T known body τ)
    (hm : m.memory.Provides T scope known) :
    Sound T (runBlock eval scope body) m (fun m' w => w.EndsAs T m' τ) :=
  sound_statements he h hm (fun _ => rfl)

theorem sound_evalAll {es : List Expression} {σs : List Ty} (h : ArgumentsHaveType T known es σs)
    (hm : m.memory.Provides T scope known) :
    Sound T (evalAll (eval scope) es) m
      (fun m' vs => List.Forall₂ (fun σ v => v.HasType T m' σ) σs vs) := by
  induction es generalizing σs m with
  | nil =>
    cases h
    exact .pure hm.typed .nil
  | cons e rest ih =>
    cases h with
    | cons htype hrest =>
      refine Sound.bind (he htype hm) ?_
      intro v m' ht hg hv
      refine Sound.bind (ih hrest (hm.grow ht hg)) ?_
      intro vs m'' ht' hg' hvs
      exact .pure ht' (.cons (hv.grow hg') hvs)

end

section
variable {eval : Eval} (he : SoundEval T eval)
include he

theorem sound_callValue {callee : Value} {arguments : List Value} {σs : List Ty} {τ : Ty}
    {m : Machine} (ht : m.memory.Typed T) (hc : callee.HasType T m.memory (.function σs τ))
    (ha : List.Forall₂ (fun σ v => v.HasType T m.memory σ) σs arguments) :
    Sound T (callValue eval callee arguments) m (fun m' w => w.HasType T m' τ) := by
  cases hc with
  | @function n parameters known body outer _ hbound hbody =>
    have hlength : parameters.length = arguments.length := by simpa using ha.length_eq
    have hprovides := Memory.Provides.call ht hbound ha
    have hscope : Sound T (callScope parameters outer arguments) m
        (fun m' inner => m'.Provides T inner (parameters ++ known)) :=
      .done (callScope_apply parameters outer arguments m) hprovides.typed
        ((Memory.grows_innerScope outer).trans (Memory.grows_defineAll _ _)) hprovides
    have henter : Sound T (enterFunction eval parameters body outer arguments) m
        (fun m' w => w.HasType T m' τ) := by
      rw [enterFunction, if_pos hlength]
      refine hscope.bind ?_
      intro inner m' _ _ hinner
      have hblock : Sound T (runBlock eval inner body) (m'.startCall parameters.length)
          (fun m'' w => w.EndsAs T m'' (some τ)) :=
        sound_block he hbody hinner
      refine hblock.asCall.bind (fun v m'' ht' _ hv => .pure ht' ?_)
      rwa [Value.EndsAs.unwrapped hv]
    exact henter

theorem sound_node {scope : ScopeId} {known : List String} {e : Expression} {τ : Ty} {m : Machine}
    (h : e.HasType T known τ) (hm : m.memory.Provides T scope known) :
    Sound T (evalNode eval scope e) m (fun m' v => v.HasType T m' τ) := by
  cases h with
  | identifier hname => exact sound_nameValue hm hname
  | integer n => exact .pure hm.typed (.integer n)
  | boolean b => exact .pure hm.typed (.boolean b)
  | string s => exact .pure hm.typed (.string s)
  | unary htype ho =>
    refine Sound.bind (he htype hm) ?_
    intro v m' ht _ hv
    obtain ⟨w, hw, hwtype⟩ := UnaryOperator.apply_hasType hv ho
    rw [hw]
    exact .pure ht hwtype
  | binary ha hb ho =>
    refine Sound.bind (he ha hm) ?_
    intro v m' ht hg hv
    refine Sound.bind (he hb (hm.grow ht hg)) ?_
    intro w m'' ht' hg' hw
    rcases BinaryOperator.apply_hasType (hv.grow hg') hw ho with ⟨u, hu, hutype⟩ | hzero
    · rw [hu]
      exact .pure ht' hutype
    · rw [hzero]
      exact .fail ht'
  | conditional hc hbody hother =>
    refine Sound.bind (he hc hm) ?_
    intro v m' ht hg _
    split
    · exact sound_block he hbody (hm.grow ht hg)
    · exact sound_block he hother (hm.grow ht hg)
  | function hbody =>
    exact .done (newFunction_apply _ _ scope m) hm.typed.stamp (.stamp _) (.function hm.bound hbody)
  | call hf ha =>
    refine Sound.bind (he hf hm) ?_
    intro v m' ht hg hv
    refine Sound.bind (sound_evalAll he ha (hm.grow ht hg)) ?_
    intro vs m'' ht' hg' hvs
    exact sound_callValue he ht' (hv.grow hg') hvs

end

theorem soundEval_evaluate (n : Nat) : SoundEval T (evaluate n) := by
  induction n with
  | zero => exact fun _ hm => .exhausted hm.typed
  | succ n ih => exact fun h hm => sound_node ih h hm

/-- A well-typed program, run in a scope that provides the names known to it, fails at most where it
divides by zero, and what it evaluates to has its type: the type of its last statement, or that of
`null` if this is a `let`. The scope then still provides all of these names, and with their types. -/
theorem wellTyped_run {p : Program} {known : List String} {τ : Option Ty}
    (h : StatementsHaveType T known p.statements τ) (budget : Nat) {scope : ScopeId} {m : Machine}
    (hm : m.memory.Provides T scope known) :
    (∀ f, (p.run budget scope m).1 = .failed f → f = .divisionByZero) ∧
      (∀ v, (p.run budget scope m).1 = .done v →
        v.EndsAs T (p.run budget scope m).2.memory τ) ∧
      (p.run budget scope m).2.memory.Provides T scope known := by
  have hrun : Sound T (p.run budget scope) m (fun m' v => v.EndsAs T m' τ) := by
    refine (sound_block (soundEval_evaluate budget) h hm).bind (fun v m' ht _ hv => .pure ht ?_)
    rwa [hv.unwrapped]
  exact ⟨hrun.fault, hrun.result, hm.grow hrun.machine.1 hrun.machine.2⟩

/-- Binds a name again to a function that calls the name, which so comes to call itself. -/
def knot : Program :=
  ⟨[.binding "f" (.function ["n"] [.expression (.identifier "n")]),
    .binding "g" (.function ["n"] [.expression (.conditional
      (.binary .less (.identifier "n") (.integer 1)) [.expression (.integer 7)]
      (some [.expression (.call (.identifier "f") [.binary .subtract (.identifier "n")
        (.integer 1)])]))]),
    .binding "f" (.identifier "g"),
    .expression (.call (.identifier "f") [.integer 3])]⟩

def knotTypes : String → Ty
  | "f" | "g" => .function [.integer] .integer
  | _ => .integer

theorem knot_hasType : StatementsHaveType knotTypes [] knot.statements (some .integer) := by
  have hn : ∀ {known}, "n" ∈ known →
      (Expression.identifier "n").HasType knotTypes known .integer := .identifier
  have hf : ∀ {known}, "f" ∈ known →
      (Expression.identifier "f").HasType knotTypes known (.function [.integer] .integer) :=
    .identifier
  have hless : (Expression.binary .less (.identifier "n") (.integer 1)).HasType knotTypes
      ["n", "f"] .boolean :=
    .binary (hn (by simp)) (.integer 1) rfl
  have hcall : (Expression.call (.identifier "f") [.binary .subtract (.identifier "n")
      (.integer 1)]).HasType knotTypes ["n", "f"] .integer :=
    .call (hf (by simp)) (.cons (.binary (hn (by simp)) (.integer 1) rfl) .nil)
  refine .binding (.function (.last (hn (by simp)))) (.binding ?_ (.binding ?_ (.last ?_)))
  · exact .function (.last (.conditional hless (.last (.integer 7)) (.last hcall)))
  · exact .identifier (by simp)
  · exact .call (hf (by simp)) (.cons (.integer 3) .nil)

theorem provides_new : Session.new.memory.Provides T Session.new.scope [] :=
  ⟨Nat.zero_lt_one, fun _ _ hb => absurd hb Memory.not_mem_empty_newScope, by simp⟩

theorem knot_run :
    StatementsHaveType knotTypes [] knot.statements (some .integer) ∧
      Session.new.memory.Provides knotTypes Session.new.scope [] ∧
      (knot.run 20 Session.new.scope (.ofMemory Session.new.memory)).1 = .done (.integer 7) ∧
      (Value.integer 7).EndsAs knotTypes
        (knot.run 20 Session.new.scope (.ofMemory Session.new.memory)).2.memory (some .integer) ∧
      (knot.run 20 Session.new.scope (.ofMemory Session.new.memory)).2.memory.Provides knotTypes
        Session.new.scope [] := by
  have hrun : (knot.run 20 Session.new.scope (.ofMemory Session.new.memory)).1 =
      .done (.integer 7) := by cbv
  obtain ⟨_, hresult, hmemory⟩ :=
    wellTyped_run knot_hasType 20 (m := .ofMemory Session.new.memory) provides_new
  exact ⟨knot_hasType, provides_new, hrun, hresult _ hrun, hmemory⟩

end Treewalk
