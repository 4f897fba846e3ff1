import Treewalk.Proofs.Run.Fitting
import Treewalk.Proofs.Run.Keeping
import Treewalk.Proofs.Run.Plain

namespace Treewalk

open Evaluation

variable {forgotten : ScopeId → Prop}

/-- What the step leaves in sight is plain, and so is all that is kept meanwhile. -/
structure Evaluation.Contained {α : Type} (forgotten : ScopeId → Prop) (p : Evaluation α)
    (m : Machine) (K : Value → Prop) (P : α → Prop) : Prop where
  memory : (p m).2.memory.Plain forgotten
  result : ∀ a, (p m).1 = .done a → P a
  kept : ∀ v, K v → v.Plain forgotten

namespace Evaluation.Contained

variable {α β : Type} {p : Evaluation α} {f : α → Evaluation β} {m : Machine} {K : Value → Prop}
  {P : α → Prop} {Q : β → Prop}

theorem pure (hm : m.memory.Plain forgotten) {a : α} (ha : P a) :
    Contained forgotten (Pure.pure a) m (fun _ => False) P := by
  refine ⟨hm, ?_, fun _ h => h.elim⟩
  intro b hb
  cases hb
  exact ha

theorem fail (hm : m.memory.Plain forgotten) (fault : Fault) :
    Contained forgotten (Evaluation.fail fault) m (fun _ => False) P := by
  refine ⟨hm, ?_, fun _ h => h.elim⟩
  intro b hb
  cases hb

theorem bind {K' : α → Machine → Value → Prop} (hp : Contained forgotten p m K P)
    (hf : ∀ a m', p m = (.done a, m') → P a → m'.memory.Plain forgotten →
      Contained forgotten (f a) m' (K' a m') Q) :
    Contained forgotten (p >>= f) m (fun v => K v ∨ After p K' m v) Q := by
  obtain ⟨hmemory, hresult, hkept⟩ := hp
  cases hr : p m with
  | mk outcome m' =>
    rw [hr] at hmemory hresult
    cases outcome with
    | done a =>
      obtain ⟨hmemory', hresult', hkept'⟩ := hf a m' hr (hresult a rfl) hmemory
      refine ⟨by rwa [bind_of_done hr], by rwa [bind_of_done hr], ?_⟩
      intro v hv
      rcases hv with hv | ⟨b, m'', hr', hv⟩
      · exact hkept v hv
      · rw [hr] at hr'
        obtain ⟨hb, rfl⟩ := Prod.mk.inj hr'
        obtain rfl := Outcome.done.inj hb
        exact hkept' v hv
    | failed fault =>
      have hfailed : (p >>= f) m = (.failed fault, m') := bind_of_failed hr
      refine ⟨by rwa [hfailed], fun b hb => (by rw [hfailed] at hb; cases hb), ?_⟩
      intro v hv
      rcases hv with hv | ⟨b, m'', hr', hv⟩
      · exact hkept v hv
      · rw [hr] at hr'
        cases hr'
    | exhausted =>
      have hexhausted : (p >>= f) m = (.exhausted, m') := bind_of_exhausted hr
      refine ⟨by rwa [hexhausted], fun b hb => (by rw [hexhausted] at hb; cases hb), ?_⟩
      intro v hv
      rcases hv with hv | ⟨b, m'', hr', hv⟩
      · exact hkept v hv
      · rw [hr] at hr'
        cases hr'

theorem mono (h : Contained forgotten p m K P) {K' : Value → Prop} (hk : ∀ v, K' v → K v)
    {P' : α → Prop} (hp : ∀ a, P a → P' a) : Contained forgotten p m K' P' :=
  ⟨h.memory, fun a ha => hp a (h.result a ha), fun v hv => h.kept v (hk v hv)⟩

theorem fail_bind (hm : m.memory.Plain forgotten) (fault : Fault) (f : α → Evaluation β) :
    Contained forgotten (Evaluation.fail fault >>= f) m (fun _ => False) Q := by
  refine ⟨hm, ?_, fun _ h => h.elim⟩
  intro b hb
  cases hb

/-- Nothing more is kept after the first part. -/
theorem bind_quiet (hp : Contained forgotten p m K P)
    (hf : ∀ a m', p m = (.done a, m') → P a → m'.memory.Plain forgotten →
      Contained forgotten (f a) m' (fun _ => False) Q) :
    Contained forgotten (p >>= f) m K Q := by
  have h : Contained forgotten (p >>= f) m (fun v => K v ∨ After p (fun _ _ _ => False) m v) Q :=
    bind hp hf
  exact h.mono (fun _ hv => .inl hv) (fun _ hb => hb)

/-- Nothing is kept in the first part. -/
theorem quiet_bind {K' : α → Machine → Value → Prop}
    (hp : Contained forgotten p m (fun _ => False) P)
    (hf : ∀ a m', p m = (.done a, m') → P a → m'.memory.Plain forgotten →
      Contained forgotten (f a) m' (K' a m') Q) :
    Contained forgotten (p >>= f) m (After p K' m) Q :=
  (bind hp hf).mono (fun _ h => .inr h) (fun _ h => h)

end Evaluation.Contained

/-- The step keeps nothing, and its result is as the predicate says. -/
abbrev Evaluation.Quiet {α : Type} (forgotten : ScopeId → Prop) (p : Evaluation α) (m : Machine)
    (P : α → Prop) : Prop :=
  Contained forgotten p m (fun _ => False) P

theorem Evaluation.Fit.quiet {α : Type} {p : Evaluation α} {m : Machine} {P : α → Prop}
    (h : Fit forgotten Value.Unmarked p m P) : Quiet forgotten p m P :=
  ⟨Memory.plain_iff.mpr h.machine, h.result, fun _ h => h.elim⟩

/-- A step that keeps nothing and whose result fits where nothing is a marker. -/
theorem Evaluation.Fit.plain {p : Evaluation Value} {m : Machine}
    (h : Fit forgotten Value.Unmarked p m (Value.Fits forgotten Value.Unmarked)) :
    Quiet forgotten p m (Value.Plain forgotten) :=
  (h.imp (fun _ hv => Value.plain_iff.mpr hv)).quiet

section
variable {m : Machine} (hm : m.memory.Plain forgotten)
include hm

theorem quiet_ofExcept {α : Type} {r : Except Fault α} {P : α → Prop} (h : ∀ a, r = .ok a → P a) :
    Quiet forgotten (ofExcept r) m P :=
  (Fit.ofExcept (Memory.plain_iff.mp hm) h).quiet

theorem quiet_newArray {vs : List Value} (h : ∀ v ∈ vs, v.Plain forgotten) :
    Quiet forgotten (newArray vs) m (Value.Plain forgotten) :=
  (fit_newArray lenient_unmarked (Memory.plain_iff.mp hm)
    (fun v hv => Value.plain_iff.mp (h v hv))).plain

theorem quiet_newHash {entries : Entries Value} (h : ∀ e ∈ entries, e.2.Plain forgotten) :
    Quiet forgotten (newHash entries) m (Value.Plain forgotten) :=
  (fit_newHash lenient_unmarked (Memory.plain_iff.mp hm)
    (fun e he => Value.plain_iff.mp (h e he))).plain

theorem quiet_newFunction {parameters : List String} {body : Block} {scope : ScopeId}
    (hs : ¬ forgotten scope) :
    Quiet forgotten (newFunction parameters body scope) m (Value.Plain forgotten) :=
  (fit_newFunction (Memory.plain_iff.mp hm) (fun _ => rfl) hs).plain

theorem quiet_nameValue {scope : ScopeId} (hs : ¬ forgotten scope) {name : String} :
    Quiet forgotten (nameValue scope name) m (Value.Plain forgotten) :=
  (fit_nameValue lenient_unmarked (Memory.plain_iff.mp hm) hs).plain

theorem quiet_apply {b : Builtin} {vs : List Value} (hvs : ∀ v ∈ vs, v.Plain forgotten) :
    Quiet forgotten (b.apply vs) m (Value.Plain forgotten) :=
  (fit_apply lenient_unmarked (Memory.plain_iff.mp hm)
    (fun v hv => Value.plain_iff.mp (hvs v hv))).plain

end

theorem UnaryOperator.isSimple_of_apply {o : UnaryOperator} {v w : Value} (h : o.apply v = .ok w) :
    w.isSimple = true :=
  Value.isSimple_of_isAtom (isAtom_of_apply h)

theorem BinaryOperator.isSimple_of_apply {o : BinaryOperator} {v w u : Value}
    (h : o.apply v w = .ok u) : u.isSimple = true :=
  Value.isSimple_of_isAtom (isAtom_of_apply h)

theorem Value.plain_at {v w u : Value} (hv : v.Flows forgotten) (h : v.at w = .ok u) :
    u.Plain forgotten := by
  cases v with
  | returned _ => contradiction
  | _ => exact plain_iff.mpr (fits_at lenient_unmarked (plain_iff.mp hv) h)

end Treewalk
