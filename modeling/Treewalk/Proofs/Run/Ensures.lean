import Treewalk.Run.Evaluate

namespace Treewalk

/-- What is ensured of a step in a machine, however it ends: something of the machine afterwards,
something of the fault it fails with, something of its result. -/
structure Evaluation.Ensures {α : Type} (I : Machine → Prop) (F : Fault → Prop) (p : Evaluation α)
    (m : Machine) (P : α → Machine → Prop) : Prop where
  machine : I (p m).2
  fault : ∀ f, (p m).1 = .failed f → F f
  result : ∀ a, (p m).1 = .done a → P a (p m).2

namespace Evaluation.Ensures

variable {α β : Type} {I : Machine → Prop} {F : Fault → Prop} {p : Evaluation α}
  {f : α → Evaluation β} {m m' : Machine} {P : α → Machine → Prop} {Q : β → Machine → Prop}

/-- What is ensured depends on nothing but how the step ends. -/
theorem of_eq {q : Evaluation α} (h : p m = q m') (hq : Ensures I F q m' P) :
    Ensures I F p m P := by
  obtain ⟨hmachine, hfault, hresult⟩ := hq
  rw [← h] at hmachine hfault hresult
  exact ⟨hmachine, hfault, hresult⟩

theorem of_done {a : α} (h : p m = (.done a, m')) (hm : I m') (ha : P a m') :
    Ensures I F p m P := by
  refine ⟨by rwa [h], fun fault hfault => ?_, fun b hb => ?_⟩
  · rw [h] at hfault
    cases hfault
  · rw [h] at hb ⊢
    cases hb
    exact ha

theorem of_failed {fault : Fault} (h : p m = (.failed fault, m')) (hm : I m') (hf : F fault) :
    Ensures I F p m P := by
  refine ⟨by rwa [h], fun other hother => ?_, fun b hb => ?_⟩
  · rw [h] at hother
    cases hother
    exact hf
  · rw [h] at hb
    cases hb

theorem of_exhausted (h : p m = (.exhausted, m')) (hm : I m') : Ensures I F p m P := by
  refine ⟨by rwa [h], fun fault hfault => ?_, fun b hb => ?_⟩
  · rw [h] at hfault
    cases hfault
  · rw [h] at hb
    cases hb

theorem pure {a : α} (hm : I m) (ha : P a m) : Ensures I F (Pure.pure a) m P := of_done rfl hm ha

theorem fail {fault : Fault} (hm : I m) (hf : F fault) :
    Ensures I F (Evaluation.fail fault) m P :=
  of_failed rfl hm hf

theorem bind (hp : Ensures I F p m P)
    (hf : ∀ a m', p m = (.done a, m') → I m' → P a m' → Ensures I F (f a) m' Q) :
    Ensures I F (p >>= f) m Q := by
  obtain ⟨hmachine, hfault, hresult⟩ := hp
  cases hr : p m with
  | mk outcome m' =>
    rw [hr] at hmachine hfault hresult
    cases outcome with
    | done a => exact of_eq (bind_of_done hr) (hf a m' hr hmachine (hresult a rfl))
    | failed fault => exact of_failed (bind_of_failed hr) hmachine (hfault fault rfl)
    | exhausted => exact of_exhausted (bind_of_exhausted hr) hmachine

theorem mono (h : Ensures I F p m P) {J : Machine → Prop} (hI : ∀ m', I m' → J m')
    {P' : α → Machine → Prop} (hP : ∀ a m', I m' → P a m' → P' a m') : Ensures J F p m P' :=
  ⟨hI _ h.machine, h.fault, fun a ha => hP a _ h.machine (h.result a ha)⟩

theorem asCall {arity : Nat} (hI : ∀ m', I m' → I m'.endCall)
    (hP : ∀ a m', P a m' → P a m'.endCall) (h : Ensures I F p (m.startCall arity) P) :
    Ensures I F (Evaluation.asCall arity p) m P :=
  ⟨hI _ h.machine, h.fault, fun a ha => hP a _ (h.result a ha)⟩

theorem ofExcept {r : Except Fault α} (hm : I m) (hr : ∀ a, r = .ok a → P a m)
    (hf : ∀ fault, r = .error fault → F fault) : Ensures I F (Evaluation.ofExcept r) m P := by
  cases r with
  | ok a => exact pure hm (hr a rfl)
  | error fault => exact fail hm (hf fault rfl)

end Evaluation.Ensures

end Treewalk
