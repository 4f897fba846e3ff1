import Treewalk.Run.Evaluate

namespace Treewalk

open Evaluation

/-- Wherever the first step is not exhausted, the second one does the same. -/
def Evaluation.Outlasted {α : Type} (p q : Evaluation α) : Prop :=
  ∀ m, (p m).1 ≠ .exhausted → q m = p m

namespace Evaluation.Outlasted

variable {α β : Type} {p q : Evaluation α} {f g : α → Evaluation β}

theorem refl (p : Evaluation α) : Outlasted p p := fun _ _ => rfl

theorem bind (hp : Outlasted p q) (hf : ∀ a, Outlasted (f a) (g a)) :
    Outlasted (p >>= f) (q >>= g) := by
  intro m hm
  cases hr : p m with
  | mk outcome m' =>
    have hq : outcome ≠ .exhausted → q m = (outcome, m') := by
      intro hne
      rw [hp m (by rwa [hr]), hr]
    cases outcome with
    | done a =>
      rw [bind_of_done hr] at hm ⊢
      rw [bind_of_done (hq nofun)]
      exact hf a m' hm
    | failed fault => rw [bind_of_failed hr, bind_of_failed (hq nofun)]
    | exhausted => exact absurd (congrArg Prod.fst (bind_of_exhausted hr)) hm

theorem asCall (arity : Nat) (hp : Outlasted p q) :
    Outlasted (Evaluation.asCall arity p) (Evaluation.asCall arity q) := by
  intro m hm
  rw [asCall_apply, asCall_apply, hp (m.startCall arity) hm]

end Evaluation.Outlasted

section
variable {eval eval' : Eval} (he : ∀ scope e, Outlasted (eval scope e) (eval' scope e))
  (scope : ScopeId)
include he

theorem outlasted_statement (s : Statement) :
    Outlasted (runStatement eval scope s) (runStatement eval' scope s) := by
  cases s with
  | binding name e => exact (he scope e).bind (fun _ => .refl _)
  | «return» e => exact (he scope e).bind (fun _ => .refl _)
  | expression e => exact he scope e

theorem outlasted_block (body : Block) :
    Outlasted (runBlock eval scope body) (runBlock eval' scope body) := by
  unfold runBlock
  generalize Value.null = v
  induction body generalizing v with
  | nil => exact .refl _
  | cons s rest ih =>
    apply (outlasted_statement he scope s).bind
    intro w
    split
    · exact .refl _
    · exact ih w

theorem outlasted_evalAll (es : List Expression) :
    Outlasted (evalAll (eval scope) es) (evalAll (eval' scope) es) := by
  induction es with
  | nil => exact .refl _
  | cons e rest ih => exact (he scope e).bind (fun _ => ih.bind (fun _ => .refl _))

theorem outlasted_evalPairs (pairs : List (Expression × Expression)) (entries : Entries Value) :
    Outlasted (evalPairs (eval scope) pairs entries) (evalPairs (eval' scope) pairs entries) := by
  induction pairs generalizing entries with
  | nil => exact .refl _
  | cons pair rest ih =>
    apply (he scope pair.1).bind
    intro v
    apply (Outlasted.refl (ofExcept v.toKey)).bind
    intro key
    exact (he scope pair.2).bind (fun w => ih _)

omit scope in
theorem outlasted_callValue (callee : Value) (arguments : List Value) :
    Outlasted (callValue eval callee arguments) (callValue eval' callee arguments) := by
  cases callee with
  | function n parameters body outer =>
    simp only [callValue, enterFunction]
    split
    · apply (Outlasted.refl (callScope parameters outer arguments)).bind
      intro inner
      exact ((outlasted_block he inner body).asCall _).bind (fun _ => .refl _)
    · exact .refl _
  | _ => exact .refl _

theorem outlasted_node (e : Expression) :
    Outlasted (evalNode eval scope e) (evalNode eval' scope e) := by
  cases e with
  | unary o e => exact (he scope e).bind (fun _ => .refl _)
  | binary o a b => exact (he scope a).bind (fun _ => (he scope b).bind (fun _ => .refl _))
  | conditional c body alternative =>
    apply (he scope c).bind
    intro v
    split
    · exact outlasted_block he scope body
    · cases alternative with
      | none => exact .refl _
      | some other => exact outlasted_block he scope other
  | call f arguments =>
    apply (he scope f).bind
    intro v
    exact (outlasted_evalAll he scope arguments).bind (fun vs => outlasted_callValue he v vs)
  | array elements => exact (outlasted_evalAll he scope elements).bind (fun _ => .refl _)
  | index c i => exact (he scope c).bind (fun _ => (he scope i).bind (fun _ => .refl _))
  | hash pairs => exact (outlasted_evalPairs he scope pairs []).bind (fun _ => .refl _)
  | _ => exact .refl _

end

theorem outlasted_evaluate {n k : Nat} (h : n ≤ k) (scope : ScopeId) (e : Expression) :
    Outlasted (evaluate n scope e) (evaluate k scope e) := by
  induction n generalizing k scope e with
  | zero => exact fun m hm => absurd rfl hm
  | succ n ih =>
    obtain ⟨k, rfl⟩ := Nat.exists_eq_succ_of_ne_zero (Nat.ne_of_gt (Nat.lt_of_lt_of_le n.succ_pos h))
    exact outlasted_node (ih (Nat.le_of_succ_le_succ h)) scope e

/-- A call that is not exhausted does the same within a larger budget. -/
theorem Value.call_of_le {n k : Nat} (h : n ≤ k) {callee : Value} {arguments : List Value}
    {m : Machine} (hcall : (callee.call n arguments m).1 ≠ .exhausted) :
    callee.call k arguments m = callee.call n arguments m :=
  outlasted_callValue (outlasted_evaluate h) callee arguments m hcall

end Treewalk
