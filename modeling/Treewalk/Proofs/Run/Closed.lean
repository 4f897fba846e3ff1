import Treewalk.Proofs.Run.Fitting
import Treewalk.Proofs.Run.Request

namespace Treewalk

open Evaluation

/-- A predicate that evaluation cannot break. -/
structure Closed (Q : Value → Prop) : Prop extends Lenient Q where
  function : ∀ n parameters body scope, Q (.function n parameters body scope)
  returned : ∀ v, Q (.returned v)

variable {forgotten : ScopeId → Prop} {Q : Value → Prop}

theorem Value.Fits.unwrapped (hQ : ∀ w, Q (.returned w)) {v : Value} (h : v.Fits forgotten Q) :
    v.unwrapped.Fits forgotten Q := by
  cases v with
  | returned w => exact (fits_returned (hQ w)).mp h
  | _ => exact h

/-- Expressions are evaluated to values that fit, and what is in sight fits afterwards. -/
def FitEval (forgotten : ScopeId → Prop) (Q : Value → Prop) (eval : Eval) : Prop :=
  ∀ scope e m, ¬ forgotten scope → m.memory.Fits forgotten Q →
    Fit forgotten Q (eval scope e) m (Value.Fits forgotten Q)

theorem Closed.fitting (hQ : Closed Q) : (fitting forgotten Q).Closed where
  toLenient := hQ.toLenient.fitting
  function hs := Value.fits_function.mpr ⟨hQ.function _ _ _ _, hs⟩
  outer hv := (Value.fits_function.mp hv).2
  returned hv := (Value.fits_returned (hQ.returned _)).mpr hv

theorem fitEval_evaluate (hQ : Closed Q) (n : Nat) : FitEval forgotten Q (evaluate n) :=
  upheldBy_evaluate hQ.fitting n

theorem fit_run (hQ : Closed Q) (p : Program) (budget : Nat) (scope : ScopeId)
    (hs : ¬ forgotten scope) {m : Machine} (hm : m.memory.Fits forgotten Q) :
    Fit forgotten Q (p.run budget scope) m (Value.Fits forgotten Q) :=
  upholds_unwrapped hQ.fitting (fitEval_evaluate hQ budget) hs hm

namespace Request

variable {r : Request} {m : Machine}

/-- The predicate holds of all that the request brings along and of all that it can reach. -/
structure Shows (r : Request) (m : Machine) (Q : Value → Prop) : Prop where
  given : ∀ v ∈ r.given, v.Throughout Q
  bound : m.memory.Shows r.roots Q

/-- The scopes that are at hand after the request was run: those that it refers to, and those that
its result refers to. -/
def rootsAfter (r : Request) (budget : Nat) (m : Machine) (s : ScopeId) : Prop :=
  r.roots s ∨ ∃ v, (r.run budget m).1 = .done v ∧ v.Refers s

theorem fit (hQ : Closed Q) (budget : Nat) (h : r.Shows m Q) :
    Fit (m.memory.Forgotten r.roots) Q (r.run budget) m
      (Value.Fits (m.memory.Forgotten r.roots) Q) := by
  cases r with
  | program p scope =>
    have hscope : m.memory.Reachable (program p scope).roots scope := .root rfl
    exact fit_run hQ p budget scope hscope.not_forgotten h.bound.fits
  | call callee arguments =>
    have hgiven : ∀ v ∈ callee :: arguments,
        v.Fits (m.memory.Forgotten (call callee arguments).roots) Q :=
      fun v hv => ⟨h.given v hv, fun s hs => (Memory.Reachable.root ⟨v, hv, hs⟩).not_forgotten⟩
    obtain ⟨hcallee, harguments⟩ := List.forall_mem_cons.mp hgiven
    exact upholds_callValue hQ.fitting (fitEval_evaluate hQ budget) h.bound.fits hcallee harguments

/-- What cannot be broken holds afterwards of all that can be reached, and of the result. -/
theorem shows_run (hQ : Closed Q) (budget : Nat) (h : r.Shows m Q) :
    (r.run budget m).2.memory.Shows (r.rootsAfter budget m) Q ∧
      ∀ v, (r.run budget m).1 = .done v → v.Throughout Q := by
  have hfit := r.fit hQ budget h
  refine ⟨hfit.machine.shows (fun s hs => ?_), fun v hv => (hfit.result v hv).1⟩
  rcases hs with hs | ⟨v, hv, hs⟩
  · exact (Memory.Reachable.root hs).not_forgotten
  · exact (hfit.result v hv).2 s hs

end Request

end Treewalk
