import Treewalk.Proofs.Run.Sight

namespace Treewalk

variable {forgotten : ScopeId → Prop}

/-- The value is free of markers and leads to no forgotten scope. -/
def Value.Plain (forgotten : ScopeId → Prop) (v : Value) : Prop :=
  v.MarkerFree ∧ ∀ s, v.Refers s → ¬ forgotten s

/-- The value is no marker. -/
def Value.Unmarked (v : Value) : Prop := v.isReturned = false

theorem lenient_unmarked : Lenient Value.Unmarked := by
  refine ⟨fun v hv => ?_, fun _ _ => rfl, fun _ _ => rfl⟩
  cases v with
  | returned _ => contradiction
  | _ => rfl

namespace Value

variable {v : Value}

theorem MarkerFree.isReturned (h : v.MarkerFree) : v.isReturned = false := by
  cases v with
  | returned w => exact absurd .itself (h w)
  | _ => rfl

theorem markerFree_iff : v.MarkerFree ↔ v.Throughout Unmarked := by
  constructor
  · intro h w hw
    cases w with
    | returned u => exact absurd hw (h u)
    | _ => rfl
  · intro h w hw
    exact absurd (h _ hw) (by simp [Unmarked, Value.isReturned])

theorem plain_iff : v.Plain forgotten ↔ v.Fits forgotten Unmarked :=
  and_congr_left' markerFree_iff

theorem plain_of_isSimple (h : v.isSimple = true) : v.Plain forgotten := by
  refine plain_iff.mpr (fits_of_isSimple h ?_)
  cases v with
  | returned _ => contradiction
  | _ => rfl

theorem plain_function {n : Nat} {parameters : List String} {body : Block} {s : ScopeId} :
    (function n parameters body s).Plain forgotten ↔ ¬ forgotten s :=
  plain_iff.trans (fits_function.trans (and_iff_right rfl))

/-- The value is plain, or the marker of a plain one. -/
def Flows (forgotten : ScopeId → Prop) : Value → Prop
  | returned v => v.Plain forgotten
  | v => v.Plain forgotten

theorem Plain.flows (h : v.Plain forgotten) : v.Flows forgotten := by
  cases v with
  | returned w => exact absurd .itself (h.1 w)
  | _ => exact h

theorem Flows.plain (h : v.Flows forgotten) (hv : v.isReturned = false) : v.Plain forgotten := by
  cases v with
  | returned w => contradiction
  | _ => exact h

theorem Flows.unwrapped (h : v.Flows forgotten) : v.unwrapped.Plain forgotten := by
  cases v with
  | returned w => exact h
  | _ => exact h

end Value

/-- What is bound in sight is plain, and no forgotten scope is around a scope in sight. -/
structure Memory.Plain (forgotten : ScopeId → Prop) (m : Memory) : Prop where
  old : ∀ s, forgotten s → s < m.scopes.size
  around : ∀ s, ¬ forgotten s → ∀ t ∈ m.enclosing s, ¬ forgotten t
  bound : ∀ s, ¬ forgotten s → ∀ b ∈ m.bindings s, b.2.Plain forgotten

theorem Memory.plain_iff {m : Memory} : m.Plain forgotten ↔ m.Fits forgotten Value.Unmarked := by
  constructor
  · intro h
    exact ⟨h.old, h.around, fun s hs b hb => Value.plain_iff.mp (h.bound s hs b hb)⟩
  · intro h
    exact ⟨h.old, h.around, fun s hs b hb => Value.plain_iff.mpr (h.bound s hs b hb)⟩

theorem Memory.Plain.define {m : Memory} (h : m.Plain forgotten) {s : ScopeId} {name : String}
    {v : Value} (hv : v.Plain forgotten) : (m.define s name v).Plain forgotten :=
  plain_iff.mpr ((plain_iff.mp h).define (Value.plain_iff.mp hv))

end Treewalk
