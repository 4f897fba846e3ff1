import Treewalk.Proofs.Run.Upkeep
import Treewalk.Proofs.Values.Identity

namespace Treewalk

open Evaluation

/-- All stamps in the value have been given away, and the scopes that it refers to exist. -/
def Value.Within (m : Memory) (v : Value) : Prop :=
  v.Fits (fun s => m.scopes.size ≤ s) (fun w => ∀ n, w.stamp? = some n → n < m.nextStamp)

/-- Neither scopes nor stamps are taken back. -/
structure Memory.Later (m m' : Memory) : Prop where
  size_le : m.scopes.size ≤ m'.scopes.size
  stamp_le : m.nextStamp ≤ m'.nextStamp

/-- The memory holds nothing that was not made in it. Stamps are below the next one, and functions
and scopes refer to scopes that exist. -/
structure Memory.Tidy (m : Memory) : Prop where
  around : ∀ s, ∀ t ∈ m.enclosing s, t < m.scopes.size
  bound : ∀ s, ∀ b ∈ m.bindings s, b.2.Within m

variable {m m' m'' : Memory}

theorem Memory.Later.refl (m : Memory) : m.Later m := ⟨Nat.le_refl _, Nat.le_refl _⟩

theorem Memory.Later.trans (h : m.Later m') (h' : m'.Later m'') : m.Later m'' :=
  ⟨Nat.le_trans h.size_le h'.size_le, Nat.le_trans h.stamp_le h'.stamp_le⟩

namespace Value

variable {v : Value}

theorem Within.later (h : v.Within m) (hlater : m.Later m') : v.Within m' := by
  constructor
  · intro w hw n hn
    exact Nat.lt_of_lt_of_le (h.1 w hw n hn) hlater.stamp_le
  · intro s hs hle
    exact h.2 s hs (Nat.le_trans hlater.size_le hle)

theorem within_of_isSimple (h : v.isSimple = true) : v.Within m := by
  apply fits_of_isSimple h
  intro n hn
  cases v <;> contradiction

theorem within_function {n : Nat} {parameters : List String} {body : Block} {s : ScopeId} :
    (function n parameters body s).Within m ↔ n < m.nextStamp ∧ s < m.scopes.size := by
  simp [Within, fits_function, stamp?]

theorem within_returned : (returned v).Within m ↔ v.Within m := fits_returned (by simp [stamp?])

theorem within_array {n : Nat} {vs : List Value} :
    (array n vs).Within m ↔ n < m.nextStamp ∧ ∀ v ∈ vs, v.Within m := by
  constructor
  · intro h
    have hn : n < m.nextStamp := h.here n rfl
    exact ⟨hn, (fits_array (by simpa [stamp?] using hn)).mp h⟩
  · rintro ⟨hn, h⟩
    exact (fits_array (by simpa [stamp?] using hn)).mpr h

theorem within_hash {n : Nat} {entries : List (Key × Value)} :
    (hash n entries).Within m ↔ n < m.nextStamp ∧ ∀ e ∈ entries, e.2.Within m := by
  constructor
  · intro h
    have hn : n < m.nextStamp := h.here n rfl
    exact ⟨hn, (fits_hash (by simpa [stamp?] using hn)).mp h⟩
  · rintro ⟨hn, h⟩
    exact (fits_hash (by simpa [stamp?] using hn)).mpr h

end Value

namespace Memory

variable {s : ScopeId} {name : String} {v : Value}

theorem later_define : m.Later (m.define s name v) :=
  ⟨Nat.le_of_eq (m.size_define s name v).symm, Nat.le_refl _⟩

theorem later_innerScope : m.Later (m.innerScope s).2 :=
  ⟨Nat.le_of_lt lt_size_innerScope, Nat.le_refl _⟩

theorem later_stamp : m.Later m.stamp.2 := ⟨Nat.le_refl _, Nat.le_succ _⟩

namespace Tidy

variable (h : m.Tidy)
include h

theorem get? (hv : m.get? s name = some v) : v.Within m := by
  obtain ⟨t, _, hget⟩ := List.exists_of_findSome?_eq_some hv
  exact h.bound t _ (Bindings.mem_of_get? hget)

/-- What a scope binds is turned into the same by what does the same to all values of the memory. -/
theorem map_get?_congr {α : Type} {f g : Value → α} (hfg : ∀ v : Value, v.Within m → f v = g v)
    (s : ScopeId) (name : String) :
    ((m.bindings s).get? name).map f = ((m.bindings s).get? name).map g :=
  Option.map_congr (fun v hv => hfg v (h.bound s _ (Bindings.mem_of_get? hv)))

theorem map_enclosing_congr {α : Type} {f g : ScopeId → α} (hfg : ∀ t < m.scopes.size, f t = g t)
    (s : ScopeId) : (m.enclosing s).map f = (m.enclosing s).map g :=
  List.map_congr_left (fun t ht => hfg t (h.around s t ht))

theorem define (hv : v.Within m) : (m.define s name v).Tidy := by
  constructor
  · intro t u hu
    rw [m.enclosing_define] at hu
    rw [m.size_define]
    exact h.around t u hu
  · intro t b hb
    suffices hb' : b.2.Within m from hb'.later later_define
    rcases mem_bindings_define hb with rfl | hb
    · exact hv
    · exact h.bound t b hb

theorem innerScope (hs : s < m.scopes.size) : (m.innerScope s).2.Tidy := by
  constructor
  · intro t u hu
    rw [size_innerScope]
    apply Nat.lt_succ_of_lt
    rcases mem_enclosing_innerScope hu with rfl | hu | hu
    · exact hs
    · exact h.around s u hu
    · exact h.around t u hu
  · intro t b hb
    rw [bindings_innerScope] at hb
    exact (h.bound t b hb).later later_innerScope

theorem stamp : m.stamp.2.Tidy :=
  ⟨h.around, fun s b hb => (h.bound s b hb).later later_stamp⟩

end Tidy

theorem tidy_new : empty.newScope.2.Tidy := by
  constructor
  · intro s t ht
    have hs := lt_of_mem_enclosing ht
    obtain rfl : s = 0 := Nat.lt_one_iff.mp hs
    contradiction
  · intro s b hb
    exact absurd hb not_mem_empty_newScope

end Memory

/-- However the step ends, the memory is tidy, and neither scopes nor stamps were taken back. -/
def Evaluation.Tidied {α : Type} (p : Evaluation α) (m : Machine) (P : Memory → α → Prop) : Prop :=
  Ensures (fun m' => m'.memory.Tidy ∧ m.memory.Later m'.memory) (fun _ => True) p m
    (fun a m' => P m'.memory a)

def tidiness : Upkeep where
  memory := Memory.Tidy
  next m m' := m'.Tidy ∧ m.Later m'
  value := Value.Within
  scope m s := s < m.scopes.size
  refl h := ⟨h, .refl _⟩
  trans h h' := ⟨h'.1, h.2.trans h'.2⟩
  memory_of_next h := h.1
  value_of_next h hv := hv.later h.2
  scope_of_next h hs := Nat.lt_of_lt_of_le hs h.2.size_le

theorem closed_tidiness : tidiness.Closed where
  atom h := Value.within_of_isSimple (Value.isSimple_of_isAtom h)
  part hv hw := hv.part hw
  array h := Value.within_array.mpr
    ⟨Nat.lt_succ_self _, fun v hv => (h v hv).later Memory.later_stamp⟩
  hash h := Value.within_hash.mpr
    ⟨Nat.lt_succ_self _, fun e he => (h e he).later Memory.later_stamp⟩
  stamp hm := ⟨hm.stamp, Memory.later_stamp⟩
  define hm hv := ⟨hm.define hv, Memory.later_define⟩
  innerScope hm hs := ⟨hm.innerScope hs, Memory.later_innerScope⟩
  inner _ _ := Memory.lt_size_innerScope
  get? hm _ hv := hm.get? hv
  function hs := Value.within_function.mpr ⟨Nat.lt_succ_self _, hs⟩
  outer hv := (Value.within_function.mp hv).2
  returned hv := Value.within_returned.mpr hv

/-- Where the scope exists and the memory is tidy, expressions have values of the memory. -/
def TidyEval (eval : Eval) : Prop :=
  ∀ scope e m, scope < m.memory.scopes.size → m.memory.Tidy → Tidied (eval scope e) m Value.Within

theorem tidyEval_evaluate (n : Nat) : TidyEval (evaluate n) := upheldBy_evaluate closed_tidiness n

/-- What a program comes to was made in the memory that it leaves, and this is tidy. -/
theorem tidied_run (p : Program) (budget : Nat) {scope : ScopeId} {m : Machine}
    (hs : scope < m.memory.scopes.size) (hm : m.memory.Tidy) :
    Tidied (p.run budget scope) m Value.Within :=
  upholds_unwrapped closed_tidiness (tidyEval_evaluate budget) hs hm

theorem tidied_call {callee : Value} {arguments : List Value} (budget : Nat) {m : Machine}
    (hm : m.memory.Tidy) (hc : callee.Within m.memory) (ha : ∀ v ∈ arguments, v.Within m.memory) :
    Tidied (callee.call budget arguments) m Value.Within :=
  upholds_callValue closed_tidiness (tidyEval_evaluate budget) hm hc ha

end Treewalk
