import Treewalk.Proofs.Renaming.Basic

namespace Treewalk

namespace Renaming

variable (φ : Renaming)

/-- If the value is a function, it looks up only known names. -/
def Says : Value → Prop
  | .function _ _ body _ => KnownStatements φ.known body
  | _ => True

/-- The functions in the value look up only known names, and none was made in a forgotten scope. -/
def Fits (v : Value) : Prop := v.Fits φ.forgotten φ.Says

/-- The second value is the first one renamed. -/
structure Match (v v' : Value) : Prop where
  eq : v' = v.rename φ
  fits : φ.Fits v

/-- The second memory holds the first one renamed, but for forgotten scopes and unknown names. There
may be more of everything, but the scopes that are found again bind no name that nothing is turned
into. What is made next has the next number in both. -/
structure Image (m m' : Memory) : Prop where
  fits : m.Fits φ.forgotten φ.Says
  size : ∀ i, φ.scope (m.scopes.size + i) = m'.scopes.size + i
  stamp : ∀ i, φ.stamp (m.nextStamp + i) = m'.nextStamp + i
  enclosing : ∀ s, ¬ φ.forgotten s → m'.enclosing (φ.scope s) = (m.enclosing s).map φ.scope
  bindings : ∀ s, ¬ φ.forgotten s → ∀ name, φ.known name →
    (m'.bindings (φ.scope s)).get? (φ.name name) =
      ((m.bindings s).get? name).map (·.rename φ)
  named : ∀ s, ¬ φ.forgotten s → ∀ name, (∀ other, φ.name other ≠ name) →
    (m'.bindings (φ.scope s)).get? name = none

variable {φ}

theorem lenient : Lenient φ.Says := by
  refine ⟨fun v hv => ?_, fun _ _ => trivial, fun _ _ => trivial⟩
  cases v with
  | function _ _ _ _ => contradiction
  | _ => trivial

namespace Match

theorem of_isAtom {v : Value} (h : v.isAtom = true) : φ.Match v v :=
  ⟨(Value.rename_of_isSimple (Value.isSimple_of_isAtom h)).symm, lenient.fits h⟩

theorem function {body : Block} {s : ScopeId} (n : Nat) (parameters : List String)
    (hbody : KnownStatements φ.known body) (hs : ¬ φ.forgotten s) :
    φ.Match (.function n parameters body s)
      (.function (φ.stamp n) (parameters.map φ.name) (renameStatements φ body) (φ.scope s)) :=
  ⟨rfl, Value.fits_function.mpr ⟨hbody, hs⟩⟩

variable {v v' w w' : Value}

theorem returned (h : φ.Match v v') : φ.Match (.returned v) (.returned v') := by
  obtain ⟨rfl, hfits⟩ := h
  exact ⟨rfl, (Value.fits_returned trivial).mpr hfits⟩

theorem unwrapped (h : φ.Match v v') : φ.Match v.unwrapped v'.unwrapped := by
  obtain ⟨rfl, hfits⟩ := h
  refine ⟨Value.unwrapped_rename v, ?_⟩
  cases v with
  | returned w => exact (Value.fits_returned trivial).mp hfits
  | _ => exact hfits

theorem array {vs : List Value} (n : Nat) (h : ∀ v ∈ vs, φ.Fits v) :
    φ.Match (.array n vs) (.array (φ.stamp n) (vs.map (·.rename φ))) :=
  ⟨by rw [Value.rename, renameElements_eq], (Value.fits_array trivial).mpr h⟩

theorem hash {entries : Entries Value} (n : Nat) (h : ∀ e ∈ entries, φ.Fits e.2) :
    φ.Match (.hash n entries)
      (.hash (φ.stamp n) (entries.map (fun e => (e.1, e.2.rename φ)))) :=
  ⟨by rw [Value.rename, renameEntries_eq], (Value.fits_hash trivial).mpr h⟩

end Match

theorem fits_of_array {n : Nat} {vs : List Value} (h : φ.Fits (.array n vs)) :
    ∀ v ∈ vs, φ.Fits v := (Value.fits_array trivial).mp h

/-- No other name becomes that of a built-in function. -/
theorem ofName?_name (name : String) : Builtin.ofName? (φ.name name) = Builtin.ofName? name := by
  have hsame : ∀ b : Builtin, (b.name == φ.name name) = (b.name == name) := by
    intro b
    rw [Bool.eq_iff_iff, beq_iff_eq, beq_iff_eq, ← φ.name_injective.eq_iff (b := name),
      φ.name_builtin]
  simp only [Builtin.ofName?, hsame]

namespace Image

variable {m m' : Memory} {s : ScopeId} {name : String} {v v' : Value}

/-- Scopes that exist are turned into scopes that exist. -/
theorem lt_iff (h : φ.Image m m') : φ.scope s < m'.scopes.size ↔ s < m.scopes.size := by
  constructor
  · intro hlt
    refine Nat.lt_of_not_le (fun hle => ?_)
    obtain ⟨i, rfl⟩ := Nat.exists_eq_add_of_le hle
    rw [h.size] at hlt
    exact Nat.not_lt_of_le (Nat.le_add_right _ i) hlt
  · intro hlt
    refine Nat.lt_of_not_le (fun hle => ?_)
    obtain ⟨i, hi⟩ := Nat.exists_eq_add_of_le hle
    obtain rfl := φ.scope_injective (hi.trans (h.size i).symm)
    exact Nat.not_lt_of_le (Nat.le_add_right _ i) hlt

/-- What is found in a chain of scopes. -/
theorem findSome? (h : φ.Image m m') (hname : φ.known name) {chain : List ScopeId}
    (hchain : ∀ t ∈ chain, ¬ φ.forgotten t) :
    (chain.map φ.scope).findSome? (fun t => (m'.bindings t).get? (φ.name name)) =
      (chain.findSome? (fun t => (m.bindings t).get? name)).map (·.rename φ) := by
  induction chain with
  | nil => rfl
  | cons t chain ih =>
    obtain ⟨ht, hchain⟩ := List.forall_mem_cons.mp hchain
    rw [List.map_cons, List.findSome?_cons, List.findSome?_cons, h.bindings t ht name hname]
    cases (m.bindings t).get? name with
    | none => exact ih hchain
    | some v => rfl

theorem get? (h : φ.Image m m') (hs : ¬ φ.forgotten s) (hname : φ.known name) :
    m'.get? (φ.scope s) (φ.name name) = (m.get? s name).map (·.rename φ) := by
  have hchain : ∀ t ∈ s :: m.enclosing s, ¬ φ.forgotten t :=
    List.forall_mem_cons.mpr ⟨hs, h.fits.around s hs⟩
  rw [Memory.get?, h.enclosing s hs, ← List.map_cons, h.findSome? hname hchain]
  rfl

theorem define (h : φ.Image m m') (hv : φ.Match v v') :
    φ.Image (m.define s name v) (m'.define (φ.scope s) (φ.name name) v') := by
  obtain ⟨rfl, hfits⟩ := hv
  refine ⟨h.fits.define hfits, fun i => ?_, h.stamp, fun t ht => ?_, fun t ht other hother => ?_,
    fun t ht other hother => ?_⟩
  · rw [Memory.size_define, Memory.size_define, h.size]
  · rw [Memory.enclosing_define, Memory.enclosing_define, h.enclosing t ht]
  · simp only [Memory.bindings_define, φ.scope_injective.eq_iff, h.lt_iff]
    split
    · simp only [Bindings.get?_set, φ.name_injective.eq_iff, h.bindings t ht other hother]
      split <;> rfl
    · exact h.bindings t ht other hother
  · rw [Memory.bindings_define]
    split
    · rw [Bindings.get?_set, if_neg (hother name), h.named t ht other hother]
    · exact h.named t ht other hother

theorem defineAll (h : φ.Image m m') (parameters : List String) {vs : List Value}
    (hvs : ∀ v ∈ vs, φ.Fits v) :
    φ.Image (m.defineAll s (parameters.zip vs))
      (m'.defineAll (φ.scope s) ((parameters.map φ.name).zip (vs.map (·.rename φ)))) := by
  induction parameters generalizing m m' vs with
  | nil => exact h
  | cons p parameters ih =>
    cases vs with
    | nil => exact h
    | cons v vs =>
      obtain ⟨hv, hvs⟩ := List.forall_mem_cons.mp hvs
      exact ih (h.define ⟨rfl, hv⟩) hvs

theorem scope_size (h : φ.Image m m') : φ.scope m.scopes.size = m'.scopes.size := h.size 0

/-- A new scope, with the scopes given around it. -/
theorem addScope (h : φ.Image m m') {around : List ScopeId}
    (hfits : (m.addScope around).2.Fits φ.forgotten φ.Says) :
    φ.Image (m.addScope around).2 (m'.addScope (around.map φ.scope)).2 := by
  refine ⟨hfits, fun i => ?_, h.stamp, fun s hs => ?_, fun s hs name hname => ?_,
    fun s hs name hname => ?_⟩
  · rw [Memory.size_addScope, Memory.size_addScope, Nat.add_assoc, h.size, Nat.add_assoc]
  · by_cases hnew : s = m.scopes.size
    · rw [hnew, h.scope_size, Memory.enclosing_addScope_self, Memory.enclosing_addScope_self]
    · have hnew' : φ.scope s ≠ m'.scopes.size := fun heq =>
        hnew (φ.scope_injective (heq.trans h.scope_size.symm))
      rw [Memory.enclosing_addScope_of_ne hnew, Memory.enclosing_addScope_of_ne hnew',
        h.enclosing s hs]
  · rw [Memory.bindings_addScope, Memory.bindings_addScope, h.bindings s hs name hname]
  · rw [Memory.bindings_addScope, h.named s hs name hname]

theorem innerScope (h : φ.Image m m') (hs : ¬ φ.forgotten s) :
    φ.Image (m.innerScope s).2 (m'.innerScope (φ.scope s)).2 := by
  have haround : φ.scope s :: m'.enclosing (φ.scope s) = (s :: m.enclosing s).map φ.scope := by
    rw [h.enclosing s hs, List.map_cons]
  rw [Memory.innerScope, Memory.innerScope, haround]
  exact h.addScope (h.fits.innerScope hs)

theorem stamp_next (h : φ.Image m m') : φ.stamp m.nextStamp = m'.nextStamp := h.stamp 0

theorem stamped (h : φ.Image m m') : φ.Image m.stamp.2 m'.stamp.2 := by
  refine ⟨h.fits.stamp, h.size, fun i => ?_, h.enclosing, h.bindings, h.named⟩
  have hnext := h.stamp (1 + i)
  rwa [← Nat.add_assoc, ← Nat.add_assoc] at hnext

end Image

end Renaming

end Treewalk
