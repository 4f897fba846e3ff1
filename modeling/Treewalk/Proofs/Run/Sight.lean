import Treewalk.Run.Evaluate

namespace Treewalk

/-- The value is the other one, or holds it. -/
inductive Value.Contains : Value → Value → Prop where
  | itself {v : Value} : Contains v v
  | returned {v w : Value} (h : Contains v w) : Contains (.returned v) w
  | element {n : Nat} {vs : List Value} {v w : Value} (hv : v ∈ vs) (h : Contains v w) :
    Contains (.array n vs) w
  | entry {n : Nat} {entries : List (Key × Value)} {k : Key} {v w : Value} (hv : (k, v) ∈ entries)
      (h : Contains v w) : Contains (.hash n entries) w

/-- The value neither is nor holds the marker of a `return`. -/
def Value.MarkerFree (v : Value) : Prop := ∀ w, ¬ v.Contains (.returned w)

/-- The value is or holds a function that was made in the scope. -/
def Value.Refers (v : Value) (s : ScopeId) : Prop :=
  ∃ n parameters body, v.Contains (.function n parameters body s)

/-- The scopes to which the given ones lead, by way of the scopes around them and of the functions
that they bind. -/
inductive Memory.Reachable (m : Memory) (roots : ScopeId → Prop) : ScopeId → Prop where
  | root {s : ScopeId} (h : roots s) : Reachable m roots s
  | enclosing {s t : ScopeId} (hs : Reachable m roots s) (ht : t ∈ m.enclosing s) :
    Reachable m roots t
  | closure {s t : ScopeId} {b : String × Value} (hs : Reachable m roots s) (hb : b ∈ m.bindings s)
      (ht : b.2.Refers t) : Reachable m roots t

variable {forgotten : ScopeId → Prop} {Q : Value → Prop}

theorem Value.Contains.trans {u v w : Value} (h : u.Contains v) (h' : v.Contains w) :
    u.Contains w := by
  induction h with
  | itself => exact h'
  | returned _ ih => exact .returned (ih h')
  | element hv _ ih => exact .element hv (ih h')
  | entry hv _ ih => exact .entry hv (ih h')

/-- The predicate holds of the value and of all that it holds. -/
def Value.Throughout (Q : Value → Prop) (v : Value) : Prop := ∀ w, v.Contains w → Q w

/-- The predicate holds throughout the value, which leads to no forgotten scope. -/
def Value.Fits (forgotten : ScopeId → Prop) (Q : Value → Prop) (v : Value) : Prop :=
  v.Throughout Q ∧ ∀ s, v.Refers s → ¬ forgotten s

namespace Value

variable {v : Value}

theorem Throughout.part (h : v.Throughout Q) {w : Value} (hw : v.Contains w) : w.Throughout Q :=
  fun u hu => h u (hw.trans hu)

theorem Fits.here (h : v.Fits forgotten Q) : Q v := h.1 v .itself

theorem Fits.part (h : v.Fits forgotten Q) {w : Value} (hw : v.Contains w) :
    w.Fits forgotten Q := by
  refine ⟨h.1.part hw, fun s hs => ?_⟩
  obtain ⟨n, parameters, body, hs⟩ := hs
  exact h.2 s ⟨n, parameters, body, hw.trans hs⟩

/-- All values but markers, functions and collections. -/
def isSimple : Value → Bool
  | returned _ | function .. | array .. | hash .. => false
  | _ => true

/-- All simple values but errors. -/
def isAtom : Value → Bool
  | error _ => false
  | v => v.isSimple

theorem isSimple_of_isAtom (h : v.isAtom = true) : v.isSimple = true := by
  cases v with
  | error _ => rfl
  | _ => exact h

theorem eq_of_contains (hv : v.isSimple = true) {w : Value} (h : v.Contains w) : w = v := by
  cases h with
  | itself => rfl
  | returned _ | element _ _ | entry _ _ => simp [isSimple] at hv

theorem fits_of_isSimple (hv : v.isSimple = true) (hq : Q v) : v.Fits forgotten Q := by
  refine ⟨fun w hw => by rwa [eq_of_contains hv hw], fun s hs => ?_⟩
  obtain ⟨n, parameters, body, hw⟩ := hs
  rw [← eq_of_contains hv hw] at hv
  contradiction

theorem fits_function {n : Nat} {parameters : List String} {body : Block} {s : ScopeId} :
    (function n parameters body s).Fits forgotten Q ↔
      Q (function n parameters body s) ∧ ¬ forgotten s := by
  constructor
  · intro h
    exact ⟨h.here, h.2 s ⟨_, _, _, .itself⟩⟩
  · rintro ⟨hq, hs⟩
    refine ⟨fun w hw => (by cases hw; exact hq), fun t ht => ?_⟩
    obtain ⟨_, _, _, ht⟩ := ht
    cases ht
    exact hs

theorem fits_returned (hq : Q (returned v)) :
    (returned v).Fits forgotten Q ↔ v.Fits forgotten Q := by
  constructor
  · intro h
    refine ⟨fun w hw => h.1 w (.returned hw), fun s hs => ?_⟩
    obtain ⟨_, _, _, hs⟩ := hs
    exact h.2 s ⟨_, _, _, .returned hs⟩
  · intro h
    refine ⟨fun w hw => ?_, fun s hs => ?_⟩
    · cases hw with
      | itself => exact hq
      | returned hw => exact h.1 w hw
    · obtain ⟨n, parameters, body, hs⟩ := hs
      cases hs with
      | returned hs => exact h.2 s ⟨_, _, _, hs⟩

theorem fits_array {n : Nat} {vs : List Value} (hq : Q (array n vs)) :
    (array n vs).Fits forgotten Q ↔ ∀ v ∈ vs, v.Fits forgotten Q := by
  constructor
  · intro h v hv
    refine ⟨fun w hw => h.1 w (.element hv hw), fun s hs => ?_⟩
    obtain ⟨_, _, _, hs⟩ := hs
    exact h.2 s ⟨_, _, _, .element hv hs⟩
  · intro h
    refine ⟨fun w hw => ?_, fun s hs => ?_⟩
    · cases hw with
      | itself => exact hq
      | element hv hw => exact (h _ hv).1 w hw
    · obtain ⟨n, parameters, body, hs⟩ := hs
      cases hs with
      | element hv hs => exact (h _ hv).2 s ⟨_, _, _, hs⟩

theorem fits_hash {n : Nat} {entries : List (Key × Value)} (hq : Q (hash n entries)) :
    (hash n entries).Fits forgotten Q ↔ ∀ entry ∈ entries, entry.2.Fits forgotten Q := by
  constructor
  · intro h entry hv
    refine ⟨fun w hw => h.1 w (.entry hv hw), fun s hs => ?_⟩
    obtain ⟨_, _, _, hs⟩ := hs
    exact h.2 s ⟨_, _, _, .entry hv hs⟩
  · intro h
    refine ⟨fun w hw => ?_, fun s hs => ?_⟩
    · cases hw with
      | itself => exact hq
      | entry hv hw => exact (h _ hv).1 w hw
    · obtain ⟨n, parameters, body, hs⟩ := hs
      cases hs with
      | entry hv hs => exact (h _ hv).2 s ⟨_, _, _, hs⟩

end Value

/-- The predicate holds of the values that evaluation itself makes out of others: of atoms, and of
collections whatever they hold. -/
structure Lenient (Q : Value → Prop) : Prop where
  atom : ∀ v : Value, v.isAtom = true → Q v
  array : ∀ n vs, Q (.array n vs)
  hash : ∀ n entries, Q (.hash n entries)

theorem Lenient.fits (hQ : Lenient Q) {v : Value} (hv : v.isAtom = true) : v.Fits forgotten Q :=
  Value.fits_of_isSimple (Value.isSimple_of_isAtom hv) (hQ.atom v hv)

/-- What is bound in sight fits, and no forgotten scope is around a scope in sight. -/
structure Memory.Fits (forgotten : ScopeId → Prop) (Q : Value → Prop) (m : Memory) : Prop where
  old : ∀ s, forgotten s → s < m.scopes.size
  around : ∀ s, ¬ forgotten s → ∀ t ∈ m.enclosing s, ¬ forgotten t
  bound : ∀ s, ¬ forgotten s → ∀ b ∈ m.bindings s, b.2.Fits forgotten Q

theorem Bindings.mem_set {name : String} {v : Value} {bs : Bindings} {b : String × Value}
    (h : b ∈ set name v bs) : b = (name, v) ∨ b ∈ bs := by
  induction bs with
  | nil => exact .inl (List.mem_singleton.mp h)
  | cons c bs ih =>
    obtain ⟨n, w⟩ := c
    unfold set at h
    split at h
    · rcases List.mem_cons.mp h with rfl | h
      · exact .inl rfl
      · exact .inr (List.mem_cons_of_mem _ h)
    · rcases List.mem_cons.mp h with rfl | h
      · exact .inr List.mem_cons_self
      · rcases ih h with hb | hb
        · exact .inl hb
        · exact .inr (List.mem_cons_of_mem _ hb)

theorem Bindings.mem_of_get? {name : String} {v : Value} {bs : Bindings}
    (h : get? name bs = some v) : (name, v) ∈ bs := by
  induction bs with
  | nil => contradiction
  | cons c bs ih =>
    obtain ⟨n, w⟩ := c
    unfold get? at h
    split at h
    · next hn =>
      obtain rfl := Option.some.inj h
      rw [hn]
      exact List.mem_cons_self
    · exact List.mem_cons_of_mem _ (ih h)

theorem Memory.mem_bindings_define {m : Memory} {s t : ScopeId} {name : String} {v : Value}
    {b : String × Value} (h : b ∈ (m.define s name v).bindings t) :
    b = (name, v) ∨ b ∈ m.bindings t := by
  rw [bindings_define] at h
  split at h
  · exact Bindings.mem_set h
  · exact .inr h

theorem Memory.lt_of_mem_bindings {m : Memory} {s : ScopeId} {b : String × Value}
    (h : b ∈ m.bindings s) : s < m.scopes.size := by
  refine Nat.lt_of_not_le (fun hle => ?_)
  have hnone : m.scopes[s]? = none := Array.getElem?_eq_none hle
  simp [bindings, hnone] at h

theorem Memory.lt_of_mem_enclosing {m : Memory} {s t : ScopeId} (h : t ∈ m.enclosing s) :
    s < m.scopes.size := by
  refine Nat.lt_of_not_le (fun hle => ?_)
  have hnone : m.scopes[s]? = none := Array.getElem?_eq_none hle
  simp [enclosing, hnone] at h

theorem Entries.mem_insert {α : Type} {key : Key} {a : α} {entries : Entries α} {e : Key × α}
    (h : e ∈ insert key a entries) : e = (key, a) ∨ e ∈ entries := by
  induction entries with
  | nil => exact .inl (List.mem_singleton.mp h)
  | cons c entries ih =>
    obtain ⟨k, b⟩ := c
    unfold insert at h
    split at h
    · rcases List.mem_cons.mp h with rfl | h
      · exact .inl rfl
      · exact .inr (List.mem_cons_of_mem _ h)
    · rcases List.mem_cons.mp h with rfl | h
      · exact .inr List.mem_cons_self
      · rcases ih h with he | he
        · exact .inl he
        · exact .inr (List.mem_cons_of_mem _ he)

namespace Memory.Fits

variable {m : Memory} {s : ScopeId}

theorem fresh (h : m.Fits forgotten Q) : ¬ forgotten m.scopes.size :=
  fun hf => Nat.lt_irrefl _ (h.old _ hf)

theorem get? (h : m.Fits forgotten Q) (hs : ¬ forgotten s) {name : String} {v : Value}
    (hv : m.get? s name = some v) : v.Fits forgotten Q := by
  obtain ⟨t, ht, hget⟩ := List.exists_of_findSome?_eq_some hv
  have hmem := Bindings.mem_of_get? hget
  rcases List.mem_cons.mp ht with rfl | ht
  · exact h.bound _ hs _ hmem
  · exact h.bound _ (h.around s hs t ht) _ hmem

theorem define (h : m.Fits forgotten Q) {name : String} {v : Value} (hv : v.Fits forgotten Q) :
    (m.define s name v).Fits forgotten Q := by
  refine ⟨fun t ht => by rw [m.size_define]; exact h.old t ht,
    fun t ht => by rw [m.enclosing_define]; exact h.around t ht, ?_⟩
  intro t ht b hb
  rcases mem_bindings_define hb with rfl | hb
  · exact hv
  · exact h.bound t ht b hb

theorem innerScope (h : m.Fits forgotten Q) {outer : ScopeId} (ho : ¬ forgotten outer) :
    (m.innerScope outer).2.Fits forgotten Q := by
  refine ⟨?_, ?_, ?_⟩
  · intro t ht
    rw [size_innerScope]
    exact Nat.lt_succ_of_lt (h.old t ht)
  · intro t ht u hu
    rcases mem_enclosing_innerScope hu with rfl | hu | hu
    · exact ho
    · exact h.around outer ho u hu
    · exact h.around t ht u hu
  · intro t ht b hb
    rw [bindings_innerScope] at hb
    exact h.bound t ht b hb

theorem stamp (h : m.Fits forgotten Q) : m.stamp.2.Fits forgotten Q := ⟨h.old, h.around, h.bound⟩

end Memory.Fits

/-- The scopes that exist and cannot be reached. -/
def Memory.Forgotten (m : Memory) (roots : ScopeId → Prop) (s : ScopeId) : Prop :=
  s < m.scopes.size ∧ ¬ m.Reachable roots s

/-- The predicate holds throughout all that is bound in the scopes that can be reached. -/
def Memory.Shows (m : Memory) (roots : ScopeId → Prop) (Q : Value → Prop) : Prop :=
  ∀ s, m.Reachable roots s → ∀ b ∈ m.bindings s, b.2.Throughout Q

namespace Memory

variable {m : Memory} {roots : ScopeId → Prop}

theorem Reachable.not_forgotten {s : ScopeId} (h : m.Reachable roots s) :
    ¬ m.Forgotten roots s :=
  fun hf => hf.2 h

theorem reachable_of_lt {s : ScopeId} (hs : ¬ m.Forgotten roots s) (hlt : s < m.scopes.size) :
    m.Reachable roots s := by
  refine Classical.byContradiction (fun hnot => ?_)
  exact hs ⟨hlt, hnot⟩

theorem Shows.fits (h : m.Shows roots Q) : m.Fits (m.Forgotten roots) Q := by
  refine ⟨fun s hs => hs.1, fun s hs t ht => ?_, fun s hs b hb => ?_⟩
  · have hreach := reachable_of_lt hs (lt_of_mem_enclosing ht)
    exact (Reachable.enclosing hreach ht).not_forgotten
  · have hreach := reachable_of_lt hs (lt_of_mem_bindings hb)
    exact ⟨h s hreach b hb, fun t ht => (Reachable.closure hreach hb ht).not_forgotten⟩

/-- What is not forgotten leads to nothing forgotten. -/
theorem Fits.not_forgotten (h : m.Fits forgotten Q) (hr : ∀ s, roots s → ¬ forgotten s)
    {s : ScopeId} (hs : m.Reachable roots s) : ¬ forgotten s := by
  induction hs with
  | root hs => exact hr _ hs
  | enclosing _ ht ih => exact h.around _ ih _ ht
  | closure _ hb ht ih => exact (h.bound _ ih _ hb).2 _ ht

theorem Fits.shows (h : m.Fits forgotten Q) (hr : ∀ s, roots s → ¬ forgotten s) :
    m.Shows roots Q :=
  fun _ hs b hb => (h.bound _ (h.not_forgotten hr hs) b hb).1

end Memory

end Treewalk
