import Mathlib.Data.Fin.Tuple.Basic
import Treewalk.Proofs.Scopes.Order

namespace Treewalk

namespace Memory

variable {m : Memory} {s t : ScopeId} {name : String}

/-- The scope right around a scope. -/
def outer (m : Memory) (s : ScopeId) : Option ScopeId := (m.enclosing s).head?

/-- Around a scope there is one that is older, with those that are around that one. -/
def Linked (m : Memory) : Prop :=
  ∀ s, m.enclosing s = [] ∨ ∃ t < s, m.enclosing s = t :: m.enclosing t

/-- A search for a name from scope to scope, and what it ends with. -/
inductive Lookup (m : Memory) (name : String) : ScopeId → Option Value → Prop where
  | here {s : ScopeId} {v : Value} (hv : (m.bindings s).get? name = some v) :
      Lookup m name s (some v)
  | outward {s t : ScopeId} {r : Option Value} (hv : (m.bindings s).get? name = none)
      (ht : m.outer s = some t) (rest : Lookup m name t r) : Lookup m name s r
  | nowhere {s : ScopeId} (hv : (m.bindings s).get? name = none) (ht : m.outer s = none) :
      Lookup m name s none

theorem get?_of_here {v : Value} (hv : (m.bindings s).get? name = some v) :
    m.get? s name = some v := by
  rw [get?, List.findSome?_cons, hv]

theorem get?_of_none (hv : (m.bindings s).get? name = none) :
    m.get? s name = (m.enclosing s).findSome? (fun t => (m.bindings t).get? name) := by
  rw [get?, List.findSome?_cons, hv]

theorem outer_eq_none_iff : m.outer s = none ↔ m.enclosing s = [] := List.head?_eq_none_iff

theorem Linked.enclosing_of_outer (h : m.Linked) (ht : m.outer s = some t) :
    t < s ∧ m.enclosing s = t :: m.enclosing t := by
  rcases h s with hnil | ⟨u, hlt, hcons⟩
  · rw [outer, hnil] at ht
    contradiction
  · rw [outer, hcons] at ht
    obtain rfl := Option.some.inj ht
    exact ⟨hlt, hcons⟩

/-- Every search ends, with what is found in the innermost of the scopes. -/
theorem Linked.lookup_iff (h : m.Linked) {r : Option Value} :
    m.Lookup name s r ↔ r = m.get? s name := by
  constructor
  · intro hlookup
    induction hlookup with
    | here hv => exact (get?_of_here hv).symm
    | outward hv ht _ ih =>
      rw [ih, get?_of_none hv, (h.enclosing_of_outer ht).2]
      rfl
    | nowhere hv ht =>
      rw [get?_of_none hv, outer_eq_none_iff.mp ht]
      rfl
  · rintro rfl
    -- A scope farther out is older, which bounds the search.
    induction s using Nat.strongRecOn with
    | ind s ih =>
      cases hv : (m.bindings s).get? name with
      | some v =>
        rw [get?_of_here hv]
        exact .here hv
      | none =>
        rw [get?_of_none hv]
        cases ht : m.outer s with
        | none =>
          rw [outer_eq_none_iff.mp ht]
          exact .nowhere hv ht
        | some t =>
          obtain ⟨hlt, hcons⟩ := h.enclosing_of_outer ht
          rw [hcons]
          exact .outward hv ht (ih t hlt)

theorem linked_empty : Linked .empty := fun s => .inl (enclosing_of_le (Nat.zero_le s))

theorem Linked.addScope (h : m.Linked) {around : List ScopeId}
    (haround : around = [] ∨ ∃ t < m.scopes.size, around = t :: m.enclosing t) :
    (m.addScope around).2.Linked := by
  intro s
  rcases Nat.lt_trichotomy s m.scopes.size with hlt | rfl | hgt
  · rw [enclosing_addScope_of_lt hlt]
    refine (h s).imp_right (fun ⟨t, ht, hcons⟩ => ⟨t, ht, ?_⟩)
    rw [enclosing_addScope_of_lt (Nat.lt_trans ht hlt), hcons]
  · rw [enclosing_addScope_self]
    refine haround.imp_right (fun ⟨t, ht, hcons⟩ => ⟨t, ht, ?_⟩)
    rw [enclosing_addScope_of_lt ht, hcons]
  · exact .inl (enclosing_of_le (by rwa [size_addScope]))

theorem Linked.define (h : m.Linked) (s : ScopeId) (name : String) (v : Value) :
    (m.define s name v).Linked := by
  intro t
  simp only [enclosing_define]
  exact h t

end Memory

/-- What was done, the last operation outermost. Operations that hand out a handle add to the number
of handles, of which each may be used from then on. What it should lead to is said in terms of the
operations alone, without any memory. -/
inductive History : Nat → Type where
  | start : History 0
  | new {n : Nat} (before : History n) : History (n + 1)
  | enclosed {n : Nat} (before : History n) (outer : Fin n) : History (n + 1)
  | clone {n : Nat} (before : History n) (handle : Fin n) : History (n + 1)
  | define {n : Nat} (before : History n) (handle : Fin n) (name : String) (value : Value) :
      History n

/-- A memory with handles of its scopes. -/
structure Handles (n : Nat) where
  memory : Memory
  scope : Fin n → ScopeId

namespace Handles

def add {n : Nat} (w : Handles n) (scope : ScopeId) (memory : Memory) : Handles (n + 1) :=
  ⟨memory, Fin.snoc w.scope scope⟩

end Handles

namespace History

variable {n : Nat}

/-- Does what the history says. -/
def replay : {n : Nat} → History n → Handles n
  | _, start => ⟨.empty, Fin.elim0⟩
  | _, new before =>
    let (scope, memory) := before.replay.memory.newScope
    before.replay.add scope memory
  | _, enclosed before outer =>
    let (scope, memory) := before.replay.memory.innerScope (before.replay.scope outer)
    before.replay.add scope memory
  | _, clone before handle => before.replay.add (before.replay.scope handle) before.replay.memory
  | _, define before handle name value =>
    { before.replay with
      memory := before.replay.memory.define (before.replay.scope handle) name value }

/-- The number of scopes that were created. -/
def created : {n : Nat} → History n → Nat
  | _, start => 0
  | _, new before => before.created + 1
  | _, enclosed before _ => before.created + 1
  | _, clone before _ => before.created
  | _, define before _ _ _ => before.created

/-- The number of the creation from which a handle comes, by cloning or at once. -/
def origin : {n : Nat} → History n → Fin n → Nat
  | _, start => Fin.elim0
  | _, new before => Fin.snoc before.origin before.created
  | _, enclosed before _ => Fin.snoc before.origin before.created
  | _, clone before handle => Fin.snoc before.origin (before.origin handle)
  | _, define before _ _ _ => before.origin

/-- The creations of the scope of a handle and of the scopes around it, from the inside outwards. -/
def chain : {n : Nat} → History n → Fin n → List Nat
  | _, start => Fin.elim0
  | _, new before => Fin.snoc before.chain [before.created]
  | _, enclosed before outer => Fin.snoc before.chain (before.created :: before.chain outer)
  | _, clone before handle => Fin.snoc before.chain (before.chain handle)
  | _, define before _ _ _ => before.chain

/-- The number of steps inwards that lead to the scope of a handle. -/
def steps : {n : Nat} → History n → Fin n → Nat
  | _, start => Fin.elim0
  | _, new before => Fin.snoc before.steps 0
  | _, enclosed before outer => Fin.snoc before.steps (before.steps outer + 1)
  | _, clone before handle => Fin.snoc before.steps (before.steps handle)
  | _, define before _ _ _ => before.steps

/-- The value with which a name was defined last, through whatever handle of the scope with this
creation; none if it never was. -/
def latest : {n : Nat} → History n → (creation : Nat) → (name : String) → Option Value
  | _, start, _, _ => none
  | _, new before, c, name => before.latest c name
  | _, enclosed before _, c, name => before.latest c name
  | _, clone before _, c, name => before.latest c name
  | _, define before handle n v, c, name =>
    if before.origin handle = c ∧ n = name then some v else before.latest c name

/-- What the history says is so in the memory. The number of a creation is that of the scope. -/
structure Replayed (H : History n) : Prop where
  size : H.replay.memory.scopes.size = H.created
  scope : H.replay.scope = H.origin
  lt : ∀ h, H.origin h < H.created
  chain : ∀ h, H.chain h = H.origin h :: H.replay.memory.enclosing (H.origin h)
  steps : ∀ h, (H.chain h).length = H.steps h + 1
  latest : ∀ c name, (H.replay.memory.bindings c).get? name = H.latest c name
  linked : H.replay.memory.Linked
  distinct : H.replay.memory.Distinct

namespace Replayed

theorem start : Replayed .start :=
  ⟨rfl, rfl, fun h => h.elim0, fun h => h.elim0, fun h => h.elim0,
    fun c _ => by rw [replay, Memory.bindings_of_le (Nat.zero_le c)]; rfl,
    Memory.linked_empty, Memory.distinct_empty⟩

variable {H : History n}

/-- A scope is created, on its own or inside of another. -/
theorem create (h : Replayed H) {around : List ScopeId} {steps : Nat} {H' : History (n + 1)}
    (haround : around = [] ∨ ∃ t < H.created, around = t :: H.replay.memory.enclosing t)
    (hreplay : H'.replay = H.replay.add (H.replay.memory.addScope around).1
      (H.replay.memory.addScope around).2)
    (hcreated : H'.created = H.created + 1)
    (horigin : H'.origin = Fin.snoc H.origin H.created)
    (hchain : H'.chain = Fin.snoc H.chain (H.created :: around))
    (hsteps : H'.steps = Fin.snoc H.steps steps) (hlength : around.length = steps)
    (hlatest : H'.latest = H.latest) : Replayed H' := by
  have hscope : (H.replay.memory.addScope around).1 = H.created := h.size
  refine ⟨?_, ?_, fun i => ?_, fun i => ?_, fun i => ?_, fun c name => ?_, ?_, ?_⟩
  · rw [hreplay, hcreated, ← h.size]
    exact Memory.size_addScope
  · rw [hreplay, horigin, ← h.scope, ← hscope]
    rfl
  · rw [horigin, hcreated]
    refine Fin.lastCases ?_ (fun i => ?_) i
    · simp
    · simpa using Nat.lt_succ_of_lt (h.lt i)
  · rw [hchain, horigin, hreplay]
    refine Fin.lastCases ?_ (fun i => ?_) i
    · simp only [Fin.snoc_last, Handles.add]
      rw [← h.size, Memory.enclosing_addScope_self]
    · have hlt : H.origin i < H.replay.memory.scopes.size := h.size ▸ h.lt i
      simp only [Fin.snoc_castSucc, Handles.add]
      rw [Memory.enclosing_addScope_of_lt hlt, h.chain]
  · rw [hchain, hsteps]
    refine Fin.lastCases ?_ (fun i => ?_) i
    · simp [hlength]
    · simpa using h.steps i
  · rw [hlatest, hreplay, ← h.latest]
    simp only [Handles.add, Memory.bindings_addScope]
  · rw [hreplay]
    exact h.linked.addScope (h.size ▸ haround)
  · rw [hreplay]
    exact h.distinct.addScope around

theorem new (h : Replayed H) : Replayed (.new H) :=
  h.create (.inl rfl) rfl rfl rfl rfl rfl rfl rfl

theorem enclosed (h : Replayed H) (outer : Fin n) : Replayed (.enclosed H outer) := by
  have hchain := h.chain outer
  refine h.create (.inr ⟨H.origin outer, h.lt outer, rfl⟩) ?_ rfl rfl ?_ rfl ?_ rfl
  · rw [← h.scope]
    rfl
  · rw [← hchain]
    rfl
  · rw [← hchain]
    exact h.steps outer

theorem clone (h : Replayed H) (handle : Fin n) : Replayed (.clone H handle) := by
  have hlast : ∀ {P : Fin (n + 1) → Prop},
      (∀ i : Fin n, P i.castSucc) → P (Fin.last n) → ∀ i, P i :=
    fun hold hlast => Fin.lastCases hlast hold
  refine ⟨h.size, ?_, hlast (fun i => ?_) ?_, hlast (fun i => ?_) ?_, hlast (fun i => ?_) ?_,
    h.latest, h.linked, h.distinct⟩
  · rw [History.origin, ← h.scope]
    rfl
  all_goals
    simp only [History.origin, History.chain, History.steps, Fin.snoc_castSucc, Fin.snoc_last]
  · exact h.lt i
  · exact h.lt handle
  · exact h.chain i
  · exact h.chain handle
  · exact h.steps i
  · exact h.steps handle

theorem define (h : Replayed H) (handle : Fin n) (name : String) (v : Value) :
    Replayed (.define H handle name v) := by
  have hscope : H.replay.scope handle = H.origin handle := congrFun h.scope handle
  refine ⟨?_, h.scope, h.lt, fun i => ?_, h.steps, fun c other => ?_,
    h.linked.define _ _ _, h.distinct.define _ _ _⟩
  · simp only [replay, Memory.size_define]
    exact h.size
  · simp only [replay, Memory.enclosing_define]
    exact h.chain i
  · simp only [replay, History.latest, hscope, ← h.latest]
    by_cases hc : H.origin handle = c
    · subst hc
      rw [Memory.bindings_define_self (h.size ▸ h.lt handle), Bindings.get?_set]
      simp
    · rw [Memory.bindings_define_of_ne hc, if_neg (fun hsame => hc hsame.1)]

end Replayed

theorem replayed (H : History n) : Replayed H := by
  induction H with
  | start => exact .start
  | new _ ih => exact ih.new
  | enclosed _ outer ih => exact ih.enclosed outer
  | clone _ handle ih => exact ih.clone handle
  | define _ handle name v ih => exact ih.define handle name v

end History

/-- Scopes obey their history, whatever it is. A name has the value with which it was last defined
in the innermost scope that ever defined it, if there is one, and every search for it ends with
that; it is bound if it has a value. A scope lists each name that it ever defined once, in the order
of bytes and with its latest value. The depth of a scope is the number of steps that lead to it, and
handles share a scope if they come from the same creation. -/
theorem lexical_scoping {n : Nat} (H : History n) (h : Fin n) :
    (∀ name v, H.replay.memory.get? (H.replay.scope h) name = some v ↔
      ∃ inside c around, H.chain h = inside ++ c :: around ∧
        (∀ d ∈ inside, H.latest d name = none) ∧ H.latest c name = some v) ∧
    (∀ name, H.replay.memory.get? (H.replay.scope h) name = none ↔
      ∀ c ∈ H.chain h, H.latest c name = none) ∧
    (∀ name, H.replay.memory.isBound (H.replay.scope h) name = true ↔
      ∃ v, H.replay.memory.get? (H.replay.scope h) name = some v) ∧
    (∀ name r, H.replay.memory.Lookup name (H.replay.scope h) r ↔
      r = H.replay.memory.get? (H.replay.scope h) name) ∧
    (H.replay.memory.ownBindings (H.replay.scope h)).Pairwise (fun b c => utf8 b.1 < utf8 c.1) ∧
    (∀ name v, (name, v) ∈ H.replay.memory.ownBindings (H.replay.scope h) ↔
      H.latest (H.origin h) name = some v) ∧
    H.replay.memory.depth (H.replay.scope h) = H.steps h ∧
    ∀ h', H.replay.scope h = H.replay.scope h' ↔ H.origin h = H.origin h' := by
  have hH := H.replayed
  have hget : ∀ name, H.replay.memory.get? (H.replay.scope h) name =
      (H.chain h).findSome? (fun c => H.latest c name) := by
    intro name
    simp only [Memory.get?, hH.latest, hH.chain, hH.scope]
  refine ⟨fun name v => ?_, fun name => ?_, fun name => ?_, fun name r => hH.linked.lookup_iff,
    hH.distinct.pairwise_ownBindings _, fun name v => ?_, ?_, fun h' => by rw [hH.scope]⟩
  · rw [hget, List.findSome?_eq_some_iff]
    grind
  · rw [hget, List.findSome?_eq_none_iff]
  · rw [← Memory.isSome_get?, Option.isSome_iff_exists]
  · rw [hH.distinct.mem_ownBindings_iff, hH.latest, hH.scope]
  · have hlength := hH.steps h
    rw [hH.chain, List.length_cons] at hlength
    rw [Memory.depth, hH.scope]
    exact Nat.succ.inj hlength

/-- What is defined through a clone is seen from a scope that was made inside before. -/
example : let H : History 3 :=
      .define (.clone (.enclosed (.new .start) 0) 0) 2 "x" (.integer 1)
    H.replay.memory.get? (H.replay.scope 1) "x" = some (.integer 1) := rfl

end Treewalk
