import Treewalk.Value.Basic

namespace Treewalk

/-- Names with their values, each name once, in the order in which they were first bound. -/
abbrev Bindings := List (String × Value)

namespace Bindings

def get? (name : String) : Bindings → Option Value
  | [] => none
  | (n, v) :: rest => if n = name then some v else get? name rest

def binds (name : String) (bs : Bindings) : Bool := bs.any (fun b => b.1 == name)

/-- Binds a name; its earlier value is forgotten. -/
def set (name : String) (value : Value) : Bindings → Bindings
  | [] => [(name, value)]
  | (n, v) :: rest => if n = name then (name, value) :: rest else (n, v) :: set name value rest

theorem isSome_get? (name : String) (bs : Bindings) : (get? name bs).isSome = bs.binds name := by
  induction bs with
  | nil => rfl
  | cons b bs ih =>
    obtain ⟨n, v⟩ := b
    by_cases h : n = name
    · simp [get?, binds, h]
    · simp [get?, binds, h, ih]

theorem get?_set (name other : String) (value : Value) (bs : Bindings) :
    get? other (set name value bs) = if name = other then some value else get? other bs := by
  induction bs with
  | nil => simp [set, get?]
  | cons b bs ih =>
    obtain ⟨n, v⟩ := b
    by_cases h : n = name
    · subst h
      by_cases ho : n = other <;> simp [set, get?, ho]
    · by_cases ho : n = other
      · subst ho
        simp [set, get?, h, Ne.symm h]
      · simp [set, get?, h, ho, ih]

def insertSorted (name : String) (value : Value) : Bindings → Bindings
  | [] => [(name, value)]
  | (n, v) :: rest =>
    if name < n then (name, value) :: (n, v) :: rest else (n, v) :: insertSorted name value rest

/-- The bindings in the order of their names. -/
def sorted : Bindings → Bindings
  | [] => []
  | (n, v) :: rest => insertSorted n v (sorted rest)

end Bindings

/-- A scope binds names to values. Functions refer to scopes by their numbers, so scopes are shared.
The scopes around a scope are listed from the inside outwards. -/
structure Scope where
  bindings : Bindings
  enclosing : List ScopeId

/-- All scopes ever created, and the next stamp. -/
structure Memory where
  scopes : Array Scope
  nextStamp : Nat

namespace Memory

def empty : Memory := ⟨#[], 0⟩

def bindings (m : Memory) (s : ScopeId) : Bindings :=
  match m.scopes[s]? with
  | some scope => scope.bindings
  | none => []

def enclosing (m : Memory) (s : ScopeId) : List ScopeId :=
  match m.scopes[s]? with
  | some scope => scope.enclosing
  | none => []

/-- Adds a scope inside the scopes given. -/
def addScope (m : Memory) (enclosing : List ScopeId) : ScopeId × Memory :=
  (m.scopes.size, { m with scopes := m.scopes.push ⟨[], enclosing⟩ })

/-- Adds a scope that stands by itself. -/
def newScope (m : Memory) : ScopeId × Memory := m.addScope []

/-- Adds a scope inside another. -/
def innerScope (m : Memory) (outer : ScopeId) : ScopeId × Memory :=
  m.addScope (outer :: m.enclosing outer)

/-- Binds a name in a scope, whatever the scopes around it bind. -/
def define (m : Memory) (s : ScopeId) (name : String) (value : Value) : Memory :=
  { m with
    scopes := m.scopes.modify s (fun scope =>
      { scope with bindings := scope.bindings.set name value }) }

/-- Binds several names in a scope, one after the other. -/
def defineAll (m : Memory) (s : ScopeId) (bs : List (String × Value)) : Memory :=
  bs.foldl (fun memory b => memory.define s b.1 b.2) m

/-- The value of a name in the innermost scope that binds it. -/
def get? (m : Memory) (s : ScopeId) (name : String) : Option Value :=
  (s :: m.enclosing s).findSome? (fun t => (m.bindings t).get? name)

/-- Whether a scope or one around it binds a name. -/
def isBound (m : Memory) (s : ScopeId) (name : String) : Bool :=
  (s :: m.enclosing s).any (fun t => (m.bindings t).binds name)

/-- The bindings of one scope by name, without those of the scopes around it. -/
def ownBindings (m : Memory) (s : ScopeId) : Bindings := (m.bindings s).sorted

/-- The number of scopes around a scope. -/
def depth (m : Memory) (s : ScopeId) : Nat := (m.enclosing s).length

/-- A stamp that no value has yet. -/
def stamp (m : Memory) : Nat × Memory := (m.nextStamp, { m with nextStamp := m.nextStamp + 1 })

theorem bindings_of_le {m : Memory} {s : ScopeId} (h : m.scopes.size ≤ s) : m.bindings s = [] := by
  simp [bindings, h]

theorem enclosing_of_le {m : Memory} {s : ScopeId} (h : m.scopes.size ≤ s) :
    m.enclosing s = [] := by
  simp [enclosing, h]

theorem size_define (m : Memory) (s : ScopeId) (name : String) (value : Value) :
    (m.define s name value).scopes.size = m.scopes.size := by
  simp [define]

theorem enclosing_define (m : Memory) (s t : ScopeId) (name : String) (value : Value) :
    (m.define s name value).enclosing t = m.enclosing t := by
  simp only [enclosing, define, Array.getElem?_modify]
  by_cases h : s = t
  · cases m.scopes[t]? <;> simp [h]
  · simp [h]

theorem bindings_define_self {m : Memory} {s : ScopeId} (h : s < m.scopes.size) (name : String)
    (value : Value) : (m.define s name value).bindings s = (m.bindings s).set name value := by
  simp [bindings, define, Array.getElem_modify, h]

theorem bindings_define_of_ne {m : Memory} {s t : ScopeId} (h : s ≠ t) (name : String)
    (value : Value) : (m.define s name value).bindings t = m.bindings t := by
  simp [bindings, define, Array.getElem?_modify, h]

/-- Only a scope that exists takes a binding. -/
theorem bindings_define (m : Memory) (s t : ScopeId) (name : String) (value : Value) :
    (m.define s name value).bindings t =
      if s = t ∧ s < m.scopes.size then (m.bindings t).set name value else m.bindings t := by
  by_cases hst : s = t
  · subst hst
    by_cases hlt : s < m.scopes.size
    · rw [bindings_define_self hlt, if_pos ⟨rfl, hlt⟩]
    · have hle := Nat.le_of_not_lt hlt
      rw [if_neg (fun h => hlt h.2), bindings_of_le hle, bindings_of_le (by rwa [size_define])]
  · rw [bindings_define_of_ne hst, if_neg (fun h => hst h.1)]

theorem size_addScope {m : Memory} {enclosing : List ScopeId} :
    (m.addScope enclosing).2.scopes.size = m.scopes.size + 1 := by
  simp [addScope]

theorem bindings_addScope {m : Memory} {enclosing : List ScopeId} {t : ScopeId} :
    (m.addScope enclosing).2.bindings t = m.bindings t := by
  simp only [bindings, addScope, Array.getElem?_push]
  by_cases h : t = m.scopes.size <;> simp [h]

theorem not_mem_empty_newScope {s : ScopeId} {b : String × Value} :
    b ∉ empty.newScope.2.bindings s := by
  rw [newScope, bindings_addScope]
  simp [bindings, empty]

theorem enclosing_addScope_of_ne {m : Memory} {outer : List ScopeId} {t : ScopeId}
    (h : t ≠ m.scopes.size) : (m.addScope outer).2.enclosing t = m.enclosing t := by
  simp [enclosing, addScope, Array.getElem?_push, h]

theorem enclosing_addScope_of_lt {m : Memory} {outer : List ScopeId} {t : ScopeId}
    (h : t < m.scopes.size) : (m.addScope outer).2.enclosing t = m.enclosing t :=
  enclosing_addScope_of_ne (Nat.ne_of_lt h)

theorem enclosing_addScope_self {m : Memory} {outer : List ScopeId} :
    (m.addScope outer).2.enclosing m.scopes.size = outer := by
  simp [enclosing, addScope]

theorem size_innerScope {m : Memory} {outer : ScopeId} :
    (m.innerScope outer).2.scopes.size = m.scopes.size + 1 :=
  size_addScope

theorem lt_size_innerScope {m : Memory} {outer : ScopeId} :
    m.scopes.size < (m.innerScope outer).2.scopes.size := by
  rw [size_innerScope]
  exact Nat.lt_succ_self _

theorem bindings_innerScope {m : Memory} {outer t : ScopeId} :
    (m.innerScope outer).2.bindings t = m.bindings t :=
  bindings_addScope

theorem enclosing_innerScope_self {m : Memory} {outer : ScopeId} :
    (m.innerScope outer).2.enclosing m.scopes.size = outer :: m.enclosing outer :=
  enclosing_addScope_self

theorem mem_enclosing_innerScope {m : Memory} {outer s t : ScopeId}
    (h : t ∈ (m.innerScope outer).2.enclosing s) :
    t = outer ∨ t ∈ m.enclosing outer ∨ t ∈ m.enclosing s := by
  by_cases hs : s = m.scopes.size
  · rw [hs, enclosing_innerScope_self] at h
    exact (List.mem_cons.mp h).imp_right .inl
  · rw [innerScope, enclosing_addScope_of_ne hs] at h
    exact .inr (.inr h)

/-- A name just bound is found with the value it was given. -/
theorem get?_define_self {m : Memory} {s : ScopeId} (h : s < m.scopes.size) (name : String)
    (value : Value) : (m.define s name value).get? s name = some value := by
  simp [get?, bindings_define_self h, Bindings.get?_set]

/-- The names that are bound are those that have a value. -/
theorem isSome_get? (m : Memory) (s : ScopeId) (name : String) :
    (m.get? s name).isSome = m.isBound s name := by
  rw [get?, List.isSome_findSome?, isBound]
  simp only [Bindings.isSome_get?]

end Memory

end Treewalk
