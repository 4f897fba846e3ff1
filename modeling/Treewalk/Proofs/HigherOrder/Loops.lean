import Treewalk.Proofs.Identity.Handing
import Treewalk.Proofs.Run.Frame
import Treewalk.Proofs.Run.Tidy

namespace Treewalk

open Evaluation

/-- Functions over arrays that are written in the language itself. Each binds a function `iter` that
calls itself with the rest of the array and with what it has accumulated. -/
inductive Loop where
  | map
  | reduce

namespace Loop

def name : Loop → String
  | map => "map"
  | reduce => "reduce"

def parameters : Loop → List String
  | map => ["arr", "f"]
  | reduce => ["arr", "initial", "f"]

/-- What `iter` calls the value that it hands on to itself. -/
def accumulator : Loop → String
  | map => "accumulated"
  | reduce => "result"

/-- What is handed on in place of the accumulated value. -/
def step : Loop → Expression
  | map => .call (.identifier "push") [.identifier "accumulated",
      .call (.identifier "f") [.call (.identifier "first") [.identifier "arr"]]]
  | reduce => .call (.identifier "f") [.identifier "result",
      .call (.identifier "first") [.identifier "arr"]]

/-- What `iter` starts with. -/
def start : Loop → Expression
  | map => .array []
  | reduce => .identifier "initial"

/-- An `if` that ends with the accumulated value once the array is empty. -/
def round (l : Loop) : Expression :=
  .conditional
    (.binary .equal (.call (.identifier "len") [.identifier "arr"]) (.integer 0))
    [.expression (.identifier l.accumulator)]
    (some [.expression (.call (.identifier "iter")
      [.call (.identifier "rest") [.identifier "arr"], l.step])])

def body (l : Loop) : Block :=
  [.binding "iter" (.function ["arr", l.accumulator] [.expression l.round]),
    .expression (.call (.identifier "iter") [.identifier "arr", l.start])]

/-- The function that `iter` is bound to. -/
def iter (l : Loop) (stamp : Nat) (scope : ScopeId) : Value :=
  .function stamp ["arr", l.accumulator] [.expression l.round] scope

def function (l : Loop) (stamp : Nat) (scope : ScopeId) : Value :=
  .function stamp l.parameters l.body scope

end Loop

/-- Binds the two functions. -/
def higherOrder : Program :=
  ⟨[.binding "map" (.function Loop.map.parameters Loop.map.body),
    .binding "reduce" (.function Loop.reduce.parameters Loop.reduce.body)]⟩

namespace Memory

variable {m m' : Memory} {s t : ScopeId}

/-- What the functions call. -/
def loopBuiltins : List Builtin := [.len, .first, .rest, .push]

/-- In the scope, names stand for values, and none stands in the way of the built-in functions. -/
structure Offers (m : Memory) (s : ScopeId) (bs : List (String × Value)) : Prop where
  bound : ∀ b ∈ bs, m.get? s b.1 = some b.2
  free : ∀ b ∈ loopBuiltins, m.get? s b.name = none

/-- The scope exists, and so do all those around it. -/
structure Stands (m : Memory) (s : ScopeId) : Prop where
  lt : s < m.scopes.size
  around : ∀ t ∈ m.enclosing s, t < m.scopes.size

theorem Tidy.stands (h : m.Tidy) (hs : s < m.scopes.size) : m.Stands s := ⟨hs, h.around s⟩

theorem Extends.trans {m'' : Memory} (h : m.Extends m') (h' : m'.Extends m'') : m.Extends m'' := by
  refine ⟨Nat.le_trans h.size_le h'.size_le, fun t ht => ?_, fun t ht => ?_⟩
  · rw [h'.enclosing t (Nat.lt_of_lt_of_le ht h.size_le), h.enclosing t ht]
  · rw [h'.bindings t (Nat.lt_of_lt_of_le ht h.size_le), h.bindings t ht]

/-- A scope that is new may take bindings. -/
theorem Extends.define (h : m.Extends m') (hs : m.scopes.size ≤ s) (name : String) (v : Value) :
    m.Extends (m'.define s name v) := by
  refine ⟨by rw [size_define]; exact h.size_le, fun t ht => ?_, fun t ht => ?_⟩
  · rw [enclosing_define, h.enclosing t ht]
  · have hne : s ≠ t := Nat.ne_of_gt (Nat.lt_of_lt_of_le ht hs)
    rw [bindings_define_of_ne hne, h.bindings t ht]

theorem Extends.stands (h : m.Extends m') (hs : m.Stands s) : m'.Stands s := by
  refine ⟨Nat.lt_of_lt_of_le hs.lt h.size_le, fun t ht => ?_⟩
  rw [h.enclosing s hs.lt] at ht
  exact Nat.lt_of_lt_of_le (hs.around t ht) h.size_le

theorem findSome?_congr {α β : Type} {f g : α → Option β} {ts : List α}
    (h : ∀ t ∈ ts, f t = g t) : ts.findSome? f = ts.findSome? g := by
  induction ts with
  | nil => rfl
  | cons t ts ih =>
    obtain ⟨ht, hts⟩ := List.forall_mem_cons.mp h
    rw [List.findSome?_cons, List.findSome?_cons, ht, ih hts]

/-- What is found does not depend on scopes that were added. -/
theorem Extends.get? (h : m.Extends m') (hs : m.Stands s) (name : String) :
    m'.get? s name = m.get? s name := by
  have hchain : ∀ t ∈ s :: m.enclosing s,
      (m'.bindings t).get? name = (m.bindings t).get? name := by
    intro t ht
    rcases List.mem_cons.mp ht with rfl | ht
    · rw [h.bindings t hs.lt]
    · rw [h.bindings t (hs.around t ht)]
  rw [Memory.get?, h.enclosing s hs.lt, findSome?_congr hchain, Memory.get?]

theorem Extends.offers (h : m.Extends m') (hs : m.Stands s) {bs : List (String × Value)}
    (ho : m.Offers s bs) : m'.Offers s bs := by
  constructor
  · intro b hb
    rw [h.get? hs, ho.bound b hb]
  · intro b hb
    rw [h.get? hs, ho.free b hb]

theorem Offers.mono {bs cs : List (String × Value)} (h : m.Offers s bs) (hsub : cs ⊆ bs) :
    m.Offers s cs :=
  ⟨fun b hb => h.bound b (hsub hb), h.free⟩

theorem Stands.define (h : m.Stands s) (name : String) (v : Value) :
    (m.define t name v).Stands s := by
  refine ⟨by rw [size_define]; exact h.lt, fun u hu => ?_⟩
  rw [enclosing_define] at hu
  rw [size_define]
  exact h.around u hu

theorem Offers.stamp {bs : List (String × Value)} (h : m.Offers s bs) : m.stamp.2.Offers s bs :=
  ⟨h.bound, h.free⟩

/-- The memory of a call: a new scope, in which the parameters are bound. -/
def entered (m : Memory) (outer : ScopeId) (bs : List (String × Value)) : Memory :=
  (m.innerScope outer).2.defineAll m.scopes.size bs

section
variable {outer : ScopeId} {bs : List (String × Value)}

theorem extends_entered : m.Extends (m.entered outer bs) := by
  have hframe : Frame m.scopes.size (bs.map Prod.fst) m (m.entered outer bs) :=
    (Frame.of_extends (m.extends_innerScope outer)).trans
      (.defineAll (fun b hb => List.mem_map_of_mem hb))
  exact hframe.extends

theorem size_defineAll : (m.defineAll s bs).scopes.size = m.scopes.size := by
  induction bs generalizing m with
  | nil => rfl
  | cons b bs ih => exact ih.trans (m.size_define s b.1 b.2)

theorem enclosing_defineAll : (m.defineAll s bs).enclosing t = m.enclosing t := by
  induction bs generalizing m with
  | nil => rfl
  | cons b bs ih => exact ih.trans (m.enclosing_define s t b.1 b.2)

theorem nextStamp_defineAll : (m.defineAll s bs).nextStamp = m.nextStamp := by
  induction bs generalizing m with
  | nil => rfl
  | cons b bs ih => exact ih

theorem size_entered : (m.entered outer bs).scopes.size = m.scopes.size + 1 :=
  size_defineAll.trans size_innerScope

theorem enclosing_entered :
    (m.entered outer bs).enclosing m.scopes.size = outer :: m.enclosing outer :=
  enclosing_defineAll.trans enclosing_innerScope_self

theorem nextStamp_entered : (m.entered outer bs).nextStamp = m.nextStamp := nextStamp_defineAll

theorem stands_entered (h : m.Stands outer) : (m.entered outer bs).Stands m.scopes.size := by
  constructor
  · rw [size_entered]
    exact Nat.lt_succ_self _
  · intro t ht
    rw [enclosing_entered] at ht
    rw [size_entered]
    rcases List.mem_cons.mp ht with rfl | ht
    · exact Nat.lt_succ_of_lt h.lt
    · exact Nat.lt_succ_of_lt (h.around t ht)

theorem get?_bindings_entered (name : String) :
    ((m.entered outer bs).bindings m.scopes.size).get? name = bs.reverse.lookup name := by
  have hnone : (m.innerScope outer).2.bindings m.scopes.size = [] := by
    rw [bindings_innerScope, bindings_of_le (Nat.le_refl _)]
  rw [entered, get?_bindings_defineAll lt_size_innerScope, hnone]
  exact Option.or_none

/-- In a call, parameters stand for the arguments, wherever the function was made. -/
theorem get?_entered_of_lookup {name : String} {v : Value} (h : bs.reverse.lookup name = some v) :
    (m.entered outer bs).get? m.scopes.size name = some v := by
  rw [Memory.get?, List.findSome?_cons, get?_bindings_entered, h]

/-- In a call, names stand for the arguments first, and for what they stand for around it else. -/
theorem get?_entered (h : m.Stands outer) (name : String) :
    (m.entered outer bs).get? m.scopes.size name =
      (bs.reverse.lookup name).or (m.get? outer name) := by
  have hout : (m.entered outer bs).get? outer name = m.get? outer name :=
    extends_entered.get? h name
  rw [Memory.get?, extends_entered.enclosing outer h.lt] at hout
  rw [Memory.get?, enclosing_entered, List.findSome?_cons, get?_bindings_entered, hout]
  cases bs.reverse.lookup name <;> rfl

end

theorem get?_define_of_ne {name other : String} (h : other ≠ name) (v : Value) :
    (m.define s other v).get? t name = m.get? t name := by
  rw [get?, enclosing_define, get?]
  apply findSome?_congr
  intro u _
  rw [bindings_define]
  split
  · rw [Bindings.get?_set, if_neg h]
  · rfl

end Memory

end Treewalk
