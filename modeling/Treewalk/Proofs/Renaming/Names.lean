import Treewalk.Proofs.Grammar.Terminals
import Treewalk.Proofs.Renaming.Shift

namespace Treewalk

open Evaluation

namespace Renaming

/-- Turns the names of a kind into others of that kind, no two into the same. All other names stay,
and so do scopes and stamps. -/
def ofNames (names : String → Prop) [DecidablePred names] (r : String → String)
    (hinjective : ∀ x y, names x → names y → r x = r y → x = y)
    (hmaps : ∀ x, names x → names (r x)) (hbuiltin : ∀ b : Builtin, r b.name = b.name) :
    Renaming where
  name x := if names x then r x else x
  scope := id
  stamp := id
  known _ := True
  forgotten _ := False
  name_injective := by
    intro x y hxy
    by_cases hx : names x <;> by_cases hy : names y <;> simp only [hx, hy, if_true, if_false] at hxy
    · exact hinjective x y hx hy hxy
    · exact absurd (hxy ▸ hmaps x hx) hy
    · exact absurd (hxy ▸ hmaps y hy) hx
    · exact hxy
  scope_injective := Function.injective_id
  stamp_injective := Function.injective_id
  name_builtin b := by
    split
    · exact hbuiltin b
    · rfl

/-- Only names are turned into others. -/
structure OnlyNames (φ : Renaming) : Prop extends φ.Total where
  scope : ∀ s, φ.scope s = s
  stamp : ∀ n, φ.stamp n = n

end Renaming

/-- The second memory is the first one with other names: each scope has the same bindings, with
other names, of values with other names in their functions, and no bindings besides. -/
structure Memory.Renamed (φ : Renaming) (m m' : Memory) : Prop where
  size : m'.scopes.size = m.scopes.size
  stamp : m'.nextStamp = m.nextStamp
  enclosing : ∀ s, m'.enclosing s = m.enclosing s
  bindings : ∀ s name,
    (m'.bindings s).get? (φ.name name) = ((m.bindings s).get? name).map (·.rename φ)
  named : ∀ s name, (∀ other, φ.name other ≠ name) → (m'.bindings s).get? name = none

/-- The memory with other names. -/
def Memory.rename (φ : Renaming) (m : Memory) : Memory :=
  { m with
    scopes := m.scopes.map (fun scope =>
      { scope with bindings := scope.bindings.map (fun b => (φ.name b.1, b.2.rename φ)) }) }

/-- Both machines have done the same, with other names. -/
structure Machine.Renamed (φ : Renaming) (m m' : Machine) : Prop where
  memory : m.memory.Renamed φ m'.memory
  callDepth : m'.callDepth = m.callDepth
  events : m'.events = m.events.map (Event.rename φ)

def Machine.rename (φ : Renaming) (m : Machine) : Machine :=
  ⟨m.memory.rename φ, m.callDepth, m.journal.map (Event.rename φ)⟩

def Outcome.rename (φ : Renaming) : Outcome Value → Outcome Value
  | done v => .done (v.rename φ)
  | failed f => .failed (f.rename φ)
  | exhausted => .exhausted

section
variable {φ : Renaming}

theorem Renaming.Ends.outcome {r r' : Outcome Value × Machine} (h : φ.Ends φ.Match r r') :
    r'.1 = r.1.rename φ := by
  cases h with
  | done hv _ => exact congrArg Outcome.done hv.eq
  | failed f _ => rfl
  | exhausted _ => rfl

theorem Bindings.get?_map_rename (bs : Bindings) (name : String) :
    get? (φ.name name) (bs.map (fun b => (φ.name b.1, b.2.rename φ))) =
      (get? name bs).map (·.rename φ) := by
  induction bs with
  | nil => rfl
  | cons b bs ih =>
    by_cases h : b.1 = name
    · simp [get?, h]
    · have h' : φ.name b.1 ≠ φ.name name := fun heq => h (φ.name_injective heq)
      simp [get?, h, h', ih]

theorem Bindings.get?_map_of_ne (bs : Bindings) {name : String} (h : ∀ other, φ.name other ≠ name) :
    get? name (bs.map (fun b => (φ.name b.1, b.2.rename φ))) = none := by
  induction bs with
  | nil => rfl
  | cons b bs ih => simp [get?, h, ih]

theorem Memory.bindings_rename (m : Memory) (s : ScopeId) :
    (m.rename φ).bindings s = (m.bindings s).map (fun b => (φ.name b.1, b.2.rename φ)) := by
  simp only [bindings, rename, Array.getElem?_map]
  cases m.scopes[s]? <;> rfl

theorem Memory.renamed_rename (m : Memory) : m.Renamed φ (m.rename φ) := by
  refine ⟨by simp [rename], rfl, ?_, ?_, ?_⟩
  · intro s
    simp only [enclosing, rename, Array.getElem?_map]
    cases m.scopes[s]? <;> rfl
  · intro s name
    rw [bindings_rename, Bindings.get?_map_rename]
  · intro s name h
    rw [bindings_rename, Bindings.get?_map_of_ne _ h]

theorem Machine.renamed_rename (m : Machine) : m.Renamed φ (m.rename φ) :=
  ⟨m.memory.renamed_rename, rfl, by simp [events, rename]⟩

/-- What is printed are the texts of the values with other names. -/
theorem Event.output_map_rename (events : List Event) :
    output (events.map (rename φ)) =
      String.join ((events.filterMap printed?).map (fun v => (v.rename φ).inspect ++ "\n")) := by
  induction events with
  | nil => rfl
  | cons e events ih =>
    cases e with
    | printed v => simp [rename, output, printed?, ih]
    | _ => exact ih

end

namespace Renaming.OnlyNames

variable {φ : Renaming} (h : φ.OnlyNames)
include h

/-- With other names, a memory is an image of the one that it was. -/
theorem image_iff {m m' : Memory} : φ.Image m m' ↔ m.Renamed φ m' := by
  have hscopes : ∀ ts : List ScopeId, ts.map φ.scope = ts := by
    intro ts
    rw [funext h.scope, List.map_id']
  constructor
  · intro himage
    refine ⟨?_, ?_, ?_, ?_, ?_⟩
    · rw [← himage.scope_size, h.scope]
    · rw [← himage.stamp_next, h.stamp]
    · intro s
      have henclosing := himage.enclosing s (h.kept s)
      rwa [hscopes, h.scope] at henclosing
    · intro s name
      have hbindings := himage.bindings s (h.kept s) name (h.known ▸ trivial)
      rwa [h.scope] at hbindings
    · intro s name hname
      have hnamed := himage.named s (h.kept s) name hname
      rwa [h.scope] at hnamed
  · intro hrenamed
    refine ⟨h.memoryFits m, ?_, ?_, ?_, ?_, ?_⟩
    · intro i
      rw [h.scope, hrenamed.size]
    · intro i
      rw [h.stamp, hrenamed.stamp]
    · intro s _
      rw [h.scope, hscopes, hrenamed.enclosing]
    · intro s _ name _
      rw [h.scope, hrenamed.bindings]
    · intro s _ name hname
      rw [h.scope, hrenamed.named s name hname]

theorem likeness_iff {m m' : Machine} : φ.Likeness m m' ↔ m.Renamed φ m' := by
  have hjournal : m'.journal = m.journal.map (Event.rename φ) ↔
      m'.events = m.events.map (Event.rename φ) := by
    rw [Machine.events, Machine.events, List.map_reverse, List.reverse_inj]
  constructor
  · intro hlike
    exact ⟨h.image_iff.mp hlike.memory, hlike.callDepth, hjournal.mp hlike.journal⟩
  · intro hrenamed
    exact ⟨h.image_iff.mpr hrenamed.memory, hrenamed.callDepth, hjournal.mpr hrenamed.events⟩

/-- The program with other names does the same with other names. -/
theorem run (p : Program) (budget : Nat) (s : ScopeId) {m m' : Machine} (hm : m.Renamed φ m') :
    ((p.rename φ).run budget s m').1 = (p.run budget s m).1.rename φ ∧
      (p.run budget s m).2.Renamed φ ((p.rename φ).run budget s m').2 := by
  have hscope : φ.MatchScope s s := ⟨(h.scope s).symm, h.kept s⟩
  have hends := Renaming.tracks_run hscope (h.knownStatements p.statements) budget m m'
    (h.likeness_iff.mpr hm)
  exact ⟨hends.outcome, h.likeness_iff.mp hends.machine⟩

end Renaming.OnlyNames

theorem Renaming.onlyNames_ofNames {names : String → Prop} [DecidablePred names]
    {r : String → String} (hinjective : ∀ x y, names x → names y → r x = r y → x = y)
    (hmaps : ∀ x, names x → names (r x)) (hbuiltin : ∀ b : Builtin, r b.name = b.name) :
    (ofNames names r hinjective hmaps hbuiltin).OnlyNames :=
  ⟨⟨rfl, fun _ h => h⟩, fun _ => rfl, fun _ => rfl⟩

/-- Let names of a kind be turned into others of that kind, no two into the same, and those of the
built-in functions into themselves. In any memory with other names, such as there is one for each
memory, a program with other names has the same value or fault with other names, does the same and
leaves the same bindings with other names; what it prints are the texts of the values with other
names. -/
theorem names_opaque {names : String → Prop} [DecidablePred names] {r : String → String}
    (hinjective : ∀ x y, names x → names y → r x = r y → x = y)
    (hmaps : ∀ x, names x → names (r x)) (hbuiltin : ∀ b : Builtin, r b.name = b.name)
    (p : Program) (budget : Nat) (s : ScopeId) (m : Machine) :
    let φ := Renaming.ofNames names r hinjective hmaps hbuiltin
    m.Renamed φ (m.rename φ) ∧ ∀ m', m.Renamed φ m' →
      ((p.rename φ).run budget s m').1 = (p.run budget s m).1.rename φ ∧
      (p.run budget s m).2.Renamed φ ((p.rename φ).run budget s m').2 ∧
      Event.output ((p.rename φ).run budget s m').2.events =
        String.join (((p.run budget s m).2.events.filterMap Event.printed?).map
          (fun v => (v.rename φ).inspect ++ "\n")) := by
  intro φ
  refine ⟨m.renamed_rename, ?_⟩
  intro m' hm
  obtain ⟨houtcome, hmachine⟩ :=
    (Renaming.onlyNames_ofNames hinjective hmaps hbuiltin).run p budget s hm
  refine ⟨houtcome, hmachine, ?_⟩
  rw [hmachine.events, Event.output_map_rename]

/-- The names `a` and `b` in each other's place. -/
def swapped (x : String) : String := if x = "a" then "b" else if x = "b" then "a" else x

theorem swapped_swapped (x : String) : swapped (swapped x) = x := by
  unfold swapped
  by_cases ha : x = "a"
  · simp [ha]
  · by_cases hb : x = "b" <;> simp [ha, hb]

theorem swapped_injective (x y : String) (h : swapped x = swapped y) : x = y := by
  rw [← swapped_swapped x, h, swapped_swapped]

theorem isName_swapped (x : String) (h : IsName x) : IsName (swapped x) := by
  unfold swapped
  split
  · decide
  · split
    · decide
    · exact h

theorem swapped_builtin (b : Builtin) : swapped b.name = b.name := by
  cases b <;> decide

/-- The names `a` and `b` exchanged, wherever they stand. -/
def exchange : Renaming :=
  .ofNames IsName swapped (fun x y _ _ => swapped_injective x y) isName_swapped swapped_builtin

/-- The function that adds its argument, of this name, to what another name stands for where the
function was made, which is in the second scope. -/
def addition (parameter other : String) : Value :=
  .function 0 [parameter] [.expression (.binary .add (.identifier other) (.identifier parameter))] 1

/-- The first scope binds `a` to a function, and the second one, which is inside it, binds `b`. -/
def memoryOfAddition : Memory :=
  (((Memory.empty.newScope.2.innerScope 0).2.define 1 "b" (.integer 5)).define 0 "a"
    (addition "a" "b")).stamp.2

/-- Prints the function and what it gives, binds a name, and looks up one that is not bound. -/
def printing : Program :=
  ⟨[.expression (.call (.identifier "puts") [.identifier "a"]),
    .binding "c" (.call (.identifier "a") [.integer 2]),
    .expression (.call (.identifier "puts") [.identifier "c"]),
    .expression (.identifier "b")]⟩

/-- Names are exchanged in the program as well as in the scopes and in the function that are there
already. -/
theorem names_opaque_swapped :
    let m := Machine.ofMemory memoryOfAddition
    let m' := m.rename exchange
    let p' := printing.rename exchange
    m.Renamed exchange m' ∧
      m'.memory.bindings 0 = [("b", addition "b" "a")] ∧
      m'.memory.bindings 1 = [("a", .integer 5)] ∧
      (printing.run 5 0 m).1 = .failed (.unbound "b") ∧
      (p'.run 5 0 m').1 = .failed (.unbound "a") ∧
      ((p'.run 5 0 m').2.memory.bindings 0).get? "c" = some (.integer 7) ∧
      Event.output (p'.run 5 0 m').2.events = "fn(b) \x7b\n(a + b)\n\x7d\n7\n" := by
  have hrun : (printing.run 5 0 (.ofMemory memoryOfAddition)).1 = .failed (.unbound "b") := rfl
  have hbound : ((printing.run 5 0 (.ofMemory memoryOfAddition)).2.memory.bindings 0).get? "c" =
      some (.integer 7) := rfl
  have hprinted :
      (printing.run 5 0 (.ofMemory memoryOfAddition)).2.events.filterMap Event.printed? =
        [addition "a" "b", .integer 7] := rfl
  intro m m' p'
  have h := names_opaque (fun x y _ _ => swapped_injective x y) isName_swapped swapped_builtin
    printing 5 0 m
  obtain ⟨houtcome, hmachine, houtput⟩ := h.2 m' h.1
  refine ⟨h.1, ?_, ?_, hrun, ?_, ?_, ?_⟩
  · exact (memoryOfAddition.bindings_rename 0).trans rfl
  · exact (memoryOfAddition.bindings_rename 1).trans rfl
  · exact houtcome.trans (congrArg (Outcome.rename exchange) hrun)
  · exact (hmachine.memory.bindings 0 "c").trans
      (congrArg (Option.map (Value.rename exchange)) hbound)
  · refine houtput.trans ?_
    rw [hprinted]
    rfl

end Treewalk
