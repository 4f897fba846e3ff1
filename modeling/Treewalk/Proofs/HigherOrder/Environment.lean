import Treewalk.Proofs.HigherOrder.Functions
import Treewalk.Reading.Basic

namespace Treewalk

open Evaluation

/-- The text that binds the two functions. -/
def higherOrderText : String :=
  "let map = fn(arr, f) \x7b
     let iter = fn(arr, accumulated) \x7b
       if (len(arr) == 0) \x7b
         accumulated
       \x7d else \x7b
         iter(rest(arr), push(accumulated, f(first(arr))));
       \x7d
     \x7d;
     iter(arr, []);
   \x7d;
   let reduce = fn(arr, initial, f) \x7b
     let iter = fn(arr, result) \x7b
       if (len(arr) == 0) \x7b
         result
       \x7d else \x7b
         iter(rest(arr), f(result, first(arr)));
       \x7d
     \x7d;
     iter(arr, initial);
   \x7d;"

set_option maxRecDepth 4000 in
theorem parse_higherOrderText : parse higherOrderText = .ok higherOrder := by
  -- The characters are read off the literal. To find them in its bytes would take far longer.
  have hchars : higherOrderText.toList = _ := String.toList_ofList
  rw [parse, read, Scanner.ofText, hchars]
  decide +kernel

/-- In the scope, the names stand for the functions that were made as the text was run, and the
names of the built-in functions for nothing else. -/
structure Memory.HasLoops (m : Memory) (s : ScopeId) (k : Nat) : Prop where
  tidy : m.Tidy
  lt : s < m.scopes.size
  map : m.get? s "map" = some (Loop.map.function k s)
  reduce : m.get? s "reduce" = some (Loop.reduce.function (k + 1) s)
  free : ∀ b ∈ loopBuiltins, m.get? s b.name = none

theorem Memory.HasLoops.stamp {m : Memory} {s : ScopeId} {k : Nat} (h : m.HasLoops s k) :
    m.stamp.2.HasLoops s k :=
  ⟨h.tidy.stamp, h.lt, h.map, h.reduce, h.free⟩

/-- The functions are bound one after the other, and nothing else is done. -/
theorem run_higherOrder (n : Nat) (s : ScopeId) (m : Machine) :
    higherOrder.run (n + 1) s m = (.done .null, { m with
      memory := Memory.define
        (m.memory.stamp.2.define s "map" (Loop.map.function m.memory.nextStamp s)).stamp.2
        s "reduce" (Loop.reduce.function (m.memory.nextStamp + 1) s) }) := rfl

theorem hasLoops_run {m : Machine} {s : ScopeId} (htidy : m.memory.Tidy)
    (hs : s < m.memory.scopes.size)
    (hfree : ∀ b ∈ Memory.loopBuiltins, m.memory.get? s b.name = none) (n : Nat) :
    (higherOrder.run (n + 1) s m).2.memory.HasLoops s m.memory.nextStamp := by
  have htidied := (tidied_run higherOrder (n + 1) hs htidy).1.1
  rw [run_higherOrder] at htidied ⊢
  let μ := m.memory.stamp.2.define s "map" (Loop.map.function m.memory.nextStamp s)
  have hlt : s < μ.stamp.2.scopes.size := by
    show s < μ.scopes.size
    rwa [Memory.size_define]
  have hmap : μ.stamp.2.get? s "map" = some (Loop.map.function m.memory.nextStamp s) :=
    Memory.get?_define_self (m := m.memory.stamp.2) hs "map" _
  constructor
  · exact htidied
  · rwa [Memory.size_define]
  · exact (Memory.get?_define_of_ne (by simp) _).trans hmap
  · exact Memory.get?_define_self hlt "reduce" _
  · intro b hb
    have hname : "reduce" ≠ b.name ∧ "map" ≠ b.name := by cases b <;> decide
    rw [Memory.get?_define_of_ne hname.1]
    exact (Memory.get?_define_of_ne hname.2 _).trans (hfree b hb)

theorem Event.output_ofCall (arity depth : Nat) (es : List Event) :
    output (ofCall arity depth es) = output es := by
  show output (es ++ [.callEnded]) = output es
  simp [output_append, output]

/-- A loop prints what its applications print, and nothing else. -/
theorem Loop.output_events {l : Loop} {ending : Nat → List Event} {text : String}
    (hending : ∀ depth, Event.output (ending depth) = text) (depth : Nat)
    (Es : List (List Event)) :
    Event.output (l.events ending depth Es) = Event.output Es.flatten ++ text := by
  induction Es generalizing depth with
  | nil => simp [events, hending, Event.output]
  | cons es rest ih =>
    have hopening : ∀ fs, Event.output (opening ++ fs) = Event.output fs := fun _ => rfl
    have hclosing : Event.output l.closing = "" := by cases l <;> rfl
    rw [events, Event.output_ofCall, List.append_assoc, List.append_assoc, hopening]
    simp [Event.output_append, hclosing, ih, String.append_assoc]

theorem Loop.output_trace {l : Loop} {ending : Nat → List Event} {text : String}
    (hending : ∀ depth, Event.output (ending depth) = text) (depth : Nat)
    (Es : List (List Event)) :
    Event.output (l.trace ending depth Es) = Event.output Es.flatten ++ text := by
  rw [trace, Event.output_ofCall, output_events hending]

theorem Loop.output_finished (depth : Nat) : Event.output (finished depth) = "" := rfl

theorem Loop.output_stopped {es : List Event} (depth : Nat) :
    Event.output (stopped es depth) = Event.output es := by
  rw [stopped, Event.output_ofCall, Event.output_append, Event.output_map_deeper]
  exact String.empty_append

theorem Machine.output_of_seen {m m' : Machine} {es : List Event}
    (h : m'.seen = m.seen ++ es.map Event.seen) :
    Event.output m'.events = Event.output m.events ++ Event.output es := by
  rw [← Event.output_map_seen m'.events, ← Event.output_map_seen m.events,
    ← Event.output_map_seen es, ← Event.output_append]
  exact congrArg Event.output h

/-- A function that adds its arguments. -/
def adder (stamp : Nat) (scope : ScopeId) : Value :=
  .function stamp ["acc", "x"]
    [.expression (.binary .add (.identifier "acc") (.identifier "x"))] scope

/-- A function whose body is an expression comes to its value. -/
theorem call_of_evaluate {parameters : List String} {e : Expression} {arguments : List Value}
    {v : Value} {k n : Nat} {t : ScopeId} {M : Machine}
    (hlength : parameters.length = arguments.length) (hv : v.isReturned = false)
    (h : evaluate n M.memory.scopes.size e (M.entered parameters t arguments) =
      (.done v, M.entered parameters t arguments)) :
    ∃ M', (Value.function k parameters [.expression e] t).call n arguments M = (.done v, M') := by
  let Z : Outcome Value → Memory → Prop := fun outcome _ => outcome = .done v
  have hz : ∀ w μ, Z (.done w) μ → w.isReturned = false := by
    intro w μ hw
    rwa [Outcome.done.inj hw]
  have hbody : runBlock (evaluate n) M.memory.scopes.size [.expression e]
      (M.entered parameters t arguments) = (.done v, M.entered parameters t arguments) :=
    runBlock_expression.trans h
  have hconcludes : ((Value.function k parameters [.expression e] t).call n arguments).Concludes M Z
      (Event.ofCall parameters.length (M.callDepth + 1) []) :=
    .callValue hlength hz ⟨_, _, hbody, rfl, (List.append_nil _).symm⟩
  obtain ⟨outcome, M', hcall, rfl, _⟩ := hconcludes
  exact ⟨M', hcall⟩

theorem adder_call (k : Nat) (t : ScopeId) (i n : Int64) (M : Machine) :
    ∃ M', (adder k t).call 2 [.integer i, .integer n] M = (.done (.integer (i + n)), M') := by
  have hacc : evaluate 1 M.memory.scopes.size (.identifier "acc")
      (M.entered ["acc", "x"] t [.integer i, .integer n]) = (.done (.integer i), _) :=
    evaluate_name (Memory.get?_entered_of_lookup rfl)
  have hx : evaluate 1 M.memory.scopes.size (.identifier "x")
      (M.entered ["acc", "x"] t [.integer i, .integer n]) = (.done (.integer n), _) :=
    evaluate_name (Memory.get?_entered_of_lookup rfl)
  apply call_of_evaluate rfl rfl
  rw [evaluate, evalNode, bind_of_done hacc, bind_of_done hx]
  rfl

/-- A function that adds comes to the sum, element by element. -/
theorem exists_applies_adder (k : Nat) (t : ScopeId) (ns : List Int64) (i : Int64) (m : Memory) :
    ∃ Es μ, Loop.reduce.Applies (adder k t) 2 m [.integer i] (ns.map .integer) Es
      [.integer (ns.foldl (· + ·) i)] μ := by
  induction ns generalizing i m with
  | nil => exact ⟨[], m, .nil⟩
  | cons n ns ih =>
    obtain ⟨r, hcall⟩ := adder_call k t i n (.ofMemory m)
    obtain ⟨Es, μ, hrest⟩ := ih (i + n) r.memory
    exact ⟨r.events :: Es, μ, .cons hcall hrest⟩

theorem within_integers {m : Memory} (ns : List Int64) :
    ∀ a ∈ ns.map Value.integer, a.Within m := by
  intro a ha
  obtain ⟨n, _, rfl⟩ := List.mem_map.mp ha
  exact Value.within_of_isSimple rfl

theorem foldl_add_eq_ofInt (ns : List Int64) (i : Int64) :
    ns.foldl (· + ·) i = Int64.ofInt (i.toInt + (ns.map Int64.toInt).sum) := by
  induction ns generalizing i with
  | nil => simp
  | cons n ns ih =>
    have hsum : Int64.ofInt (i + n).toInt = Int64.ofInt (i.toInt + n.toInt) := by
      rw [Int64.ofInt_toInt, Int64.ofInt_add, Int64.ofInt_toInt, Int64.ofInt_toInt]
    rw [List.foldl_cons, ih, Int64.ofInt_add, hsum, ← Int64.ofInt_add, List.map_cons,
      List.sum_cons, Int.add_assoc]

/-- The function applies another one to the elements of an array, in order, and comes to the array
of the values. What those applications make by themselves is made here as well, under numbers of
its own. -/
structure Maps (map : Value) (m : Machine) : Prop where
  done : ∀ {f : Value} {as bs : List Value} {Es : List (List Event)} {μ : Memory}
      {budget n j : Nat}, f.Within m.memory → (∀ a ∈ as, a.Within m.memory) →
    as.length < 2 ^ 64 → budget + 2 * as.length + 7 ≤ n →
    Loop.map.Applies f budget m.memory [] as Es bs μ →
    ∃ (φ : Renaming) (k : Nat) (m' : Machine),
      map.call n [.array j as, f] m = (.done (.array k (bs.map (·.rename φ))), m') ∧
      φ.Copies m.memory μ m'.memory ∧
      m'.seen = m.seen ++ (Loop.map.trace Loop.finished m.callDepth Es).map Event.seen ∧
      Event.output m'.events = Event.output m.events ++ Event.output Es.flatten
  /-- The first application that fails is the last one. -/
  failed : ∀ {f a : Value} {as later bs : List Value} {Es : List (List Event)} {μ : Memory}
      {fault : Fault} {r : Machine} {budget n j : Nat}, f.Within m.memory →
    (∀ x ∈ as, x.Within m.memory) → a.Within m.memory →
    (as ++ a :: later).length < 2 ^ 64 → budget + 2 * (as ++ a :: later).length + 7 ≤ n →
    Loop.map.Applies f budget m.memory [] as Es bs μ →
    f.call budget [a] (.ofMemory μ) = (.failed fault, r) →
    ∃ m' : Machine, map.call n [.array j (as ++ a :: later), f] m = (.failed fault, m') ∧
      m'.seen = m.seen ++
        (Loop.map.trace (Loop.stopped r.events) m.callDepth Es).map Event.seen ∧
      Event.output m'.events =
        Event.output m.events ++ (Event.output Es.flatten ++ Event.output r.events)
  kept : ∀ (n : Nat) (arguments : List Value),
    m.memory.Extends (map.call n arguments m).2.memory

/-- With a function that adds, the function comes to the sum of integers, modulo `2 ^ 64`. -/
structure Sums (reduce : Value) (m : Machine) : Prop where
  done : ∀ {ns : List Int64} {i : Int64} {k j n : Nat} {t : ScopeId},
    (adder k t).Within m.memory → ns.length < 2 ^ 64 → 2 * ns.length + 9 ≤ n →
    (reduce.call n [.array j (ns.map .integer), .integer i, adder k t] m).1 =
      .done (.integer (Int64.ofInt (i.toInt + (ns.map Int64.toInt).sum)))
  kept : ∀ (n : Nat) (arguments : List Value),
    m.memory.Extends (reduce.call n arguments m).2.memory

theorem extends_call (callee : Value) (n : Nat) (arguments : List Value) (m : Machine) :
    m.memory.Extends (callee.call n arguments m).2.memory :=
  extends_callValue (framed_evaluate n) callee arguments m

section
variable {m : Machine} {s : ScopeId} {k : Nat} (h : m.memory.HasLoops s k)
include h

theorem maps_of_hasLoops : Maps (Loop.map.function k s) m := by
  constructor
  · intro f as bs Es μ budget n j hf has hlength hn happlies
    obtain ⟨n, rfl⟩ : ∃ i, n = i + 7 := ⟨n - 7, by omega⟩
    have hplain : ∀ (φ : Renaming) (y : Value), Loop.map.Holds (bs.map (·.rename φ)) y →
        y.isReturned = false := by
      rintro φ y ⟨i, rfl⟩
      rfl
    obtain ⟨y, m', hcall, ⟨φ, hcopies, _, i, rfl⟩, hseen⟩ :=
      Loop.function_done (l := .map) (v := .null) (n := n) h.tidy h.lt h.free
        (Value.within_of_isSimple rfl) hf happlies has hplain hlength (by omega)
    refine ⟨φ, i, m', hcall, hcopies, hseen, ?_⟩
    rw [Machine.output_of_seen hseen, Loop.output_trace Loop.output_finished,
      String.append_empty]
  · intro f a as later bs Es μ fault r budget n j hf has ha hlength hn happlies hfail
    obtain ⟨n, rfl⟩ : ∃ i, n = i + 7 := ⟨n - 7, by omega⟩
    obtain ⟨m', hcall, hseen⟩ :=
      Loop.function_failed (l := .map) (v := .null) (n := n) h.tidy h.lt h.free
        (Value.within_of_isSimple rfl) hf happlies has ha hfail hlength (by omega)
    refine ⟨m', hcall, hseen, ?_⟩
    rw [Machine.output_of_seen hseen, Loop.output_trace Loop.output_stopped]
  · exact fun n arguments => extends_call _ n arguments m

theorem sums_of_hasLoops : Sums (Loop.reduce.function (k + 1) s) m := by
  constructor
  · intro ns i k' j n t hf hlength hn
    obtain ⟨n, rfl⟩ : ∃ i, n = i + 7 := ⟨n - 7, by omega⟩
    obtain ⟨Es, μ, happlies⟩ := exists_applies_adder k' t ns i m.memory
    have hplain : ∀ (φ : Renaming) (y : Value), Loop.reduce.Holds
        ([Value.integer (ns.foldl (· + ·) i)].map (·.rename φ)) y → y.isReturned = false := by
      intro φ y hholds
      obtain rfl := List.singleton_inj.mp hholds
      rfl
    obtain ⟨y, m', hcall, ⟨φ, _, _, hholds⟩, _⟩ :=
      Loop.function_done (l := .reduce) (v := .integer i) (n := n) h.tidy h.lt h.free
        (Value.within_of_isSimple rfl) hf happlies (within_integers ns) hplain
        (by rwa [List.length_map]) (by rw [List.length_map]; omega)
    obtain rfl := List.singleton_inj.mp hholds
    rw [← foldl_add_eq_ofInt]
    exact congrArg Prod.fst hcall
  · exact fun n arguments => extends_call _ n arguments m

end

/-- The text binds two functions, and wherever these are at hand later on, one computes what it is
given for every element, the other one a sum. -/
theorem higherOrder_computes {m₀ : Machine} {s : ScopeId} (htidy : m₀.memory.Tidy)
    (hs : s < m₀.memory.scopes.size)
    (hfree : ∀ b ∈ Memory.loopBuiltins, m₀.memory.get? s b.name = none) (n : Nat) :
    ∃ p : Program, parse higherOrderText = .ok p ∧
      (p.run (n + 1) s m₀).1 = .done .null ∧
      (p.run (n + 1) s m₀).2.memory.HasLoops s m₀.memory.nextStamp ∧
      ∀ m : Machine, m.memory.HasLoops s m₀.memory.nextStamp →
        Maps (Loop.map.function m₀.memory.nextStamp s) m ∧
        Sums (Loop.reduce.function (m₀.memory.nextStamp + 1) s) m := by
  refine ⟨higherOrder, parse_higherOrderText, rfl, hasLoops_run htidy hs hfree n, ?_⟩
  intro m h
  exact ⟨maps_of_hasLoops h, sums_of_hasLoops h⟩

/-- A function that doubles. -/
def doubler (stamp : Nat) (scope : ScopeId) : Value :=
  .function stamp ["x"] [.expression (.binary .multiply (.identifier "x") (.integer 2))] scope

theorem doubler_call (k : Nat) (t : ScopeId) (n : Int64) (M : Machine) :
    ∃ M', (doubler k t).call 2 [.integer n] M = (.done (.integer (n * 2)), M') := by
  have hx : evaluate 1 M.memory.scopes.size (.identifier "x")
      (M.entered ["x"] t [.integer n]) = (.done (.integer n), _) :=
    evaluate_name (Memory.get?_entered_of_lookup rfl)
  apply call_of_evaluate rfl rfl
  rw [evaluate, evalNode, bind_of_done hx]
  rfl

theorem exists_applies_doubler (k : Nat) (t : ScopeId) (ns : List Int64) (m : Memory)
    (ws : List Value) :
    ∃ Es μ, Loop.map.Applies (doubler k t) 2 m ws (ns.map .integer) Es
      (ws ++ ns.map (fun n => .integer (n * 2))) μ := by
  induction ns generalizing m ws with
  | nil =>
    rw [List.map_nil, List.map_nil, List.append_nil]
    exact ⟨[], m, .nil⟩
  | cons n ns ih =>
    obtain ⟨r, hcall⟩ := doubler_call k t n (.ofMemory m)
    obtain ⟨Es, μ, hrest⟩ := ih r.memory (ws ++ [.integer (n * 2)])
    rw [List.append_assoc] at hrest
    exact ⟨r.events :: Es, μ, .cons hcall hrest⟩

theorem higherOrder_doubles_and_sums :
    let m₀ := Machine.ofMemory Memory.empty.newScope.2
    let m := (higherOrder.run 1 0 m₀).2.stamped.stamped
    m.memory.HasLoops 0 0 ∧
    (∃ i m', (Loop.map.function 0 0).call 15
      [.array 4 [.integer 1, .integer 2, .integer 3], doubler 2 0] m =
        (.done (.array i [.integer 2, .integer 4, .integer 6]), m')) ∧
    (∃ m', (Loop.map.function 0 0).call 15
      [.array 4 [.boolean true, .integer 3], doubler 2 0] m =
        (.failed (.typeMismatch .boolean .multiply .integer), m')) ∧
    ((Loop.reduce.function 1 0).call 19 [.array 4
      [.integer 1, .integer 2, .integer 3, .integer 4, .integer 5], .integer 0, adder 3 0] m).1 =
        .done (.integer 15) := by
  intro m₀ m
  obtain ⟨p, hparse, _, hloops, hall⟩ :=
    @higherOrder_computes m₀ 0 Memory.tidy_new (by decide) (fun _ _ => rfl) 0
  obtain rfl := Except.ok.inj (parse_higherOrderText.symm.trans hparse)
  have hm : m.memory.HasLoops 0 0 := hloops.stamp.stamp
  obtain ⟨hmap, hreduce⟩ := hall m hm
  have hdoubler : (doubler 2 0).Within m.memory := Value.within_function.mpr (by decide)
  constructor
  · exact hm
  constructor
  · obtain ⟨Es, μ, happlies⟩ := exists_applies_doubler 2 0 [1, 2, 3] m.memory []
    obtain ⟨φ, i, m', hcall, _⟩ :=
      hmap.done (n := 15) (j := 4) hdoubler (within_integers _) (by decide) (by decide) happlies
    exact ⟨i, m', hcall⟩
  constructor
  · have hfail : (doubler 2 0).call 2 [.boolean true] (.ofMemory m.memory) =
        (.failed (.typeMismatch .boolean .multiply .integer), _) := rfl
    have hlength : ([] ++ Value.boolean true :: [.integer 3]).length < 2 ^ 64 := by decide
    obtain ⟨m', hcall, _⟩ := hmap.failed (n := 15) (j := 4) hdoubler (within_integers [])
      (Value.within_of_isSimple rfl) hlength (by decide) .nil hfail
    exact ⟨m', hcall⟩
  · have hlength : ([1, 2, 3, 4, 5] : List Int64).length < 2 ^ 64 := by decide
    have hadder : (adder 3 0).Within m.memory := Value.within_function.mpr (by decide)
    have hsum := hreduce.done (n := 19) (i := 0) (j := 4) hadder hlength (by decide)
    exact hsum

end Treewalk
