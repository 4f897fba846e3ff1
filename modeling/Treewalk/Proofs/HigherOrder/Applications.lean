import Treewalk.Proofs.HigherOrder.Rounds
import Treewalk.Proofs.Renaming.Copies

namespace Treewalk

open Evaluation

namespace Loop

/-- What the function is applied to, after the values given were accumulated. -/
def arguments : Loop → List Value → Value → List Value
  | map, _, a => [a]
  | reduce, ws, a => ws ++ [a]

/-- What is accumulated after an application. -/
def accumulate : Loop → List Value → Value → List Value
  | map, ws, b => ws ++ [b]
  | reduce, _, b => [b]

/-- The value that a loop keeps for what it has accumulated. -/
def Holds : Loop → List Value → Value → Prop
  | map, ws, y => ∃ k, y = .array k ws
  | reduce, ws, y => ws = [y]

/-- Within the budget, the function can be applied to one element after the other, and nothing else
is done. Each application records the events of one list. In truth the loop makes scopes and arrays
of its own in between, so what the function makes gets other numbers there. -/
inductive Applies (l : Loop) (f : Value) (budget : Nat) :
    Memory → List Value → List Value → List (List Event) → List Value → Memory → Prop where
  | nil {m : Memory} {ws : List Value} : Applies l f budget m ws [] [] ws m
  | cons {m m' : Memory} {r : Machine} {a b : Value} {ws as ws' : List Value}
      {Es : List (List Event)}
      (h : f.call budget (l.arguments ws a) (.ofMemory m) = (.done b, r))
      (hrest : Applies l f budget r.memory (l.accumulate ws b) as Es ws' m') :
    Applies l f budget m ws (a :: as) (r.events :: Es) ws' m'

/-- What `iter` records before and after an application. -/
def opening : List Event := [.builtinCalled .len 1, .builtinCalled .rest 1, .builtinCalled .first 1]

def closing : Loop → List Event
  | map => [.builtinCalled .push 2]
  | reduce => []

/-- What a loop records whose applications record the events given by themselves, until it comes to
its end. -/
def events (l : Loop) (ending : Nat → List Event) : Nat → List (List Event) → List Event
  | depth, [] => ending depth
  | depth, es :: rest =>
    Event.ofCall 2 (depth + 1) (opening ++ es.map (Event.deeper (depth + 1)) ++ l.closing ++
      events l ending (depth + 1) rest)

/-- The end of a loop that has come to the end of its array. -/
def finished (depth : Nat) : List Event := Event.ofCall 2 (depth + 1) [.builtinCalled .len 1]

/-- The end of a loop in which the last application fails. -/
def stopped (es : List Event) (depth : Nat) : List Event :=
  Event.ofCall 2 (depth + 1) (opening ++ es.map (Event.deeper (depth + 1)))

/-- The scope in which `iter` was made. -/
structure Stage (m : Memory) (s : ScopeId) (i f : Value) : Prop where
  stands : m.Stands s
  offers : m.Offers s [("iter", i), ("f", f)]

section
variable {l : Loop} {m m' μ : Memory} {s : ScopeId} {i f x y : Value} {ws : List Value}

theorem Stage.extends (h : Stage m s i f) (hext : m.Extends m') : Stage m' s i f :=
  ⟨hext.stands h.stands, hext.offers h.stands h.offers⟩

theorem Stage.enter (h : Stage m s i f) :
    (m.entered s [("arr", x), (l.accumulator, y)]).Offers m.scopes.size (l.bindings x y i f) := by
  have hget : ∀ name, (m.entered s [("arr", x), (l.accumulator, y)]).get? m.scopes.size name =
      ([(l.accumulator, y), ("arr", x)].lookup name).or (m.get? s name) :=
    Memory.get?_entered h.stands
  have hiter := h.offers.bound ("iter", i) (by simp)
  have hf := h.offers.bound ("f", f) (by simp)
  constructor
  · intro b hb
    rw [hget]
    simp only [bindings, List.mem_cons, List.not_mem_nil, or_false] at hb
    rcases hb with rfl | rfl | rfl | rfl
    · cases l <;> rfl
    · cases l <;> rfl
    · cases l <;> exact hiter
    · cases l <;> exact hf
  · intro b hb
    have hfree := h.offers.free b hb
    rw [hget, hfree]
    cases l <;> cases b <;> rfl

/-- In the memory `μ`, the value stands for what has been accumulated in `m'`, up to the numbers of
what was made after `m`. -/
def Represents (l : Loop) (m m' : Memory) (ws : List Value) (μ : Memory) (y : Value) : Prop :=
  ∃ φ : Renaming, φ.Copies m m' μ ∧ (∀ w ∈ ws, w.Within m') ∧ l.Holds (ws.map (·.rename φ)) y

theorem Represents.onward (h : l.Represents m m' ws μ y) {μ' : Memory} (hext : μ.Extends μ')
    (hstamp : μ.nextStamp ≤ μ'.nextStamp) : l.Represents m m' ws μ' y := by
  obtain ⟨φ, hcopies, hws, hholds⟩ := h
  obtain ⟨ψ, hcopies', hvalue⟩ := hcopies.onward hext hstamp
  refine ⟨ψ, hcopies', hws, ?_⟩
  rwa [List.map_congr_left (fun w hw => hvalue w (hws w hw))]

end

section
variable {l : Loop} {m m' : Memory} {s : ScopeId} {M : Machine} {i f y a b : Value}
  {as ws : List Value} {n k budget : Nat} {r : Machine}

theorem evaluate_step_map
    (h : M.memory.Offers s (map.bindings (.array k (a :: as)) y i f)) :
    evaluate (n + 4) s map.step M =
      (f.call (n + 2) [a] >>= fun b => callValue (evaluate (n + 3)) (.builtin .push) [y, b])
        (M.record (.builtinCalled .first 1)) := by
  have hpush : evaluate (n + 3) s (.identifier "push") M = (.done (.builtin .push), M) :=
    evaluate_builtinName (b := .push) (h.free _ (by decide))
  have hacc : evaluate (n + 3) s (.identifier "accumulated") M = (.done y, M) :=
    evaluate_name (h.bound ("accumulated", y) (by simp [bindings, accumulator]))
  have hf : evaluate (n + 2) s (.identifier "f") M = (.done f, M) :=
    evaluate_name (h.bound ("f", f) (by simp [bindings]))
  have hfirst : evalAll (evaluate (n + 2) s) [.call (.identifier "first") [.identifier "arr"]] M =
      (.done [a], M.record (.builtinCalled .first 1)) :=
    evalAll_cons (evaluate_first h List.mem_cons_self) rfl
  have hcall : evaluate (n + 3) s
      (.call (.identifier "f") [.call (.identifier "first") [.identifier "arr"]]) M =
        f.call (n + 2) [a] (M.record (.builtinCalled .first 1)) := by
    rw [evaluate, evalNode, bind_of_done hf, bind_of_done hfirst]
    rfl
  rw [evaluate, step, evalNode, bind_of_done hpush, evalAll_pair_bind hacc, bind_apply, hcall,
    bind_apply]

theorem evaluate_step_reduce
    (h : M.memory.Offers s (reduce.bindings (.array k (a :: as)) y i f)) :
    evaluate (n + 4) s reduce.step M =
      f.call (n + 3) [y, a] (M.record (.builtinCalled .first 1)) := by
  have hf : evaluate (n + 3) s (.identifier "f") M = (.done f, M) :=
    evaluate_name (h.bound ("f", f) (by simp [bindings]))
  have hacc : evaluate (n + 3) s (.identifier "result") M = (.done y, M) :=
    evaluate_name (h.bound ("result", y) (by simp [bindings, accumulator]))
  have hfirst : evalAll (evaluate (n + 3) s) [.call (.identifier "first") [.identifier "arr"]] M =
      (.done [a], M.record (.builtinCalled .first 1)) :=
    evalAll_cons (evaluate_first h List.mem_cons_self) rfl
  rw [evaluate, step, evalNode, bind_of_done hf, bind_of_done (evalAll_cons hacc hfirst)]
  rfl

end

section
variable {l : Loop} {m m' : Memory} {s : ScopeId} {M : Machine} {i f y a b : Value}
  {as ws : List Value} {n k budget : Nat} {r : Machine} {φ : Renaming}

theorem arguments_map (h : φ.Copies m m' M.memory) (ha : a.Within m) :
    (l.arguments ws a).map (·.rename φ) = l.arguments (ws.map (·.rename φ)) a := by
  cases l <;> simp [arguments, h.rename_eq ha]

theorem accumulate_map :
    (l.accumulate ws b).map (·.rename φ) = l.accumulate (ws.map (·.rename φ)) (b.rename φ) := by
  cases l <;> simp [accumulate]

theorem forall_mem_accumulate {P : Value → Prop} (hws : ∀ w ∈ ws, P w) (hb : P b) :
    ∀ w ∈ l.accumulate ws b, P w := by
  cases l with
  | map =>
    intro w hw
    rcases List.mem_append.mp hw with hw | hw
    · exact hws w hw
    · rwa [List.mem_singleton.mp hw]
  | reduce =>
    intro w hw
    rwa [List.mem_singleton.mp hw]

variable (hcopies : φ.Copies m m' M.memory) (hf : f.Within m) (ha : a.Within m)
  (hle : budget ≤ n)
include hcopies hf ha hle

theorem call_done (hws : ∀ w ∈ ws, w.Within m')
    (h : f.call budget (l.arguments ws a) (.ofMemory m') = (.done b, r)) :
    ∃ b' M', f.call n (l.arguments (ws.map (·.rename φ)) a) M = (.done b', M') ∧
      (∀ y, l.Holds (l.accumulate (ws.map (·.rename φ)) b') y →
        l.Represents m r.memory (l.accumulate ws b) M'.memory y) ∧
      M.memory.Extends M'.memory ∧
      M'.seen = M.seen ++ (r.events.map (Event.deeper M.callDepth)).map Event.seen := by
  have harguments : ∀ v ∈ l.arguments ws a, v.Within m' := by
    have ha' := ha.later hcopies.later
    cases l with
    | map => simpa [arguments] using ha'
    | reduce => simpa [arguments, or_imp, forall_and] using ⟨hws, ha'⟩
  obtain ⟨M', hcall, hcopies', hlater, hb, hseen⟩ :=
    hcopies.call_done hle (hf.later hcopies.later) harguments h
  rw [hcopies.rename_eq hf, arguments_map hcopies ha] at hcall
  have hext := extends_callValue (framed_evaluate n) f (l.arguments (ws.map (·.rename φ)) a) M
  refine ⟨b.rename φ, M', hcall, ?_, ?_, hseen⟩
  · intro y hy
    refine ⟨φ, hcopies', forall_mem_accumulate (fun w hw => (hws w hw).later hlater) hb, ?_⟩
    rwa [accumulate_map]
  · rwa [show callValue (evaluate n) f _ M = _ from hcall] at hext

theorem call_failed {fault : Fault}
    (h : f.call budget (l.arguments ws a) (.ofMemory m') = (.failed fault, r)) :
    ∃ M', f.call n (l.arguments (ws.map (·.rename φ)) a) M = (.failed fault, M') ∧
      M'.seen = M.seen ++ (r.events.map (Event.deeper M.callDepth)).map Event.seen := by
  have hcall := hcopies.call_failed hle h
  rwa [hcopies.rename_eq hf, arguments_map hcopies ha] at hcall

end

section
variable {l : Loop} {m m' : Memory} {s : ScopeId} {M : Machine} {i f y a b : Value}
  {as ws : List Value} {n k budget : Nat} {r : Machine}
  (hrep : l.Represents m m' ws M.memory y) (hf : f.Within m) (ha : a.Within m)
  (ho : M.memory.Offers s (l.bindings (.array k (a :: as)) y i f)) (hle : budget ≤ n + 2)
include hrep hf ha ho hle

/-- An application that succeeds by itself does so in the loop. -/
theorem evaluate_step_done
    (h : f.call budget (l.arguments ws a) (.ofMemory m') = (.done b, r)) :
    ∃ y' M', evaluate (n + 4) s l.step M = (.done y', M') ∧
      l.Represents m r.memory (l.accumulate ws b) M'.memory y' ∧ M.memory.Extends M'.memory ∧
      M'.seen = M.seen ++ (.builtinCalled .first 1 ::
        (r.events.map (Event.deeper M.callDepth) ++ l.closing)).map Event.seen := by
  obtain ⟨φ, hcopies, hws, hholds⟩ := hrep
  have hfirst : φ.Copies m m' (M.record (.builtinCalled .first 1)).memory := hcopies
  cases l with
  | map =>
    obtain ⟨j, rfl⟩ := hholds
    obtain ⟨b', M', hcall, hrep, hext, hseen⟩ := call_done hfirst hf ha hle hws h
    refine ⟨_, (M'.record (.builtinCalled .push 2)).stamped, ?_,
      (hrep _ ⟨M'.memory.nextStamp, rfl⟩).onward (.of_scopes_eq rfl) (Nat.le_succ _),
      hext.trans (.of_scopes_eq rfl), ?_⟩
    · rw [evaluate_step_map ho]
      exact bind_of_done hcall
    · rw [Machine.seen_stamped, Machine.seen_record, hseen]
      simp [closing]
  | reduce =>
    obtain ⟨b', M', hcall, hrep, hext, hseen⟩ :=
      call_done hfirst hf ha (Nat.le_succ_of_le hle) hws h
    rw [hholds] at hcall
    refine ⟨b', M', (evaluate_step_reduce ho).trans hcall, hrep b' rfl, hext, ?_⟩
    rw [hseen]
    simp [closing]

/-- An application that fails by itself fails in the loop, and in the same way. -/
theorem evaluate_step_failed {fault : Fault}
    (h : f.call budget (l.arguments ws a) (.ofMemory m') = (.failed fault, r)) :
    ∃ M', evaluate (n + 4) s l.step M = (.failed fault, M') ∧
      M'.seen = M.seen ++ (.builtinCalled .first 1 ::
        r.events.map (Event.deeper M.callDepth)).map Event.seen := by
  obtain ⟨φ, hcopies, hws, hholds⟩ := hrep
  have hfirst : φ.Copies m m' (M.record (.builtinCalled .first 1)).memory := hcopies
  cases l with
  | map =>
    obtain ⟨M', hcall, hseen⟩ := call_failed hfirst hf ha hle h
    refine ⟨M', ?_, by simpa using hseen⟩
    rw [evaluate_step_map ho]
    exact bind_of_failed hcall
  | reduce =>
    obtain ⟨M', hcall, hseen⟩ := call_failed hfirst hf ha (Nat.le_succ_of_le hle) h
    rw [hholds] at hcall
    refine ⟨M', (evaluate_step_reduce ho).trans hcall, by simpa using hseen⟩

end

/-- The machine in which `iter` looks at the array. -/
def called (l : Loop) (s : ScopeId) (x y : Value) (M : Machine) : Machine :=
  M.entered ["arr", l.accumulator] s [x, y]

/-- The machine in which `iter`, with an array that is not empty, applies the function. -/
def advanced (l : Loop) (s : ScopeId) (x y : Value) (M : Machine) : Machine :=
  (((l.called s x y M).record (.builtinCalled .len 1)).record (.builtinCalled .rest 1)).stamped

section
variable {l : Loop} {m m' m'' : Memory} {s : ScopeId} {M : Machine} {f x y a b : Value}
  {as later ws ws' : List Value} {Es : List (List Event)} {n j k budget : Nat} {r : Machine}

theorem extends_advanced : M.memory.Extends (l.advanced s x y M).memory :=
  Memory.extends_entered.trans (.of_scopes_eq rfl)

theorem nextStamp_le_advanced : M.memory.nextStamp ≤ (l.advanced s x y M).memory.nextStamp :=
  Nat.le_succ_of_le (Nat.le_of_eq Memory.nextStamp_entered.symm)

theorem Stage.advance (h : Stage M.memory s (l.iter j s) f) :
    (l.advanced s x y M).memory.Offers M.memory.scopes.size (l.bindings x y (l.iter j s) f) :=
  h.enter.stamp

theorem seen_advanced : (l.advanced s x y M).seen = (l.called s x y M).seen ++
    [Event.builtinCalled .len 1, .builtinCalled .rest 1].map Event.seen := by
  simp [advanced]

variable {Z : Outcome Value → Memory → Prop} {es : List Event} {ending : Nat → List Event}
  (hz : ∀ v μ, Z (.done v) μ → v.isReturned = false)

include hz in
theorem iter_concludes
    (h : (evaluate n M.memory.scopes.size l.round).Concludes (l.called s x y M) Z es) :
    ((l.iter j s).call n [x, y]).Concludes M Z (Event.ofCall 2 (M.callDepth + 1) es) := by
  refine Evaluation.Concludes.callValue rfl hz ?_
  obtain ⟨outcome, M', hend, hrest⟩ := h
  exact ⟨outcome, M', runBlock_expression.trans hend, hrest⟩

include hz in
/-- If a loop ends so from where some applications have led, it ends so after them. -/
theorem Applies.concludes (h : l.Applies f budget m' ws as Es ws' m'') (hf : f.Within m)
    (has : ∀ a ∈ as, a.Within m)
    (hend : ∀ {M y k n}, l.Represents m m'' ws' M.memory y → Stage M.memory s (l.iter j s) f →
      budget + 2 * later.length ≤ n →
        ((l.iter j s).call (n + 6) [.array k later, y]).Concludes M Z (ending M.callDepth))
    (hrep : l.Represents m m' ws M.memory y) (hstage : Stage M.memory s (l.iter j s) f)
    (hn : budget + 2 * (as ++ later).length ≤ n) (hlength : (as ++ later).length < 2 ^ 64) :
    ((l.iter j s).call (n + 6) [.array k (as ++ later), y]).Concludes M Z
      (l.events ending M.callDepth Es) := by
  induction h generalizing M y k n with
  | nil => exact hend hrep hstage hn
  | @cons m₁ m₂ r a b ws as ws' Es happly _ ih =>
    obtain ⟨ha, has⟩ := List.forall_mem_cons.mp has
    rw [List.cons_append, List.length_cons] at hn hlength
    -- The next round is nested in this one and has a budget that is smaller by two.
    obtain ⟨n, rfl⟩ : ∃ i, n = i + 2 := ⟨n - 2, by omega⟩
    have hadvanced := hrep.onward (extends_advanced (l := l) (s := s)
      (x := .array k (a :: (as ++ later))) (y := y)) nextStamp_le_advanced
    obtain ⟨y', M', hstep, hrep', hext, hseen⟩ :=
      evaluate_step_done (n := n + 2) hadvanced hf ha hstage.advance (by omega) happly
    have hdepth : M'.callDepth = M.callDepth + 1 := by
      have hsame := (Built.evaluate (n + 6) M.memory.scopes.size l.step).callDepth_eq
        (l.advanced s (.array k (a :: (as ++ later))) y M)
      rwa [hstep] at hsame
    have hrest := ih (n := n)
      (k := (l.called s (.array k (a :: (as ++ later))) y M).memory.nextStamp) has hend hrep'
      (hstage.extends (extends_advanced.trans hext)) (by omega) (by omega)
    rw [hdepth] at hrest
    have hevents : opening ++ r.events.map (Event.deeper (M.callDepth + 1)) ++ l.closing ++
        l.events ending (M.callDepth + 1) Es =
          [.builtinCalled .len 1, .builtinCalled .rest 1] ++ ((.builtinCalled .first 1 ::
            (r.events.map (Event.deeper (M.callDepth + 1)) ++ l.closing)) ++
              l.events ending (M.callDepth + 1) Es) := by
      simp [opening]
    rw [events, hevents]
    apply iter_concludes hz
    apply Evaluation.Concludes.after (evaluate_round_cons (n := n + 4) hstage.enter hlength)
      seen_advanced
    exact .after (bind_of_done hstep) hseen hrest

include hz in
/-- A loop whose array is empty ends with what has been accumulated. -/
theorem finished_concludes (hstage : Stage M.memory s (l.iter j s) f)
    (hend : Z (.done y) (l.called s (.array k []) y M).memory) :
    ((l.iter j s).call (n + 6) [.array k [], y]).Concludes M Z (finished M.callDepth) := by
  apply iter_concludes hz
  refine ⟨_, _, evaluate_round_nil (n := n + 2) hstage.enter, hend, ?_⟩
  simp

include hz in
/-- A loop ends with the first application that fails, and fails as this does. -/
theorem stopped_concludes {fault : Fault} (hrep : l.Represents m m' ws M.memory y)
    (hf : f.Within m) (ha : a.Within m) (hstage : Stage M.memory s (l.iter j s) f)
    (hn : budget ≤ n) (hlength : (a :: later).length < 2 ^ 64)
    (h : f.call budget (l.arguments ws a) (.ofMemory m') = (.failed fault, r))
    (hend : ∀ μ, Z (.failed fault) μ) :
    ((l.iter j s).call (n + 6) [.array k (a :: later), y]).Concludes M Z
      (stopped r.events M.callDepth) := by
  have hadvanced := hrep.onward (extends_advanced (l := l) (s := s) (x := .array k (a :: later))
    (y := y)) nextStamp_le_advanced
  obtain ⟨M', hstep, hseen⟩ :=
    evaluate_step_failed (n := n) hadvanced hf ha hstage.advance (by omega) h
  have hevents : opening ++ r.events.map (Event.deeper (M.callDepth + 1)) =
      [.builtinCalled .len 1, .builtinCalled .rest 1] ++ (.builtinCalled .first 1 ::
        r.events.map (Event.deeper (M.callDepth + 1))) := rfl
  rw [stopped, hevents]
  apply iter_concludes hz
  apply Evaluation.Concludes.after (evaluate_round_cons (n := n + 2) hstage.enter hlength)
    seen_advanced
  exact ⟨_, M', bind_of_failed hstep, hend _, hseen⟩

end

end Loop

end Treewalk
