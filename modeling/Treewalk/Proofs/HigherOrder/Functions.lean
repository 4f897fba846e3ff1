import Treewalk.Proofs.HigherOrder.Applications

namespace Treewalk

open Evaluation

namespace Loop

/-- What a loop starts with. -/
def initial : Loop → Value → List Value
  | map, _ => []
  | reduce, v => [v]

/-- The arguments of the function itself. -/
def given : Loop → Value → Value → Value → List Value
  | map, x, f, _ => [x, f]
  | reduce, x, f, v => [x, v, f]

/-- What the parameters stand for. -/
def locals (l : Loop) (x f v : Value) : List (String × Value) := l.parameters.zip (l.given x f v)

section
variable {l : Loop} {m : Memory} {M : Machine} {s t : ScopeId} {f x v : Value} {n : Nat}

theorem mem_locals {b : String × Value} (hb : b ∈ l.locals x f v) :
    b = ("arr", x) ∨ b = ("f", f) ∨ l = .reduce ∧ b = ("initial", v) := by
  cases l <;> simpa [locals, parameters, given, or_comm] using hb

theorem offers_entered (h : m.Stands t)
    (hfree : ∀ b ∈ Memory.loopBuiltins, m.get? t b.name = none) :
    (m.entered t (l.locals x f v)).Offers m.scopes.size (l.locals x f v) := by
  have hget : ∀ name, (m.entered t (l.locals x f v)).get? m.scopes.size name =
      ((l.locals x f v).reverse.lookup name).or (m.get? t name) :=
    Memory.get?_entered h
  constructor
  · intro b hb
    rw [hget]
    rcases mem_locals hb with rfl | rfl | ⟨rfl, rfl⟩
    · cases l <;> rfl
    · cases l <;> rfl
    · rfl
  · intro b hb
    rw [hget, hfree b hb]
    cases l <;> cases b <;> rfl

/-- The machine in which the body of the function is evaluated. -/
def started (l : Loop) (t : ScopeId) (x f v : Value) (M : Machine) : Machine :=
  M.entered l.parameters t (l.given x f v)

/-- The machine in which `iter` has just been bound. -/
def begun (l : Loop) (s : ScopeId) (M : Machine) : Machine :=
  { M.stamped with
    memory := M.stamped.memory.define s "iter" (l.iter M.memory.nextStamp s) }

theorem offers_begun (h : M.memory.Offers s (l.locals x f v)) (hs : s < M.memory.scopes.size) :
    (l.begun s M).memory.Offers s (("iter", l.iter M.memory.nextStamp s) :: l.locals x f v) := by
  have hother : ∀ name, "iter" ≠ name →
      (l.begun s M).memory.get? s name = M.memory.get? s name :=
    fun name hname => Memory.get?_define_of_ne hname _
  constructor
  · intro b hb
    rcases List.mem_cons.mp hb with rfl | hb
    · exact Memory.get?_define_self (m := M.stamped.memory) hs "iter" _
    · have hname : "iter" ≠ b.1 := by
        rcases mem_locals hb with rfl | rfl | ⟨_, rfl⟩ <;> simp
      rw [hother _ hname, h.bound b hb]
  · intro b hb
    rw [hother _ (by cases b <;> decide), h.free b hb]

/-- The body of the function goes on with a call of `iter`. -/
theorem runBlock_body (h : M.memory.Offers s (l.locals x f v)) (hs : s < M.memory.scopes.size) :
    runBlock (evaluate (n + 2)) s l.body M =
      (evaluate (n + 1) s l.start >>= fun y =>
        callValue (evaluate (n + 1)) (l.iter M.memory.nextStamp s) [x, y]) (l.begun s M) := by
  have ho := offers_begun h hs
  have hiter : runStatement (evaluate (n + 2)) s
      (.binding "iter" (.function ["arr", l.accumulator] [.expression l.round])) M =
        (.done .null, l.begun s M) := rfl
  have hname : evaluate (n + 1) s (.identifier "iter") (l.begun s M) =
      (.done (l.iter M.memory.nextStamp s), l.begun s M) :=
    evaluate_name (ho.bound _ List.mem_cons_self)
  have harr : evaluate (n + 1) s (.identifier "arr") (l.begun s M) = (.done x, l.begun s M) :=
    evaluate_name (ho.bound ("arr", x) (by cases l <;> simp [locals, parameters, given]))
  rw [runBlock, body, runStatements, bind_of_done hiter]
  refine runBlock_expression.trans ?_
  rw [evaluate, evalNode, bind_of_done hname, evalAll_pair_bind harr]

/-- What `iter` starts with is at hand, or made. -/
theorem evaluate_start {bs : List (String × Value)} (h : M.memory.Offers s bs)
    (hbs : l.locals x f v ⊆ bs) :
    ∃ y M', evaluate (n + 1) s l.start M = (.done y, M') ∧ l.Holds (l.initial v) y ∧
      M'.memory.scopes = M.memory.scopes ∧ M.memory.nextStamp ≤ M'.memory.nextStamp ∧
      M'.seen = M.seen ∧ M'.callDepth = M.callDepth := by
  cases l with
  | map => exact ⟨_, M.stamped, rfl, ⟨_, rfl⟩, rfl, Nat.le_succ _, rfl, rfl⟩
  | reduce =>
    have hname : evaluate (n + 1) s reduce.start M = (.done v, M) :=
      evaluate_name (h.bound ("initial", v) (hbs (by simp [locals, parameters, given])))
    exact ⟨v, M, hname, rfl, rfl, Nat.le_refl _, rfl, rfl⟩

end

/-- What a call of the function records whose applications record the events given. -/
def trace (l : Loop) (ending : Nat → List Event) (depth : Nat) (Es : List (List Event)) :
    List Event :=
  Event.ofCall l.parameters.length (depth + 1) (l.events ending (depth + 1) Es)

section
variable {l : Loop} {M : Machine} {t : ScopeId} {f x v : Value} {n : Nat}

theorem lt_size_started :
    M.memory.scopes.size < (l.started t x f v M).memory.scopes.size := by
  show _ < (M.memory.entered t (l.locals x f v)).scopes.size
  rw [Memory.size_entered]
  exact Nat.lt_succ_self _

theorem nextStamp_started :
    (l.started t x f v M).memory.nextStamp = M.memory.nextStamp :=
  Memory.nextStamp_entered

theorem extends_begun :
    M.memory.Extends (l.begun M.memory.scopes.size (l.started t x f v M)).memory := by
  have hext : M.memory.Extends (l.started t x f v M).memory.stamp.2 :=
    Memory.extends_entered.trans (.of_scopes_eq rfl)
  exact hext.define (Nat.le_refl _) _ _

/-- With `iter` bound, the scope of the call is the stage for the loop. -/
theorem stage_begun (h : M.memory.Stands t)
    (ho : (l.started t x f v M).memory.Offers M.memory.scopes.size (l.locals x f v)) :
    Stage (l.begun M.memory.scopes.size (l.started t x f v M)).memory M.memory.scopes.size
      (l.iter M.memory.nextStamp M.memory.scopes.size) f := by
  have hentered : (M.memory.entered t (l.locals x f v)).Stands M.memory.scopes.size :=
    Memory.stands_entered h
  have hstamped : (l.started t x f v M).memory.stamp.2.Stands M.memory.scopes.size :=
    ⟨hentered.lt, hentered.around⟩
  have hoffers := offers_begun ho lt_size_started
  rw [nextStamp_started] at hoffers
  refine ⟨hstamped.define _ _, hoffers.mono ?_⟩
  cases l <;> simp [locals, parameters, given]

/-- What the loop starts with was there before the call. -/
theorem represents_initial (htidy : M.memory.Tidy) (hv : v.Within M.memory)
    (h : l.Holds (l.initial v) x) :
    l.Represents M.memory M.memory (l.initial v) M.memory x := by
  refine ⟨.shift 0 0, Renaming.copies_self htidy, ?_, ?_⟩
  · cases l <;> simp [initial, hv]
  · rwa [funext Value.rename_identity, List.map_id']

/-- The function sets the stage for the loop and calls `iter` for the first time. -/
theorem exists_first_call (htidy : M.memory.Tidy) (ht : t < M.memory.scopes.size)
    (hfree : ∀ b ∈ Memory.loopBuiltins, M.memory.get? t b.name = none) (hv : v.Within M.memory) :
    ∃ y M', runBlock (evaluate (n + 2)) M.memory.scopes.size l.body (l.started t x f v M) =
          callValue (evaluate (n + 1)) (l.iter M.memory.nextStamp M.memory.scopes.size) [x, y] M' ∧
      l.Represents M.memory M.memory (l.initial v) M'.memory y ∧
      Stage M'.memory M.memory.scopes.size (l.iter M.memory.nextStamp M.memory.scopes.size) f ∧
      M'.seen = (l.started t x f v M).seen ∧ M'.callDepth = M.callDepth + 1 := by
  have hstands := htidy.stands ht
  have ho : (l.started t x f v M).memory.Offers M.memory.scopes.size (l.locals x f v) :=
    offers_entered hstands hfree
  have hbody := runBlock_body (n := n) ho lt_size_started
  obtain ⟨y, M', hstart, hholds, hscopes, hle, hseen, hdepth⟩ :=
    evaluate_start (n := n) (offers_begun ho lt_size_started) (List.subset_cons_self _ _)
  rw [nextStamp_started] at hbody
  refine ⟨y, M', hbody.trans (bind_of_done hstart), ?_, ?_, hseen, hdepth⟩
  · apply (represents_initial htidy hv hholds).onward (extends_begun.trans (.of_scopes_eq hscopes))
    exact Nat.le_of_succ_le (nextStamp_started ▸ hle)
  · exact (stage_begun hstands ho).extends (.of_scopes_eq hscopes)

variable {m : Memory} {a : Value} {as later ws : List Value} {Es : List (List Event)}
  {j k budget : Nat} {r : Machine}

variable (htidy : M.memory.Tidy) (ht : t < M.memory.scopes.size)
  (hfree : ∀ b ∈ Memory.loopBuiltins, M.memory.get? t b.name = none) (hv : v.Within M.memory)
  (hf : f.Within M.memory) (h : l.Applies f budget M.memory (l.initial v) as Es ws m)
  (has : ∀ a ∈ as, a.Within M.memory)
include htidy ht hfree hv hf h has

/-- The function ends as its loop does. -/
theorem function_concludes {Z : Outcome Value → Memory → Prop} {ending : Nat → List Event}
    (hz : ∀ v μ, Z (.done v) μ → v.isReturned = false)
    (hend : ∀ {M' : Machine} {y : Value} {k n s i : Nat}, l.Represents M.memory m ws M'.memory y →
      Stage M'.memory s (l.iter i s) f → budget + 2 * later.length ≤ n →
        ((l.iter i s).call (n + 6) [.array k later, y]).Concludes M' Z (ending M'.callDepth))
    (hn : budget + 2 * (as ++ later).length ≤ n) (hlength : (as ++ later).length < 2 ^ 64) :
    ((l.function k t).call (n + 7) (l.given (.array j (as ++ later)) f v)).Concludes M Z
      (l.trace ending M.callDepth Es) := by
  obtain ⟨y, M', hbody, hrep, hstage, hseen, hdepth⟩ :=
    exists_first_call (n := n + 5) (x := .array j (as ++ later)) (f := f) htidy ht hfree hv
  obtain ⟨outcome, M'', hcall, hz', hseen'⟩ :=
    h.concludes (k := j) hz hf has hend hrep hstage hn hlength
  refine Evaluation.Concludes.callValue (by cases l <;> rfl) hz ?_
  rw [hseen, hdepth] at hseen'
  exact ⟨outcome, M'', hbody.trans hcall, hz', hseen'⟩

/-- If all applications succeed, the function comes to what they have accumulated. -/
theorem function_done
    (hplain : ∀ (φ : Renaming) (y : Value), l.Holds (ws.map (·.rename φ)) y → y.isReturned = false)
    (hlength : as.length < 2 ^ 64) (hn : budget + 2 * as.length ≤ n) :
    ∃ y M', (l.function k t).call (n + 7) (l.given (.array j as) f v) M = (.done y, M') ∧
      l.Represents M.memory m ws M'.memory y ∧
      M'.seen = M.seen ++ (l.trace finished M.callDepth Es).map Event.seen := by
  let Z : Outcome Value → Memory → Prop := fun outcome μ =>
    ∃ y, outcome = .done y ∧ l.Represents M.memory m ws μ y
  have hz : ∀ v μ, Z (.done v) μ → v.isReturned = false := by
    rintro v μ ⟨y, hy, φ, _, _, hholds⟩
    rw [Outcome.done.inj hy]
    exact hplain φ y hholds
  rw [← List.append_nil as] at hn hlength ⊢
  have hconcludes : ((l.function k t).call (n + 7)
      (l.given (.array j (as ++ [])) f v)).Concludes M Z (l.trace finished M.callDepth Es) := by
    apply function_concludes htidy ht hfree hv hf h has hz _ hn hlength
    intro M' y k n s i hrep hstage _
    apply finished_concludes hz hstage
    exact ⟨y, rfl, hrep.onward Memory.extends_entered (Nat.le_of_eq Memory.nextStamp_entered.symm)⟩
  obtain ⟨outcome, M', hcall, ⟨y, rfl, hrep⟩, hseen⟩ := hconcludes
  exact ⟨y, M', hcall, hrep, hseen⟩

/-- If an application fails, the function fails as it does, and nothing is applied any more. -/
theorem function_failed {fault : Fault} (ha : a.Within M.memory)
    (hfail : f.call budget (l.arguments ws a) (.ofMemory m) = (.failed fault, r))
    (hlength : (as ++ a :: later).length < 2 ^ 64)
    (hn : budget + 2 * (as ++ a :: later).length ≤ n) :
    ∃ M', (l.function k t).call (n + 7) (l.given (.array j (as ++ a :: later)) f v) M =
        (.failed fault, M') ∧
      M'.seen = M.seen ++ (l.trace (stopped r.events) M.callDepth Es).map Event.seen := by
  let Z : Outcome Value → Memory → Prop := fun outcome _ => outcome = .failed fault
  have hz : ∀ v μ, Z (.done v) μ → v.isReturned = false := fun v μ hv => nomatch hv
  have hlater : (a :: later).length < 2 ^ 64 := by
    rw [List.length_append] at hlength
    omega
  have hconcludes : ((l.function k t).call (n + 7)
      (l.given (.array j (as ++ a :: later)) f v)).Concludes M Z
        (l.trace (stopped r.events) M.callDepth Es) := by
    apply function_concludes htidy ht hfree hv hf h has hz _ hn hlength
    intro M' y k n s i hrep hstage hle
    exact stopped_concludes hz hrep hf ha hstage (by omega) hlater hfail (fun _ => rfl)
  obtain ⟨outcome, M', hcall, rfl, hseen⟩ := hconcludes
  exact ⟨M', hcall, hseen⟩

end

end Loop

end Treewalk
