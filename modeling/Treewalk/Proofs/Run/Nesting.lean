import Mathlib.Data.Nat.Find
import Treewalk.Proofs.Run.Budget
import Treewalk.Proofs.Run.Closed
import Treewalk.Session.Basic

namespace Treewalk

open Evaluation

mutual

/-- The number of expressions on the longest way down the tree. Statements do not count. -/
def Expression.height : Expression → Nat
  | .unary _ e => e.height + 1
  | .binary _ a b => max a.height b.height + 1
  | .conditional c body none => max c.height (blockHeight body) + 1
  | .conditional c body (some other) => max c.height (max (blockHeight body) (blockHeight other)) + 1
  | .function _ body => blockHeight body + 1
  | .call f arguments => max f.height (listHeight arguments) + 1
  | .array elements => listHeight elements + 1
  | .index c i => max c.height i.height + 1
  | .hash pairs => pairsHeight pairs + 1
  | _ => 1

def Statement.height : Statement → Nat
  | .binding _ e => e.height
  | .return e => e.height
  | .expression e => e.height

def blockHeight : List Statement → Nat
  | [] => 0
  | s :: rest => max s.height (blockHeight rest)

def listHeight : List Expression → Nat
  | [] => 0
  | e :: rest => max e.height (listHeight rest)

def pairsHeight : List (Expression × Expression) → Nat
  | [] => 0
  | (k, e) :: rest => max (max k.height e.height) (pairsHeight rest)

end

def Program.height (p : Program) : Nat := blockHeight p.statements

mutual

/-- No function literal occurs in the expression. -/
def Expression.functionFree : Expression → Bool
  | .unary _ e => e.functionFree
  | .binary _ a b => a.functionFree && b.functionFree
  | .conditional c body none => c.functionFree && blockFunctionFree body
  | .conditional c body (some other) =>
    c.functionFree && (blockFunctionFree body && blockFunctionFree other)
  | .function _ _ => false
  | .call f arguments => f.functionFree && listFunctionFree arguments
  | .array elements => listFunctionFree elements
  | .index c i => c.functionFree && i.functionFree
  | .hash pairs => pairsFunctionFree pairs
  | _ => true

def Statement.functionFree : Statement → Bool
  | .binding _ e => e.functionFree
  | .return e => e.functionFree
  | .expression e => e.functionFree

def blockFunctionFree : List Statement → Bool
  | [] => true
  | s :: rest => s.functionFree && blockFunctionFree rest

def listFunctionFree : List Expression → Bool
  | [] => true
  | e :: rest => e.functionFree && listFunctionFree rest

def pairsFunctionFree : List (Expression × Expression) → Bool
  | [] => true
  | (k, e) :: rest => (k.functionFree && e.functionFree) && pairsFunctionFree rest

end

/-- The value is no function that a program made. A built-in function is none. -/
def Value.NoFunction : Value → Prop
  | .function .. => False
  | _ => True

theorem lenient_noFunction : Lenient Value.NoFunction := by
  refine ⟨fun v hv => ?_, fun _ _ => trivial, fun _ _ => trivial⟩
  cases v with
  | function _ _ _ _ => contradiction
  | _ => trivial

/-- The step has a result or fails, in any machine. -/
def Evaluation.Ends {α : Type} (p : Evaluation α) : Prop := ∀ m, (p m).1 ≠ .exhausted

namespace Evaluation.Ends

variable {α β : Type} {p : Evaluation α} {f : α → Evaluation β}

theorem pure (a : α) : Ends (Pure.pure a : Evaluation α) := fun _ => nofun

theorem fail (fault : Fault) : Ends (Evaluation.fail fault : Evaluation α) := fun _ => nofun

theorem ofExcept (r : Except Fault α) : Ends (Evaluation.ofExcept r) := by
  cases r with
  | ok a => exact .pure a
  | error fault => exact .fail fault

theorem bind (hp : Ends p) (hf : ∀ a, Ends (f a)) : Ends (p >>= f) := by
  intro m
  cases hr : p m with
  | mk outcome m' =>
    cases outcome with
    | done a => exact bind_of_done hr ▸ hf a m'
    | failed fault => exact bind_of_failed hr ▸ nofun
    | exhausted => exact absurd (congrArg Prod.fst hr) (hp m)

end Evaluation.Ends

theorem ends_newArray (vs : List Value) : Ends (newArray vs) := fun _ => nofun

theorem ends_newHash (entries : Entries Value) : Ends (newHash entries) := fun _ => nofun

theorem ends_nameValue (scope : ScopeId) (name : String) : Ends (nameValue scope name) := by
  have hlook : Ends (look scope name) := fun _ => nofun
  refine hlook.bind (fun r => ?_)
  cases r with
  | some v => exact .pure v
  | none =>
    cases Builtin.ofName? name with
    | some b => exact .pure _
    | none => exact .fail _

namespace Builtin

theorem ends_elementsFor (b : Builtin) (v : Value) : Ends (b.elementsFor v) := by
  cases v with
  | array _ vs => exact .pure vs
  | _ => exact .fail _

theorem ends_lengthOf (v : Value) : Ends (lengthOf v) := by
  cases v with
  | string _ | array _ _ => exact .pure _
  | _ => exact .fail _

theorem ends_unary (b : Builtin) (v : Value) : Ends (b.unary v) := by
  unfold unary
  split
  · exact ends_lengthOf v
  · exact (ends_elementsFor _ v).bind (fun _ => .pure _)
  · exact (ends_elementsFor _ v).bind (fun _ => .pure _)
  · refine (ends_elementsFor _ v).bind (fun vs => ?_)
    cases vs with
    | nil => exact .pure _
    | cons _ others => exact ends_newArray others

theorem ends_printAll (vs : List Value) : Ends (printAll vs) := by
  induction vs with
  | nil => exact .pure ()
  | cons v vs ih =>
    have hrecord : Ends (record (.printed v)) := fun _ => nofun
    exact hrecord.bind (fun _ => ih)

theorem ends_apply (b : Builtin) (vs : List Value) : Ends (b.apply vs) := by
  unfold apply
  split
  · exact (ends_printAll vs).bind (fun _ => .pure _)
  · split
    · exact (ends_elementsFor _ _).bind (fun _ => ends_newArray _)
    · exact .fail _
  · split
    · exact ends_unary _ _
    · exact .fail _

end Builtin

/-- The step comes to an end, and however it does, no function is in sight then. -/
structure Evaluation.Settles {α : Type} (forgotten : ScopeId → Prop) (p : Evaluation α)
    (m : Machine) (P : α → Prop) : Prop where
  ends : (p m).1 ≠ .exhausted
  fit : Fit forgotten Value.NoFunction p m P

namespace Evaluation

variable {forgotten : ScopeId → Prop} {α β : Type} {p : Evaluation α} {f : α → Evaluation β}
  {m : Machine} {P : α → Prop} {R : β → Prop}

theorem Ends.settles (h : Ends p) (hfit : Fit forgotten Value.NoFunction p m P) :
    Settles forgotten p m P :=
  ⟨h m, hfit⟩

theorem Settles.bind (hp : Settles forgotten p m P)
    (hf : ∀ a m', P a → m'.memory.Fits forgotten Value.NoFunction →
      Settles forgotten (f a) m' R) : Settles forgotten (p >>= f) m R := by
  refine ⟨?_, hp.fit.bind (fun a m' ha hm' => (hf a m' ha hm').fit)⟩
  obtain ⟨hends, hmachine, _, hresult⟩ := hp
  cases hr : p m with
  | mk outcome m' =>
    rw [hr] at hends hmachine hresult
    cases outcome with
    | done a => exact bind_of_done hr ▸ (hf a m' (hresult a rfl) hmachine).ends
    | failed fault => exact bind_of_failed hr ▸ nofun
    | exhausted => exact absurd rfl hends

end Evaluation

/-- Expressions that make no functions and are at most so high are evaluated to the end. Only the
call of a function would lead out of the text, to a body that stands elsewhere. -/
def SettlesUpTo (forgotten : ScopeId → Prop) (n : Nat) (eval : Eval) : Prop :=
  ∀ scope e m, e.functionFree = true → e.height ≤ n → ¬ forgotten scope →
    m.memory.Fits forgotten Value.NoFunction →
    Settles forgotten (eval scope e) m (Value.Fits forgotten Value.NoFunction)

section
variable {forgotten : ScopeId → Prop} {n : Nat} {eval : Eval}
  (he : SettlesUpTo forgotten n eval) {scope : ScopeId} (hs : ¬ forgotten scope) {m : Machine}
  (hm : m.memory.Fits forgotten Value.NoFunction)
include hm

/-- Where no function is in sight, only built-in ones are called. -/
theorem settles_callValue {callee : Value} {arguments : List Value}
    (hc : callee.Fits forgotten Value.NoFunction)
    (ha : ∀ v ∈ arguments, v.Fits forgotten Value.NoFunction) :
    Settles forgotten (callValue eval callee arguments) m
      (Value.Fits forgotten Value.NoFunction) := by
  cases callee with
  | function n parameters body outer => exact absurd hc.here id
  | builtin b =>
    have hends : Ends (record (.builtinCalled b arguments.length)) := fun _ => nofun
    have hrecord : Fit forgotten Value.NoFunction (record (.builtinCalled b arguments.length)) m
        (fun _ => True) := .done (record_apply _ m) hm trivial
    exact (hends.settles hrecord).bind
      (fun _ m' _ hm' => (b.ends_apply arguments).settles (fit_apply lenient_noFunction hm' ha))
  | _ => exact (Ends.fail _).settles (.fail hm _)

include he hs

theorem settles_statement {s : Statement} (hf : s.functionFree = true) (hn : s.height ≤ n) :
    Settles forgotten (runStatement eval scope s) m (Value.Fits forgotten Value.NoFunction) := by
  cases s with
  | binding name e =>
    refine (he scope e m hf hn hs hm).bind (fun v m' hv hm' => ⟨nofun, ?_⟩)
    exact .done rfl (hm'.define hv) (lenient_noFunction.fits rfl)
  | «return» e =>
    refine (he scope e m hf hn hs hm).bind (fun v m' hv hm' => (Ends.pure _).settles ?_)
    exact .pure hm' ((Value.fits_returned trivial).mpr hv)
  | expression e => exact he scope e m hf hn hs hm

theorem settles_statements {ss : List Statement} (hf : blockFunctionFree ss = true)
    (hn : blockHeight ss ≤ n) {v : Value} (hv : v.Fits forgotten Value.NoFunction) :
    Settles forgotten (runStatements eval scope ss v) m
      (Value.Fits forgotten Value.NoFunction) := by
  induction ss generalizing m v with
  | nil => exact (Ends.pure v).settles (.pure hm hv)
  | cons s rest ih =>
    obtain ⟨hfs, hfrest⟩ := Bool.and_eq_true_iff.mp hf
    obtain ⟨hns, hnrest⟩ := Nat.max_le.mp hn
    refine (settles_statement he hs hm hfs hns).bind (fun w m' hw hm' => ?_)
    split
    · exact (Ends.pure w).settles (.pure hm' hw)
    · exact ih hm' hfrest hnrest hw

theorem settles_block {body : Block} (hf : blockFunctionFree body = true)
    (hn : blockHeight body ≤ n) :
    Settles forgotten (runBlock eval scope body) m (Value.Fits forgotten Value.NoFunction) :=
  settles_statements he hs hm hf hn (lenient_noFunction.fits rfl)

theorem settles_evalAll {es : List Expression} (hf : listFunctionFree es = true)
    (hn : listHeight es ≤ n) :
    Settles forgotten (evalAll (eval scope) es) m
      (fun vs => ∀ v ∈ vs, v.Fits forgotten Value.NoFunction) := by
  induction es generalizing m with
  | nil => exact (Ends.pure []).settles (.pure hm (by simp))
  | cons e rest ih =>
    obtain ⟨hfe, hfrest⟩ := Bool.and_eq_true_iff.mp hf
    obtain ⟨hne, hnrest⟩ := Nat.max_le.mp hn
    refine (he scope e m hfe hne hs hm).bind (fun v m' hv hm' => ?_)
    refine (ih hm' hfrest hnrest).bind (fun vs m'' hvs hm'' => (Ends.pure _).settles ?_)
    exact .pure hm'' (List.forall_mem_cons.mpr ⟨hv, hvs⟩)

theorem settles_evalPairs {pairs : List (Expression × Expression)}
    (hf : pairsFunctionFree pairs = true) (hn : pairsHeight pairs ≤ n) {entries : Entries Value}
    (hentries : ∀ entry ∈ entries, entry.2.Fits forgotten Value.NoFunction) :
    Settles forgotten (evalPairs (eval scope) pairs entries) m
      (fun es => ∀ entry ∈ es, entry.2.Fits forgotten Value.NoFunction) := by
  induction pairs generalizing m entries with
  | nil => exact (Ends.pure entries).settles (.pure hm hentries)
  | cons pair rest ih =>
    obtain ⟨k, e⟩ := pair
    obtain ⟨hfpair, hfrest⟩ := Bool.and_eq_true_iff.mp hf
    obtain ⟨hfk, hfe⟩ := Bool.and_eq_true_iff.mp hfpair
    obtain ⟨hnpair, hnrest⟩ := Nat.max_le.mp hn
    obtain ⟨hnk, hne⟩ := Nat.max_le.mp hnpair
    refine (he scope k m hfk hnk hs hm).bind (fun v m' _ hm' => ?_)
    have hkey : Settles forgotten (ofExcept v.toKey) m' (fun _ => True) :=
      (Ends.ofExcept _).settles (.ofExcept hm' (fun _ _ => trivial))
    refine hkey.bind (fun key m'' _ hm'' => ?_)
    refine (he scope e m'' hfe hne hs hm'').bind (fun w m₃ hw hm₃ => ?_)
    refine ih hm₃ hfrest hnrest (fun entry hentry => ?_)
    rcases Entries.mem_insert hentry with rfl | hentry
    · exact hw
    · exact hentries entry hentry

theorem settles_node {e : Expression} (hf : e.functionFree = true) (hn : e.height ≤ n + 1) :
    Settles forgotten (evalNode eval scope e) m (Value.Fits forgotten Value.NoFunction) := by
  have hatom : ∀ {v : Value}, v.isAtom = true → v.Fits forgotten Value.NoFunction :=
    lenient_noFunction.fits
  have hlower : ∀ {k : Nat}, k + 1 ≤ n + 1 → k ≤ n := Nat.le_of_succ_le_succ
  cases e with
  | identifier name =>
    exact (ends_nameValue scope name).settles (fit_nameValue lenient_noFunction hm hs)
  | integer n => exact (Ends.pure _).settles (.pure hm (hatom rfl))
  | boolean b => exact (Ends.pure _).settles (.pure hm (hatom rfl))
  | string s => exact (Ends.pure _).settles (.pure hm (hatom rfl))
  | unary o e =>
    refine (he scope e m hf (hlower hn) hs hm).bind (fun v m' _ hm' => ?_)
    exact (Ends.ofExcept _).settles (.ofExcept hm' (fun w hw => hatom (o.isAtom_of_apply hw)))
  | binary o a b =>
    obtain ⟨hfa, hfb⟩ := Bool.and_eq_true_iff.mp hf
    obtain ⟨hna, hnb⟩ := Nat.max_le.mp (hlower hn)
    refine (he scope a m hfa hna hs hm).bind (fun v m' _ hm' => ?_)
    refine (he scope b m' hfb hnb hs hm').bind (fun w m'' _ hm'' => ?_)
    exact (Ends.ofExcept _).settles (.ofExcept hm'' (fun u hu => hatom (o.isAtom_of_apply hu)))
  | conditional c body alternative =>
    cases alternative with
    | none =>
      obtain ⟨hfc, hfbody⟩ := Bool.and_eq_true_iff.mp hf
      obtain ⟨hnc, hnbody⟩ := Nat.max_le.mp (hlower hn)
      refine (he scope c m hfc hnc hs hm).bind (fun v m' _ hm' => ?_)
      split
      · exact settles_block he hs hm' hfbody hnbody
      · exact (Ends.pure _).settles (.pure hm' (hatom rfl))
    | some other =>
      obtain ⟨hfc, hfblocks⟩ := Bool.and_eq_true_iff.mp hf
      obtain ⟨hfbody, hfother⟩ := Bool.and_eq_true_iff.mp hfblocks
      obtain ⟨hnc, hnblocks⟩ := Nat.max_le.mp (hlower hn)
      obtain ⟨hnbody, hnother⟩ := Nat.max_le.mp hnblocks
      refine (he scope c m hfc hnc hs hm).bind (fun v m' _ hm' => ?_)
      split
      · exact settles_block he hs hm' hfbody hnbody
      · exact settles_block he hs hm' hfother hnother
  | function parameters body => contradiction
  | call f arguments =>
    obtain ⟨hff, hfarguments⟩ := Bool.and_eq_true_iff.mp hf
    obtain ⟨hnf, hnarguments⟩ := Nat.max_le.mp (hlower hn)
    refine (he scope f m hff hnf hs hm).bind (fun v m' hv hm' => ?_)
    refine (settles_evalAll he hs hm' hfarguments hnarguments).bind (fun vs m'' hvs hm'' => ?_)
    exact settles_callValue hm'' hv hvs
  | array elements =>
    refine (settles_evalAll he hs hm hf (hlower hn)).bind (fun vs m' hvs hm' => ?_)
    exact (ends_newArray vs).settles (fit_newArray lenient_noFunction hm' hvs)
  | index c i =>
    obtain ⟨hfc, hfi⟩ := Bool.and_eq_true_iff.mp hf
    obtain ⟨hnc, hni⟩ := Nat.max_le.mp (hlower hn)
    refine (he scope c m hfc hnc hs hm).bind (fun v m' hv hm' => ?_)
    refine (he scope i m' hfi hni hs hm').bind (fun w m'' _ hm'' => ?_)
    exact (Ends.ofExcept _).settles
      (.ofExcept hm'' (fun u hu => Value.fits_at lenient_noFunction hv hu))
  | hash pairs =>
    refine (settles_evalPairs he hs hm hf (hlower hn) (by simp)).bind (fun es m' hes hm' => ?_)
    exact (ends_newHash es).settles (fit_newHash lenient_noFunction hm' hes)

end

/-- Each expression takes one level, and has at least one. -/
theorem Expression.height_pos (e : Expression) : 0 < e.height := by
  cases e with
  | conditional c body alternative => cases alternative <;> exact Nat.succ_pos _
  | _ => exact Nat.succ_pos _

theorem settles_evaluate {forgotten : ScopeId → Prop} (n : Nat) :
    SettlesUpTo forgotten n (evaluate n) := by
  -- Each expression takes one from the budget and one from the height of what is left below it.
  induction n with
  | zero => exact fun _ e _ _ hn => absurd e.height_pos (Nat.not_lt_of_le hn)
  | succ n ih => exact fun scope e m hf hn hs hm => settles_node ih hs hm hf hn

/-- This deep, and no deeper, are evaluations nested when the program is run: it is what the budget
has to be for the run to come to an end. -/
def Program.Nests (p : Program) (scope : ScopeId) (m : Machine) (depth : Nat) : Prop :=
  ∀ budget, (p.run budget scope m).1 = .exhausted ↔ budget < depth

theorem Program.outlasted_run (p : Program) {n k : Nat} (h : n ≤ k) (scope : ScopeId) :
    Outlasted (p.run n scope) (p.run k scope) :=
  (outlasted_block (outlasted_evaluate h) scope p.statements).bind (fun _ => .refl _)

/-- What comes to an end is nested to some depth, which the budget covers. -/
theorem Program.exists_nests {p : Program} {scope : ScopeId} {m : Machine} {n : Nat}
    (h : (p.run n scope m).1 ≠ .exhausted) : ∃ depth ≤ n, p.Nests scope m depth := by
  classical
  have hsome : ∃ k, (p.run k scope m).1 ≠ .exhausted := ⟨n, h⟩
  refine ⟨Nat.find hsome, Nat.find_min' hsome h, fun budget => ⟨fun hexhausted => ?_, fun hlt => ?_⟩⟩
  · refine Nat.lt_of_not_le (fun hle => Nat.find_spec hsome ?_)
    rwa [← p.outlasted_run hle scope m (Nat.find_spec hsome)]
  · exact Classical.not_not.mp (Nat.find_min hsome hlt)

theorem settles_run {forgotten : ScopeId → Prop} {p : Program}
    (hp : blockFunctionFree p.statements = true) {scope : ScopeId} (hs : ¬ forgotten scope)
    {m : Machine} (hm : m.memory.Fits forgotten Value.NoFunction) :
    Settles forgotten (p.run p.height scope) m (Value.Fits forgotten Value.NoFunction) := by
  refine (settles_block (settles_evaluate p.height) hs hm hp (Nat.le_refl _)).bind ?_
  intro v m' hv hm'
  exact (Ends.pure _).settles (.pure hm' (hv.unwrapped (fun _ => trivial)))

/-- A program without function literals, run where no function can be reached, has a value or fails.
Evaluations are nested at most as deep as the program is high, and a larger budget makes no
difference. Afterwards there still is no function that could be reached, nor one in the value. -/
theorem functionFree_run {p : Program} (hp : blockFunctionFree p.statements = true)
    {scope : ScopeId} {m : Machine} (hm : m.memory.Shows (fun s => s = scope) Value.NoFunction) :
    ∃ depth ≤ p.height, p.Nests scope m depth ∧ ∀ budget, depth ≤ budget →
      ((∃ v, (p.run budget scope m).1 = .done v ∧ v.Throughout Value.NoFunction) ∨
        ∃ fault, (p.run budget scope m).1 = .failed fault) ∧
      p.run budget scope m = p.run depth scope m ∧
      (p.run budget scope m).2.memory.Shows (fun s => s = scope) Value.NoFunction := by
  have hreach : m.memory.Reachable (fun s => s = scope) scope := .root rfl
  obtain ⟨hends, hfit⟩ := settles_run hp hreach.not_forgotten hm.fits
  obtain ⟨depth, hdepth, hnests⟩ := Program.exists_nests hends
  have hdone : (p.run depth scope m).1 ≠ .exhausted :=
    fun h => Nat.lt_irrefl _ ((hnests depth).mp h)
  have hheight := p.outlasted_run hdepth scope m hdone
  refine ⟨depth, hdepth, hnests, fun budget hbudget => ?_⟩
  have hlarger := p.outlasted_run hbudget scope m hdone
  rw [hlarger, ← hheight]
  refine ⟨?_, rfl, hfit.machine.shows (fun s hs => hs ▸ hreach.not_forgotten)⟩
  cases hr : (p.run p.height scope m).1 with
  | done v => exact .inl ⟨v, rfl, (hfit.result v hr).1⟩
  | failed fault => exact .inr ⟨fault, rfl⟩
  | exhausted => exact absurd hr hends

/-- A program that calls a built-in function out of a hash. -/
def measuring : Program :=
  ⟨[.binding "x" (.hash [(.boolean true, .identifier "len")]),
    .expression (.binary .add
      (.call (.index (.identifier "x") (.boolean true)) [.string "four"]) (.integer 1))]⟩

theorem functionFree_run_measuring :
    blockFunctionFree measuring.statements = true ∧
      Session.new.memory.Shows (fun s => s = Session.new.scope) Value.NoFunction ∧
      measuring.height = 4 ∧
      (measuring.run 4 Session.new.scope (.ofMemory Session.new.memory)).1 = .done (.integer 5) ∧
      (measuring.run 4 Session.new.scope (.ofMemory Session.new.memory)).2.memory.Shows
        (fun s => s = Session.new.scope) Value.NoFunction := by
  have hfree : blockFunctionFree measuring.statements = true := rfl
  have hshows : Session.new.memory.Shows (fun s => s = Session.new.scope) Value.NoFunction :=
    fun _ _ _ hb => absurd hb Memory.not_mem_empty_newScope
  have hheight : measuring.height = 4 := rfl
  obtain ⟨depth, hdepth, _, hrun⟩ :=
    functionFree_run hfree (m := .ofMemory Session.new.memory) hshows
  exact ⟨hfree, hshows, hheight, rfl, (hrun 4 (hheight ▸ hdepth)).2.2⟩

end Treewalk
