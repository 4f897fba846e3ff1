import Treewalk.CommandLine.Basic
import Treewalk.Proofs.Run.Closed

namespace Treewalk

open Evaluation

/-- The value is no error. -/
def Value.Errorless (v : Value) : Prop := v.isError = false

theorem closed_errorless : Closed Value.Errorless := by
  refine ⟨⟨fun v hv => ?_, fun _ _ => rfl, fun _ _ => rfl⟩, fun _ _ _ _ => rfl, fun _ => rfl⟩
  cases v with
  | error _ => contradiction
  | _ => rfl

/-- Once no result is an error value, error values tell which evaluations failed, and why. -/
theorem Outcome.toValue?_isError {o : Outcome Value} (h : ∀ v, o = .done v → v.isError = false)
    {v : Value} (hv : o.toValue? = some v) :
    (v.isError = true ↔ ∃ f, o = .failed f) ∧ ∀ f, o = .failed f → v = .error f.message := by
  cases o with
  | done w =>
    obtain rfl := Option.some.inj hv
    have hw := h w rfl
    refine ⟨?_, fun f hf => by cases hf⟩
    constructor
    · intro herror
      rw [hw] at herror
      contradiction
    · rintro ⟨f, hf⟩
      cases hf
  | failed fault =>
    obtain rfl := Option.some.inj hv
    refine ⟨⟨fun _ => ⟨fault, rfl⟩, fun _ => rfl⟩, fun f hf => ?_⟩
    cases hf
    rfl
  | exhausted => cases hv

/-- The outcomes of programs that are run one after the other in one scope, and the memory in the
end. -/
def runEach (budget : Nat) (scope : ScopeId) : List Program → Memory → List (Outcome Value) × Memory
  | [], memory => ([], memory)
  | p :: rest, memory =>
    let (outcome, m) := p.run budget scope (.ofMemory memory)
    let (outcomes, memory') := runEach budget scope rest m.memory
    (outcome :: outcomes, memory')

/-- Nothing at all is forgotten in a session, so the whole memory stays free of errors. -/
theorem errorless_runEach {budget : Nat} {scope : ScopeId} {ps : List Program} {memory : Memory}
    (hm : memory.Fits (fun _ => False) Value.Errorless) :
    (runEach budget scope ps memory).2.Fits (fun _ => False) Value.Errorless ∧
      ∀ o ∈ (runEach budget scope ps memory).1, ∀ v, o = .done v → v.isError = false := by
  induction ps generalizing memory with
  | nil => exact ⟨hm, by simp [runEach]⟩
  | cons p rest ih =>
    have hrun := fit_run closed_errorless p budget scope (fun h => h) (m := .ofMemory memory) hm
    obtain ⟨hmemory, houtcomes⟩ := ih hrun.machine
    refine ⟨hmemory, List.forall_mem_cons.mpr ⟨fun v hv => (hrun.result v hv).here, houtcomes⟩⟩

theorem fits_new : Session.new.memory.Fits (fun _ => False) Value.Errorless :=
  ⟨fun _ h => h.elim, fun _ _ _ _ h => h,
    fun _ _ _ hb => absurd hb Memory.not_mem_empty_newScope⟩

/-- The text that a file name stands for, if there is one. -/
def Surroundings.text? (s : Surroundings) (file : String) : Option String :=
  if file = "-" then some s.input else (s.read file).toOption

theorem Surroundings.withText_code (s : Surroundings) (file : String)
    {work : String → String → Written} {code : String → Nat}
    (h : ∀ name source, (work name source).code = code source) :
    (s.withText file work).code = ((s.text? file).map code).getD 1 := by
  unfold withText text?
  by_cases hfile : file = "-"
  · simp [hfile, h]
  · cases hread : s.read file with
    | ok source => simp [hfile, h, Except.toOption]
    | error trouble => cases trouble <;> simp [hfile, Except.toOption]

theorem runText_code (budget : Nat) (w : Watching) (name source : String) :
    (runText budget w name source).code =
      match parse source with
      | .error _ => 1
      | .ok p =>
        match (p.run budget Session.new.scope (.ofMemory Session.new.memory)).1.toValue? with
        | none => 1
        | some v => if v.isError then 1 else 0 := by
  have hscope : Session.new.scope = Memory.empty.newScope.1 := rfl
  have hmemory : Session.new.memory = Memory.empty.newScope.2 := rfl
  simp only [runText, parse, Reading.program?, hscope, hmemory]
  cases (read source).diagnostics.isEmpty with
  | false => rfl
  | true =>
    simp only [if_true]
    cases ((read source).program.run budget Memory.empty.newScope.1
      (.ofMemory Memory.empty.newScope.2)).1.toValue? with
    | none => rfl
    | some v => cases herror : v.isError <;> simp [herror]

/-- As no program evaluates to an error, only a fault or a budget that is used up makes the exit
code of an accepted program differ from zero. -/
theorem runText_code_iff {budget : Nat} {w : Watching} {name source : String} :
    (runText budget w name source).code = 0 ↔
      ∃ p v, parse source = .ok p ∧
        (p.run budget Session.new.scope (.ofMemory Session.new.memory)).1 = .done v := by
  rw [runText_code]
  cases hparse : parse source with
  | error failure => simp
  | ok p =>
    have hfit := fit_run closed_errorless p budget Session.new.scope (fun h => h)
      (m := .ofMemory Session.new.memory) fits_new
    cases hrun : (p.run budget Session.new.scope (.ofMemory Session.new.memory)).1 with
    | done v =>
      have hv : v.isError = false := (hfit.result v hrun).here
      simp [Outcome.toValue?, hrun, hv]
    | failed fault => simp [Outcome.toValue?, hrun, Value.isError]
    | exhausted => simp [Outcome.toValue?, hrun]

theorem execute_run_code {budget : Nat} {words : List String} {file : String} {w : Watching}
    (h : parseArguments words = .ok ⟨.run file, w⟩) (s : Surroundings) :
    (execute budget words s).code = 0 ↔
      ∃ source p v, s.text? file = some source ∧ parse source = .ok p ∧
        (p.run budget Session.new.scope (.ofMemory Session.new.memory)).1 = .done v := by
  have hname : ∀ name source,
      (runText budget w name source).code = (runText budget w file source).code := by
    intro name source
    rw [runText_code, runText_code]
  simp only [execute, h, Subcommand.perform, s.withText_code file hname]
  cases htext : s.text? file with
  | none => simp
  | some source => simp [runText_code_iff]

/-- A request to which no error is shown shows none afterwards, and its result holds none. So in a
session that starts with nothing bound an evaluation that is seen as a value is an error exactly if
it failed, and tells the fault; and a program that is run from the command line ends with code zero
exactly if its text is accepted and evaluates to a value. -/
theorem channels_apart (budget : Nat) :
    (∀ (r : Request) (m : Machine), r.Shows m Value.Errorless →
      (r.run budget m).2.memory.Shows (r.rootsAfter budget m) Value.Errorless ∧
        ∀ v, (r.run budget m).1 = .done v → v.Throughout Value.Errorless) ∧
    (∀ ps : List Program,
      (∀ roots, (runEach budget Session.new.scope ps Session.new.memory).2.Shows roots
        Value.Errorless) ∧
      ∀ o ∈ (runEach budget Session.new.scope ps Session.new.memory).1, ∀ v, o.toValue? = some v →
        (v.isError = true ↔ ∃ f, o = .failed f) ∧ ∀ f, o = .failed f → v = .error f.message) ∧
    ∀ (words : List String) (file : String) (w : Watching) (s : Surroundings),
      parseArguments words = .ok ⟨.run file, w⟩ →
        ((execute budget words s).code = 0 ↔
          ∃ source p v, s.text? file = some source ∧ parse source = .ok p ∧
            (p.run budget Session.new.scope (.ofMemory Session.new.memory)).1 = .done v) := by
  refine ⟨fun r m h => r.shows_run closed_errorless budget h, fun ps => ⟨?_, ?_⟩,
    fun words file w s h => execute_run_code h s⟩
  · intro roots
    exact (errorless_runEach fits_new).1.shows (fun _ _ h => h)
  · intro o ho v hv
    exact Outcome.toValue?_isError ((errorless_runEach fits_new).2 o ho) hv

/-- Binds a name, and then divides by zero. -/
def dividing : Program :=
  ⟨[.binding "x" (.integer 1), .expression (.binary .divide (.identifier "x") (.integer 0))]⟩

theorem shows_dividing :
    (Request.program dividing Session.new.scope).Shows (.ofMemory Session.new.memory)
      Value.Errorless :=
  ⟨fun _ hv => absurd hv List.not_mem_nil, fits_new.shows (fun _ _ h => h)⟩

theorem dividing_apart :
    (Request.program dividing Session.new.scope).Shows (.ofMemory Session.new.memory)
        Value.Errorless ∧
      ((dividing.run 10 Session.new.scope (.ofMemory Session.new.memory)).2.memory.Shows
        ((Request.program dividing Session.new.scope).rootsAfter 10 (.ofMemory Session.new.memory))
        Value.Errorless) ∧
      (dividing.run 10 Session.new.scope (.ofMemory Session.new.memory)).1 =
        .failed .divisionByZero ∧
      parseArguments ["run", "-"] = .ok ⟨.run "-", ⟨false, false⟩⟩ ∧
      (execute 10 ["run", "-"] (.ofFiles "let x = 1; x / 0" none [])).code ≠ 0 := by
  have hparse : parse "let x = 1; x / 0" = .ok dividing := rfl
  have hwords : parseArguments ["run", "-"] = .ok ⟨.run "-", ⟨false, false⟩⟩ := rfl
  have hrun : (dividing.run 10 Session.new.scope (.ofMemory Session.new.memory)).1 =
      .failed .divisionByZero := rfl
  refine ⟨shows_dividing, ((channels_apart 10).1 _ _ shows_dividing).1, hrun, hwords, fun hcode => ?_⟩
  obtain ⟨source, p, v, htext, hp, hv⟩ := ((channels_apart 10).2.2 _ _ _ _ hwords).mp hcode
  obtain rfl := Option.some.inj htext
  obtain rfl := Except.ok.inj (hparse.symm.trans hp)
  rw [hrun] at hv
  contradiction

end Treewalk
