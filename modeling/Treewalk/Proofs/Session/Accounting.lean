import Treewalk.Proofs.Run.Errors
import Treewalk.Proofs.Session.Bindings

namespace Treewalk

open Evaluation Text

/-- Blank lines are not counted; each of the other kinds has a counter. -/
inductive LineKind where
  | blank
  | command
  | rejected
  | evaluated
deriving DecidableEq

/-- A line whose first character apart from blanks is a colon is a command; any other one is a text,
which is evaluated unless something is wrong with it. -/
def LineKind.of (line : String) : LineKind :=
  if (trim line).isEmpty then blank
  else if (trim line).toList.head? = some ':' then command
  else if (read line).raised = [] then evaluated
  else rejected

/-- The line is a command that forgets all bindings. -/
def IsResetLine (line : String) : Prop :=
  LineKind.of line = .command ∧
    (firstWord (trim line) = ":reset" ∨ firstWord (trim line) = ":clear")

theorem Command.ofWord?_eq_reset_iff {word : String} :
    ofWord? word = some .reset ↔ word = ":reset" ∨ word = ":clear" := by
  grind [ofWord?]

/-- The evaluation has failed; one that runs out of budget has not. -/
def Outcome.hasFailed : Outcome Value → Bool
  | .failed _ => true
  | _ => false

namespace Console

variable {budget : Nat} {line : String} {c : Console}

theorem answer_eq (budget : Nat) (line : String) (c : Console) :
    c.answer budget line = match LineKind.of line with
      | .blank => (⟨.empty, [], []⟩, c)
      | .command =>
        (⟨(c.countCommand.obey (firstWord (trim line))).1, [], []⟩,
          (c.countCommand.obey (firstWord (trim line))).2)
      | .rejected =>
        (⟨.rejected (read line).diagnostics.messages, (read line).log, []⟩, c.countRejection)
      | .evaluated =>
        (⟨answerTo (read line).program (c.runLine budget line).1, (read line).log,
            (c.runLine budget line).2.events⟩,
          countEvaluation (c.runLine budget line).1.isFailure
            ⟨⟨(c.runLine budget line).2.memory, c.session.scope⟩, c.stats⟩) := by
  by_cases hblank : IsBlankLine line
  · rw [answer_of_blank hblank, show LineKind.of line = .blank from if_pos hblank]
  by_cases hcommand : IsCommandLine line
  · rw [answer_of_command budget c hcommand,
      show LineKind.of line = .command from (if_neg hblank).trans (if_pos hcommand)]
  rw [answer_of_program budget c hblank hcommand,
    show LineKind.of line = _ from (if_neg hblank).trans (if_neg hcommand)]
  by_cases hraised : (read line).raised = []
  · have hempty := (read line).diagnostics_isEmpty_iff.mpr hraised
    rw [answerProgram_of_clean budget c hempty, if_pos hraised]
  · have hempty := Bool.eq_false_iff.mpr (mt (read line).diagnostics_isEmpty_iff.mp hraised)
    rw [answerProgram_of_raised budget c hempty, if_neg hraised]

theorem stats_obey (word : String) (c : Console) : (c.obey word).2.stats = c.stats := by
  unfold obey
  split <;> rfl

theorem session_obey_of_ne {word : String} (h : ¬ (word = ":reset" ∨ word = ":clear"))
    (c : Console) : (c.obey word).2.session = c.session := by
  rw [← Command.ofWord?_eq_reset_iff] at h
  unfold obey
  split
  case h_3 hreset => exact absurd hreset h
  all_goals rfl

/-- Only an evaluation and a reset change the session, and only an evaluation records events. -/
theorem session_answer_of_ne (hevaluated : LineKind.of line ≠ .evaluated)
    (hreset : ¬ IsResetLine line) (budget : Nat) (c : Console) :
    (c.answer budget line).2.session = c.session ∧ (c.answer budget line).1.events = [] := by
  rw [answer_eq]
  cases hkind : LineKind.of line with
  | blank => exact ⟨rfl, rfl⟩
  | command =>
    have hobey := session_obey_of_ne (fun hword => hreset ⟨hkind, hword⟩) c.countCommand
    rw [session_countCommand] at hobey
    generalize c.countCommand.obey (firstWord (trim line)) = obeyed at hobey ⊢
    exact ⟨hobey, rfl⟩
  | rejected => exact ⟨rfl, rfl⟩
  | evaluated => exact absurd hkind hevaluated

theorem stats_answer (budget : Nat) (line : String) (c : Console) :
    (c.answer budget line).2.stats =
      { evaluated := c.stats.evaluated + if LineKind.of line = .evaluated then 1 else 0
        rejected := c.stats.rejected + if LineKind.of line = .rejected then 1 else 0
        failed := c.stats.failed +
          if LineKind.of line = .evaluated ∧ (c.runLine budget line).1.isFailure then 1 else 0
        commands := c.stats.commands + if LineKind.of line = .command then 1 else 0 } := by
  rw [answer_eq]
  cases LineKind.of line with
  | blank => rfl
  | command =>
    have hobey := stats_obey (firstWord (trim line)) c.countCommand
    generalize c.countCommand.obey (firstWord (trim line)) = obeyed at hobey ⊢
    exact hobey
  | rejected => rfl
  | evaluated =>
    simp only [countEvaluation]
    cases (c.runLine budget line).1.isFailure <;> simp

/-- Each of the lines with the console that hears it. -/
def course (budget : Nat) : List String → Console → List (Console × String)
  | [], _ => []
  | line :: rest, c => (c, line) :: course budget rest (c.answer budget line).2

/-- The line is evaluated, and its program fails. -/
def failsOn (budget : Nat) (line : String) (c : Console) : Bool :=
  LineKind.of line = .evaluated && (c.runLine budget line).1.hasFailed

/-- No error is bound in the session. -/
def Errorless (c : Console) : Prop := c.session.memory.Fits (fun _ => False) Value.Errorless

/-- A value that is no error is no failure. -/
theorem Errorless.isFailure (h : c.Errorless) (budget : Nat) (line : String) :
    (c.runLine budget line).1.isFailure = (c.runLine budget line).1.hasFailed := by
  have hfit := fit_run closed_errorless (read line).program budget c.session.scope (fun h => h)
    (m := .ofMemory c.session.memory) h
  unfold runLine
  cases hrun : ((read line).program.run budget c.session.scope (.ofMemory c.session.memory)).1 with
  | done v => exact (hfit.result v hrun).here
  | failed fault => rfl
  | exhausted => rfl

theorem errorless_answerAll (budget : Nat) (lines : List String) (h : c.Errorless) :
    (c.answerAll budget lines).2.Errorless := by
  refine session_answerAll (P := fun s => s.memory.Fits (fun _ => False) Value.Errorless)
    (fun s hs => ⟨fun _ h => h.elim, fun _ _ _ _ h => h, fun t ht b hb => ?_⟩)
    (fun s p hs => ?_) h lines
  · exact hs.bound t ht b (by rwa [Session.reset, Session.inMemory, Memory.newScope,
      Memory.bindings_addScope] at hb)
  · exact (fit_run closed_errorless p budget s.scope (fun h => h) hs).machine

theorem stats_answerAll (budget : Nat) (lines : List String) (h : c.Errorless) :
    (c.answerAll budget lines).2.stats =
      { evaluated := c.stats.evaluated + lines.countP (LineKind.of · = .evaluated)
        rejected := c.stats.rejected + lines.countP (LineKind.of · = .rejected)
        failed := c.stats.failed + (c.course budget lines).countP (fun d => d.1.failsOn budget d.2)
        commands := c.stats.commands + lines.countP (LineKind.of · = .command) } := by
  induction lines generalizing c with
  | nil => rfl
  | cons line rest ih =>
    -- The counter looks at values too, which are no errors as long as no error is bound.
    have hanswer := errorless_answerAll budget [line] h
    rw [answerAll_cons, answerAll] at hanswer
    rw [answerAll_cons, ih hanswer, stats_answer, h.isFailure, course]
    simp only [List.countP_cons, failsOn, Bool.and_eq_true, decide_eq_true_eq, Nat.add_assoc,
      Nat.add_comm]

/-- What fails has been evaluated. -/
theorem countP_failsOn_le (budget : Nat) (lines : List String) (c : Console) :
    (c.course budget lines).countP (fun d => d.1.failsOn budget d.2) ≤
      lines.countP (LineKind.of · = .evaluated) := by
  induction lines generalizing c with
  | nil => exact Nat.le_refl _
  | cons line rest ih =>
    rw [course, List.countP_cons, List.countP_cons]
    refine Nat.add_le_add (ih _) ?_
    by_cases hkind : LineKind.of line = .evaluated
    · rw [if_pos (decide_eq_true hkind)]
      split <;> decide
    · simp [failsOn, hkind]

theorem errorless_new : Console.new.Errorless := fits_new

end Console

/-- After any lines, each counter is the number of those lines that it is for: the commands, known or
not, the texts that were rejected, those that were evaluated, and those of the latter whose
evaluation failed. Another line that is not evaluated leaves the session as it is and prints nothing,
unless it is a reset, which leaves the counters as they are, apart from being counted. -/
theorem lines_accounted (budget : Nat) (lines : List String) :
    let c := (Console.new.answerAll budget lines).2
    c.stats.commands = lines.countP (LineKind.of · = .command) ∧
    c.stats.rejected = lines.countP (LineKind.of · = .rejected) ∧
    c.stats.evaluated = lines.countP (LineKind.of · = .evaluated) ∧
    c.stats.failed =
      (Console.new.course budget lines).countP (fun d => d.1.failsOn budget d.2) ∧
    c.stats.failed ≤ c.stats.evaluated ∧
    ∀ line,
      (LineKind.of line ≠ .evaluated → ¬ IsResetLine line →
        (c.answer budget line).2.session = c.session ∧ (c.answer budget line).1.events = []) ∧
      (IsResetLine line →
        (c.answer budget line).2.stats = { c.stats with commands := c.stats.commands + 1 }) := by
  intro c
  have hstats := Console.stats_answerAll budget lines Console.errorless_new
  have hzero : Console.new.stats = ⟨0, 0, 0, 0⟩ := rfl
  simp only [hzero, Nat.zero_add] at hstats
  refine ⟨by rw [hstats], by rw [hstats], by rw [hstats], by rw [hstats], ?_, fun line => ⟨?_, ?_⟩⟩
  · rw [hstats]
    exact Console.countP_failsOn_le budget lines .new
  · exact fun hkind hreset => Console.session_answer_of_ne hkind hreset budget c
  · intro hreset
    rw [Console.stats_answer, hreset.1]
    simp

/-- A blank line, an unknown command, a text that is rejected, one that fails; then a reset. -/
theorem lines_accounted_session :
    let c := (Console.new.answerAll 9 ["let x = 1", " ", ":nope", "let", "x / 0"]).2
    c.stats = ⟨2, 1, 1, 1⟩ ∧ IsResetLine " :reset" ∧
      (c.answer 9 " :reset").2.stats = ⟨2, 1, 1, 2⟩ ∧
      LineKind.of ":env" = .command ∧ ¬ IsResetLine ":env" ∧
      (c.answer 9 ":env").2.session = c.session := by
  intro c
  obtain ⟨hcommands, hrejected, hevaluated, hfailed, _, hnext⟩ :=
    lines_accounted 9 ["let x = 1", " ", ":nope", "let", "x / 0"]
  have hstats : c.stats = ⟨2, 1, 1, 1⟩ := rfl
  have hreset : IsResetLine " :reset" := ⟨rfl, .inl rfl⟩
  have henv : LineKind.of ":env" = .command := rfl
  have hnot : ¬ IsResetLine ":env" := fun h => absurd h.2 (by decide)
  refine ⟨hstats, hreset, ?_, henv, hnot, ((hnext ":env").1 (by rw [henv]; decide) hnot).1⟩
  rw [(hnext " :reset").2 hreset, hstats]

end Treewalk
