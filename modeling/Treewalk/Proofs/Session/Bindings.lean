import Treewalk.Proofs.Session.LineByLine

namespace Treewalk

open Evaluation Text

section
variable {eval : Eval} {scope : ScopeId} {m m' : Machine}

theorem exists_of_bind_done {α β : Type} {p : Evaluation α} {f : α → Evaluation β} {b : β}
    (h : (p >>= f) m = (.done b, m')) :
    ∃ a m₁, p m = (.done a, m₁) ∧ f a m₁ = (.done b, m') := by
  cases hr : p m with
  | mk outcome m₁ =>
    cases outcome with
    | done a => exact ⟨a, m₁, rfl, (bind_of_done hr).symm.trans h⟩
    | failed fault => cases (bind_of_failed hr).symm.trans h
    | exhausted => cases (bind_of_exhausted hr).symm.trans h

/-- The statements before a `let` have returned, or else the `let` is done and nothing after it. -/
theorem runStatements_binding {before : List Statement} {name : String} {e : Expression}
    {u : Value} (h : runStatements eval scope (before ++ [.binding name e]) .null m =
      (.done u, m')) :
    ∃ w m₁, runStatements eval scope before .null m = (.done w, m₁) ∧
      (w.isReturned = true ∧ m' = m₁ ∨
        w.isReturned = false ∧ ∃ v m₂, eval scope e m₁ = (.done v, m₂) ∧
          m' = { m₂ with memory := m₂.memory.define scope name v }) := by
  rw [runStatements_append rfl] at h
  obtain ⟨w, m₁, hbefore, hlast⟩ := exists_of_bind_done h
  refine ⟨w, m₁, hbefore, ?_⟩
  cases hw : w.isReturned with
  | true =>
    rw [hw, if_pos rfl] at hlast
    exact .inl ⟨rfl, (Prod.mk.inj hlast).2.symm⟩
  | false =>
    rw [hw, if_neg Bool.false_ne_true] at hlast
    obtain ⟨x, m₃, hlet, hrest⟩ := exists_of_bind_done hlast
    obtain ⟨v, m₂, heval, hdefine⟩ := exists_of_bind_done hlet
    rw [bind_of_done (define_apply scope name v m₂)] at hdefine
    obtain ⟨hx, rfl⟩ := Prod.mk.inj hdefine
    obtain rfl := Outcome.done.inj hx
    exact .inr ⟨rfl, v, m₂, heval, (Prod.mk.inj hrest).2.symm⟩

end

theorem Program.exists_of_run_done {p : Program} {budget : Nat} {scope : ScopeId} {m : Machine}
    {v : Value} (h : (p.run budget scope m).1 = .done v) :
    ∃ u, runBlock (evaluate budget) scope p.statements m = (.done u, (p.run budget scope m).2) := by
  have hrun : p.run budget scope m = (.done v, (p.run budget scope m).2) := Prod.ext h rfl
  rw [run] at hrun ⊢
  obtain ⟨u, m₁, hblock, hunwrap⟩ := exists_of_bind_done hrun
  rw [← (Prod.mk.inj hunwrap).2]
  exact ⟨u, hblock⟩

theorem Answer.Tells.of_binding {p : Program} {o : Outcome Value} {name : String}
    (h : Tells p o (.binding name)) :
    (∃ before e, p.statements = before ++ [.binding name e]) ∧ ∃ v, o = .done v := by
  cases h with
  | binding hv hlast => exact ⟨⟨_, _, hlast⟩, _, rfl⟩

def IsCommandLine (line : String) : Prop := (trim line).toList.head? = some ':'

namespace Console

variable {budget : Nat} {line name : String} {lines : List String} {c : Console}

theorem answer_of_command (budget : Nat) (c : Console) (h : IsCommandLine line) :
    c.answer budget line =
      (⟨(c.countCommand.obey (firstWord (trim line))).1, [], []⟩,
        (c.countCommand.obey (firstWord (trim line))).2) := by
  have hne : (trim line).isEmpty = false := by
    refine Bool.eq_false_iff.mpr (fun hempty => ?_)
    rw [IsCommandLine, String.isEmpty_iff.mp hempty] at h
    cases h
  rw [IsCommandLine] at h
  simp only [answer, hne, h, Bool.false_eq_true, if_true, if_false]

theorem answer_of_program (budget : Nat) (c : Console) (hb : ¬ IsBlankLine line)
    (hc : ¬ IsCommandLine line) : c.answer budget line = c.answerProgram budget line := by
  rw [IsBlankLine] at hb
  rw [IsCommandLine] at hc
  simp only [answer, hb, hc, Bool.false_eq_true, if_false]

theorem answerProgram_of_raised (budget : Nat) (c : Console)
    (h : (read line).diagnostics.isEmpty = false) :
    c.answerProgram budget line =
      (⟨.rejected (read line).diagnostics.messages, (read line).log, []⟩, c.countRejection) := by
  simp only [answerProgram, h, Bool.false_eq_true, if_false]

/-- What the program of the line does in the scope and the memory of the console. -/
def runLine (budget : Nat) (line : String) (c : Console) : Outcome Value × Machine :=
  (read line).program.run budget c.session.scope (.ofMemory c.session.memory)

theorem answerProgram_of_clean (budget : Nat) (c : Console)
    (h : (read line).diagnostics.isEmpty = true) :
    c.answerProgram budget line =
      (⟨answerTo (read line).program (c.runLine budget line).1, (read line).log,
          (c.runLine budget line).2.events⟩,
        countEvaluation (c.runLine budget line).1.isFailure
          ⟨⟨(c.runLine budget line).2.memory, c.session.scope⟩, c.stats⟩) := by
  simp only [answerProgram, h, if_true, runLine]

@[simp] theorem session_countCommand (c : Console) : c.countCommand.session = c.session := rfl

@[simp] theorem session_countEvaluation (failed : Bool) (c : Console) :
    (c.countEvaluation failed).session = c.session := rfl

theorem obey_ne_binding (word : String) (c : Console) (name : String) :
    (c.obey word).1 ≠ .binding name := by
  unfold obey
  split <;> simp

/-- A line that is answered by a name is a program and was evaluated to a value. -/
theorem of_answer_binding (h : (c.answer budget line).1.answer = .binding name) :
    (∃ before e, (read line).program.statements = before ++ [.binding name e]) ∧
      (∃ v, (c.runLine budget line).1 = .done v) ∧
      (c.answer budget line).2.session = ⟨(c.runLine budget line).2.memory, c.session.scope⟩ := by
  by_cases hblank : IsBlankLine line
  · rw [answer_of_blank hblank] at h
    cases h
  by_cases hcommand : IsCommandLine line
  · have hne := obey_ne_binding (firstWord (trim line)) c.countCommand name
    rw [answer_of_command budget c hcommand] at h
    generalize c.countCommand.obey (firstWord (trim line)) = obeyed at h hne
    exact absurd h hne
  rw [answer_of_program budget c hblank hcommand] at h ⊢
  cases hempty : (read line).diagnostics.isEmpty with
  | false =>
    rw [answerProgram_of_raised budget c hempty] at h
    cases h
  | true =>
    rw [answerProgram_of_clean budget c hempty] at h ⊢
    simp only [session_countEvaluation, and_true] at h ⊢
    have htells := answerTo_tells (read line).program (c.runLine budget line).1
    rw [h] at htells
    exact htells.of_binding

theorem session_obey (word : String) (c : Console) :
    (c.obey word).2.session = c.session ∨ (c.obey word).2.session = c.session.reset := by
  unfold obey
  split
  case h_3 => exact .inr rfl
  all_goals exact .inl rfl

/-- What a line does to the session: nothing, or a reset, or what its program does. -/
theorem session_answer (budget : Nat) (line : String) (c : Console) :
    (c.answer budget line).2.session = c.session ∨
      (c.answer budget line).2.session = c.session.reset ∨
      (c.answer budget line).2.session = ⟨(c.runLine budget line).2.memory, c.session.scope⟩ := by
  by_cases hblank : IsBlankLine line
  · rw [answer_of_blank hblank]
    exact .inl rfl
  by_cases hcommand : IsCommandLine line
  · have hobey := session_obey (firstWord (trim line)) c.countCommand
    rw [session_countCommand] at hobey
    rw [answer_of_command budget c hcommand]
    generalize c.countCommand.obey (firstWord (trim line)) = obeyed at hobey ⊢
    exact hobey.imp_right .inl
  rw [answer_of_program budget c hblank hcommand]
  cases hempty : (read line).diagnostics.isEmpty with
  | false =>
    rw [answerProgram_of_raised budget c hempty]
    exact .inl rfl
  | true =>
    rw [answerProgram_of_clean budget c hempty, session_countEvaluation]
    exact .inr (.inr rfl)

/-- What resets and programs keep, every history keeps. -/
theorem session_answerAll {P : Session → Prop} (hreset : ∀ s, P s → P s.reset)
    (hrun : ∀ (s : Session) (p : Program), P s →
      P ⟨(p.run budget s.scope (.ofMemory s.memory)).2.memory, s.scope⟩)
    (h : P c.session) (lines : List String) : P (c.answerAll budget lines).2.session := by
  induction lines generalizing c with
  | nil => exact h
  | cons line rest ih =>
    rw [answerAll_cons]
    refine ih ?_
    rcases c.session_answer budget line with hsame | hsame | hsame <;> rw [hsame]
    · exact h
    · exact hreset _ h
    · rw [runLine]
      exact hrun _ _ h

end Console

/-- The scope of the session exists. -/
def Session.Live (s : Session) : Prop := s.scope < s.memory.scopes.size

theorem Session.live_reset (s : Session) : s.reset.Live := by
  show s.memory.scopes.size < (s.memory.addScope []).2.scopes.size
  rw [Memory.size_addScope]
  exact Nat.lt_succ_self _

theorem Session.Live.run {s : Session} (h : s.Live) (p : Program) (budget : Nat) :
    Session.Live ⟨(p.run budget s.scope (.ofMemory s.memory)).2.memory, s.scope⟩ :=
  Nat.lt_of_lt_of_le h ((Built.run p budget s.scope).size_le (.ofMemory s.memory))

theorem Console.live (budget : Nat) (history : List String) :
    (Console.new.answerAll budget history).2.session.Live :=
  session_answerAll (fun s _ => s.live_reset) (fun _ p hs => hs.run p budget)
    (Session.live_reset ⟨.empty, 0⟩) history

namespace Console

variable {budget : Nat} {line name : String} {c : Console}

/-- From the first of the consoles to the second, the statements of the line were executed, the last
of which is a `let`. If those before it have returned, the line ended with them; else the expression
was evaluated, as the last thing but one, and the name is bound to its value in the scope of the
session. -/
def EndsWithLet (budget : Nat) (line name : String) (c c' : Console) : Prop :=
  ∃ before e w m, (read line).program.statements = before ++ [.binding name e] ∧
    runStatements (evaluate budget) c.session.scope before .null (.ofMemory c.session.memory) =
      (.done w, m) ∧
    c'.session.scope = c.session.scope ∧
    (w.isReturned = true ∧ c'.session.memory = m.memory ∨
      w.isReturned = false ∧ ∃ v m', evaluate budget c.session.scope e m = (.done v, m') ∧
        c'.session.memory = m'.memory.define c'.session.scope name v ∧
        (c'.session.memory.bindings c'.session.scope).get? name = some v)

/-- What was done when a line is answered by a name. -/
theorem endsWithLet (hlive : c.session.Live) (h : (c.answer budget line).1.answer = .binding name) :
    EndsWithLet budget line name c (c.answer budget line).2 := by
  obtain ⟨⟨before, e, hstatements⟩, ⟨v, hv⟩, hsession⟩ := of_answer_binding h
  obtain ⟨u, hblock⟩ := Program.exists_of_run_done hv
  rw [runBlock, hstatements] at hblock
  obtain ⟨w, m, hbefore, hrest⟩ := runStatements_binding hblock
  have hlt := hlive.run (read line).program budget
  rw [Console.runLine] at hsession
  generalize ((read line).program.run budget c.session.scope (.ofMemory c.session.memory)).2 = m'
    at hrest hsession hlt
  rw [EndsWithLet, hsession]
  refine ⟨before, e, w, m, hstatements, hbefore, rfl, ?_⟩
  rcases hrest with ⟨hw, rfl⟩ | ⟨hw, x, m₂, heval, rfl⟩
  · exact .inl ⟨hw, rfl⟩
  · rw [Session.Live, Memory.size_define] at hlt
    refine .inr ⟨hw, x, m₂, heval, rfl, ?_⟩
    rw [Memory.bindings_define_self hlt, Bindings.get?_set, if_pos rfl]

end Console

/-- After any history, a line that is answered by a name ends with a `let` of this name, which was
executed unless a statement before it has returned. -/
theorem binding_answered (budget : Nat) (history : List String) (line name : String)
    (h : ((Console.new.answerAll budget history).2.answer budget line).1.answer = .binding name) :
    Console.EndsWithLet budget line name (Console.new.answerAll budget history).2
      ((Console.new.answerAll budget history).2.answer budget line).2 :=
  Console.endsWithLet (Console.live budget history) h

/-- A function of an earlier line is called for the value. -/
theorem binding_answered_call :
    let c := (Console.new.answerAll 9 ["let f = fn(x) \x7b return x + x \x7d"]).2
    (c.answer 9 "puts(1); let y = f(2)").1.answer = .binding "y" ∧
      Console.EndsWithLet 9 "puts(1); let y = f(2)" "y" c (c.answer 9 "puts(1); let y = f(2)").2 :=
  ⟨rfl, binding_answered 9 _ _ _ rfl⟩

/-- The `return` ends the line before its `let`, and yet the line is answered by the name. -/
theorem binding_answered_unbound :
    ((Console.new.answerAll 9 []).2.answer 9 "return 1; let x = 2;").1.answer = .binding "x" ∧
      ((Console.new.answerAll 9 []).2.answer 9 "return 1; let x = 2;").2.session.ownBindings = [] :=
  ⟨rfl, rfl⟩

end Treewalk
