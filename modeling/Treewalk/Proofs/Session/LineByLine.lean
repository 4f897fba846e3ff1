import Treewalk.Proofs.Exits.Agreement
import Treewalk.Proofs.Reading.Blank
import Treewalk.Proofs.Run.Built
import Treewalk.Session.Console

namespace Treewalk

open Evaluation Text

section
variable {eval : Eval} {scope : ScopeId}

theorem runStatements_append {ss ts : List Statement} {v : Value} (hv : v.isReturned = false)
    (m : Machine) : runStatements eval scope (ss ++ ts) v m =
      (runStatements eval scope ss v >>= fun w =>
        if w.isReturned then pure w else runStatements eval scope ts w) m := by
  induction ss generalizing v m with
  | nil => rw [List.nil_append, runStatements, bind_of_done (pure_apply v m), hv]; rfl
  | cons s ss ih =>
    rw [List.cons_append, runStatements, runStatements, bind_bind]
    refine bind_congr (fun w m' _ => ?_)
    cases hw : w.isReturned with
    | true =>
      simp only [if_true]
      rw [bind_of_done (pure_apply w m'), hw, if_pos rfl]
    | false => exact ih hw m'

/-- What was there before a statement does not matter. -/
theorem runStatements_eq_runBlock {ss : List Statement} (h : ss ≠ []) (v : Value) :
    runStatements eval scope ss v = runBlock eval scope ss := by
  cases ss with
  | nil => contradiction
  | cons s ss => rfl

end

theorem Program.run_machine (p : Program) (budget : Nat) (scope : ScopeId) (m : Machine) :
    (p.run budget scope m).2 = (runBlock (evaluate budget) scope p.statements m).2 := by
  rw [run, bind_apply]
  cases runBlock (evaluate budget) scope p.statements m with
  | mk outcome m' => cases outcome <;> rfl

/-- Programs whose statements do the same, apart from what was recorded before, do the same. -/
theorem Program.run_withPast {p q : Program} {budget : Nat} {scope scope' : ScopeId}
    {m m' : Machine} {past : List Event} (h : runBlock (evaluate budget) scope p.statements m =
      ((runBlock (evaluate budget) scope' q.statements m').1,
        (runBlock (evaluate budget) scope' q.statements m').2.withPast past)) :
    p.run budget scope m =
      ((q.run budget scope' m').1, (q.run budget scope' m').2.withPast past) := by
  rw [run, run, bind_apply, bind_apply, h]
  cases runBlock (evaluate budget) scope' q.statements m' with
  | mk outcome m'' => cases outcome <;> rfl

/-- The line is no command, and nothing is wrong with it. It may be blank. -/
structure Evaluable (line : String) : Prop where
  head_ne : (trim line).toList.head? ≠ some ':'
  raised : (read line).raised = []

def IsBlankLine (line : String) : Prop := (trim line).isEmpty = true

/-- How a line is answered whose program has ended like this: by the value, a fault counting as the
error with its message, or by a name alone, if it has a value other than an error and its last
statement is a `let` of the name. -/
inductive Answer.Tells (p : Program) : Outcome Value → Answer → Prop where
  | fault (f : Fault) : Tells p (.failed f) (.value (.error f.message))
  | exhausted : Tells p .exhausted .exhausted
  | error (text : String) : Tells p (.done (.error text)) (.value (.error text))
  | binding {v : Value} {name : String} {before : List Statement} {e : Expression}
      (hv : ∀ text, v ≠ .error text) (hlast : p.statements = before ++ [.binding name e]) :
    Tells p (.done v) (.binding name)
  | value {v : Value} (hv : ∀ text, v ≠ .error text)
      (hlast : ∀ before name e, p.statements ≠ before ++ [.binding name e]) :
    Tells p (.done v) (.value v)

/-- The statements of all lines. -/
def Program.ofLines (lines : List String) : Program :=
  ⟨lines.flatMap (fun line => (read line).program.statements)⟩

theorem Program.lastBinding?_eq_some_iff {p : Program} {name : String} :
    p.lastBinding? = some name ↔ ∃ before e, p.statements = before ++ [.binding name e] := by
  rw [lastBinding?]
  constructor
  · intro h
    split at h
    · next last e hlast =>
      obtain rfl := Option.some.inj h
      obtain ⟨before, hbefore⟩ := List.getLast?_eq_some_iff.mp hlast
      exact ⟨before, e, hbefore⟩
    · contradiction
  · rintro ⟨before, e, hstatements⟩
    rw [hstatements, List.getLast?_append]
    rfl

theorem answerTo_tells (p : Program) (o : Outcome Value) : Answer.Tells p o (answerTo p o) := by
  cases o with
  | failed f => exact .fault f
  | exhausted => exact .exhausted
  | done v =>
    by_cases herror : v.isError = true
    · cases v with
      | error text => exact .error text
      | _ => contradiction
    · have hv : ∀ text, v ≠ .error text := by
        rintro text rfl
        exact herror rfl
      rw [answerTo, if_neg herror]
      cases hlast : p.lastBinding? with
      | some name =>
        obtain ⟨before, e, hstatements⟩ := Program.lastBinding?_eq_some_iff.mp hlast
        exact .binding hv hstatements
      | none =>
        refine .value hv (fun before name e hstatements => ?_)
        have hsome := Program.lastBinding?_eq_some_iff.mpr ⟨before, e, hstatements⟩
        rw [hlast] at hsome
        contradiction

namespace Console

variable {budget : Nat} {line : String} {lines before after : List String} {c : Console}

/-- Answers one line after the other. -/
def answerAll (budget : Nat) : List String → Console → List Reply × Console
  | [], c => ([], c)
  | line :: rest, c =>
    let (reply, c') := c.answer budget line
    let (replies, c'') := c'.answerAll budget rest
    (reply :: replies, c'')

/-- What the statements do in the scope and the memory of the console. -/
def perform (budget : Nat) (body : Block) (c : Console) : Outcome Value × Machine :=
  runBlock (evaluate budget) c.session.scope body (.ofMemory c.session.memory)

/-- A statement of the line fails, or returns. -/
def StopsAt (budget : Nat) (line : String) (c : Console) : Prop :=
  ∀ v, (c.perform budget (read line).program.statements).1 = .done v → v.isReturned = true

/-- None of the lines stops, if they are answered one after the other. -/
def GoesOn (budget : Nat) : List String → Console → Prop
  | [], _ => True
  | line :: rest, c => ¬ c.StopsAt budget line ∧ (c.answer budget line).2.GoesOn budget rest

/-- The lines `before` go on, and this line is the last one that counts: it stops, or all lines
after it are blank. -/
structure EndsAt (budget : Nat) (before : List String) (line : String) (after : List String)
    (c : Console) : Prop where
  goesOn : c.GoesOn budget before
  notBlank : ¬ IsBlankLine line
  last : (c.answerAll budget before).2.StopsAt budget line ∨ ∀ l ∈ after, IsBlankLine l

theorem answerAll_cons : c.answerAll budget (line :: lines) =
    ((c.answer budget line).1 :: ((c.answer budget line).2.answerAll budget lines).1,
      ((c.answer budget line).2.answerAll budget lines).2) := by
  simp only [answerAll]

theorem answer_of_blank (h : IsBlankLine line) : c.answer budget line = (⟨.empty, [], []⟩, c) := by
  rw [IsBlankLine] at h
  simp only [answer, h, if_true]

theorem answer_of_evaluable (budget : Nat) (c : Console) (h : Evaluable line)
    (hb : ¬ IsBlankLine line) :
    Answer.Tells (read line).program
        ((read line).program.run budget c.session.scope (.ofMemory c.session.memory)).1
        (c.answer budget line).1.answer ∧
      (c.answer budget line).1.events = (c.perform budget (read line).program.statements).2.events ∧
      (c.answer budget line).2.session =
        ⟨(c.perform budget (read line).program.statements).2.memory, c.session.scope⟩ := by
  have hempty : (read line).diagnostics.isEmpty = true :=
    (read line).diagnostics_isEmpty_iff.mpr h.raised
  have hanswer : c.answer budget line = c.answerProgram budget line := by
    rw [IsBlankLine] at hb
    simp only [answer, hb, Bool.false_eq_true, if_false, h.head_ne]
  have hmachine := (read line).program.run_machine budget c.session.scope
    (.ofMemory c.session.memory)
  rw [perform, ← hmachine, hanswer]
  simp only [answerProgram, hempty, if_true, countEvaluation, and_true]
  exact answerTo_tells _ _

/-- Whether a line is blank or not, its statements leave behind what the console does. -/
theorem perform_of_evaluable (budget : Nat) (c : Console) (h : Evaluable line) :
    (c.answer budget line).1.events = (c.perform budget (read line).program.statements).2.events ∧
      (c.answer budget line).2.session =
        ⟨(c.perform budget (read line).program.statements).2.memory, c.session.scope⟩ := by
  by_cases hb : IsBlankLine line
  · rw [answer_of_blank hb, (statements_eq_nil_iff h.raised).mpr hb]
    exact ⟨rfl, rfl⟩
  · exact (answer_of_evaluable budget c h hb).2

theorem not_stopsAt_of_blank (h : Evaluable line) (hb : IsBlankLine line) :
    ¬ c.StopsAt budget line := by
  intro hstops
  have hdone : (c.perform budget (read line).program.statements).1 = .done .null := by
    rw [(statements_eq_nil_iff h.raised).mpr hb]
    rfl
  exact absurd (hstops _ hdone) (by decide)

/-- Between statements no call runs, so that nothing but the memory and what was recorded is left of
a line. -/
theorem perform_machine (budget : Nat) (body : Block) (c : Console) :
    (c.perform budget body).2 = (Machine.ofMemory (c.perform budget body).2.memory).withPast
      (c.perform budget body).2.events.reverse := by
  have hdepth : (c.perform budget body).2.callDepth = 0 :=
    (Built.runBlock (Built.evaluate budget) c.session.scope body).callDepth_eq _
  generalize (c.perform budget body).2 = m at hdepth
  obtain ⟨memory, callDepth, journal⟩ := m
  obtain rfl : callDepth = 0 := hdepth
  simp [Machine.ofMemory, Machine.withPast, Machine.events]

/-- Before the statements of a line that does not stop there may be a value. -/
theorem runStatements_of_not_stopsAt (h : ¬ c.StopsAt budget line) {v : Value}
    (hv : v.isReturned = false) : ∃ w : Value, w.isReturned = false ∧
      runStatements (evaluate budget) c.session.scope (read line).program.statements v
        (.ofMemory c.session.memory) =
          (.done w, (c.perform budget (read line).program.statements).2) := by
  by_cases hnil : (read line).program.statements = []
  · rw [perform, hnil]
    exact ⟨v, hv, rfl⟩
  · obtain ⟨w, hw⟩ := not_forall.mp h
    obtain ⟨hdone, hreturned⟩ := Classical.not_imp.mp hw
    refine ⟨w, Bool.eq_false_iff.mpr hreturned, ?_⟩
    rw [runStatements_eq_runBlock hnil, ← hdone]
    rfl

/-- After lines that go on, the one program does what the console would do, and has recorded what
the console replied. -/
theorem runStatements_goesOn (hlines : ∀ l ∈ before, Evaluable l) (hgoes : c.GoesOn budget before)
    {rest : List Statement} (hrest : rest ≠ []) {v : Value} (hv : v.isReturned = false) :
    runStatements (evaluate budget) c.session.scope
        ((Program.ofLines before).statements ++ rest) v (.ofMemory c.session.memory) =
      (((c.answerAll budget before).2.perform budget rest).1,
        ((c.answerAll budget before).2.perform budget rest).2.withPast
          ((c.answerAll budget before).1.flatMap Reply.events).reverse) := by
  induction before generalizing c v with
  | nil =>
    rw [show (Program.ofLines []).statements ++ rest = rest from rfl,
      runStatements_eq_runBlock hrest]
    simp [answerAll, perform]
  | cons line before ih =>
    obtain ⟨hline, hbefore⟩ := List.forall_mem_cons.mp hlines
    obtain ⟨hnot, hgoes⟩ := hgoes
    obtain ⟨hevents, hsession⟩ := c.perform_of_evaluable budget hline
    obtain ⟨w, hw, hrun⟩ := runStatements_of_not_stopsAt hnot hv
    have hmemory : (c.answer budget line).2.session.memory =
        (c.perform budget (read line).program.statements).2.memory := by rw [hsession]
    have hscope : (c.answer budget line).2.session.scope = c.session.scope := by rw [hsession]
    -- The rest is run in the memory that the line leaves, with the events of the line in the past.
    have hmachine := c.perform_machine budget (read line).program.statements
    rw [← hmemory, ← hevents] at hmachine
    have hsplit : (Program.ofLines (line :: before)).statements ++ rest =
        (read line).program.statements ++ ((Program.ofLines before).statements ++ rest) := by
      simp [Program.ofLines]
    have hbuilt := Built.runStatements (Built.evaluate budget) c.session.scope
      ((Program.ofLines before).statements ++ rest) w
    have hrest := ih hbefore hgoes hw
    rw [hscope] at hrest
    rw [hsplit, runStatements_append hv, bind_of_done hrun, hw, if_neg Bool.false_ne_true, hmachine,
      hbuilt.withPast, hrest]
    simp [answerAll_cons, Machine.withPast]

/-- The statements behind the last line that counts are not reached, or there are none. -/
theorem perform_of_endsAt (h : c.EndsAt budget before line after)
    (hafter : ∀ l ∈ after, Evaluable l) :
    (c.answerAll budget before).2.perform budget
        ((read line).program.statements ++ (Program.ofLines after).statements) =
      (c.answerAll budget before).2.perform budget (read line).program.statements := by
  rcases h.last with hstops | hblank
  · rw [perform, perform, runBlock, runBlock, runStatements_append rfl]
    cases hrun : runStatements (evaluate budget) (c.answerAll budget before).2.session.scope
        (read line).program.statements .null
        (.ofMemory (c.answerAll budget before).2.session.memory) with
    | mk outcome m =>
      cases outcome with
      | done v =>
        have hv : v.isReturned = true := hstops v (congrArg Prod.fst hrun)
        rw [bind_of_done hrun, hv]
        rfl
      | failed fault => exact bind_of_failed hrun
      | exhausted => exact bind_of_exhausted hrun
  · have hnil : (Program.ofLines after).statements = [] :=
      List.flatMap_eq_nil_iff.mpr (fun l hl =>
        (statements_eq_nil_iff (hafter l hl).raised).mpr (hblank l hl))
    rw [hnil, List.append_nil]

theorem EndsAt.cons {first : String} (hfirst : ¬ c.StopsAt budget first)
    (h : (c.answer budget first).2.EndsAt budget before line after) :
    c.EndsAt budget (first :: before) line after := by
  refine ⟨⟨hfirst, h.goesOn⟩, h.notBlank, ?_⟩
  rw [answerAll_cons]
  exact h.last

theorem exists_endsAt (hlines : ∀ l ∈ lines, Evaluable l) (h : ∃ l ∈ lines, ¬ IsBlankLine l) :
    ∃ before line after, lines = before ++ line :: after ∧ c.EndsAt budget before line after := by
  induction lines generalizing c with
  | nil => simp at h
  | cons line rest ih =>
    obtain ⟨hline, hrest⟩ := List.forall_mem_cons.mp hlines
    by_cases hstops : c.StopsAt budget line
    · have hb : ¬ IsBlankLine line := fun hb => not_stopsAt_of_blank hline hb hstops
      exact ⟨[], line, rest, rfl, trivial, hb, .inl hstops⟩
    by_cases hblank : ∀ l ∈ rest, IsBlankLine l
    · have hb : ¬ IsBlankLine line := by
        obtain ⟨l, hl, hb⟩ := h
        rcases List.mem_cons.mp hl with rfl | hl
        · exact hb
        · exact absurd (hblank l hl) hb
      exact ⟨[], line, rest, rfl, trivial, hb, .inr hblank⟩
    · obtain ⟨before, last, after, rfl, hends⟩ :=
        ih (c := (c.answer budget line).2) hrest (by simpa using hblank)
      exact ⟨line :: before, last, after, rfl, hends.cons hstops⟩

theorem answerAll_of_blank (h : ∀ l ∈ lines, IsBlankLine l) :
    c.answerAll budget lines = (lines.map (fun _ => ⟨.empty, [], []⟩), c) := by
  induction lines with
  | nil => rfl
  | cons line rest ih =>
    obtain ⟨hb, hrest⟩ := List.forall_mem_cons.mp h
    rw [answerAll_cons, answer_of_blank hb, ih hrest, List.map_cons]

theorem scope_answerAll (hlines : ∀ l ∈ lines, Evaluable l) :
    (c.answerAll budget lines).2.session.scope = c.session.scope := by
  induction lines generalizing c with
  | nil => rfl
  | cons line rest ih =>
    obtain ⟨hline, hrest⟩ := List.forall_mem_cons.mp hlines
    rw [answerAll_cons, ih hrest, (perform_of_evaluable budget c hline).2]

/-- The one program ends as the last line that counts does. -/
theorem run_of_endsAt (hlines : ∀ l ∈ before ++ line :: after, Evaluable l)
    (h : c.EndsAt budget before line after) :
    let d := (c.answerAll budget before).2
    let run := (read line).program.run budget d.session.scope (.ofMemory d.session.memory)
    (Program.ofLines (before ++ line :: after)).run budget c.session.scope
        (.ofMemory c.session.memory) =
      (run.1, run.2.withPast ((c.answerAll budget before).1.flatMap Reply.events).reverse) := by
  intro d run
  have hbefore : ∀ l ∈ before, Evaluable l := fun l hl => hlines l (by simp [hl])
  have hline : Evaluable line := hlines line (by simp)
  have hafter : ∀ l ∈ after, Evaluable l := fun l hl => hlines l (by simp [hl])
  have hsplit : (Program.ofLines (before ++ line :: after)).statements =
      (Program.ofLines before).statements ++
        ((read line).program.statements ++ (Program.ofLines after).statements) := by
    simp [Program.ofLines]
  have hne : (read line).program.statements ++ (Program.ofLines after).statements ≠ [] := by
    intro hnil
    exact h.notBlank ((statements_eq_nil_iff hline.raised).mp (List.append_eq_nil_iff.mp hnil).1)
  refine Program.run_withPast ?_
  rw [hsplit, runBlock, runStatements_goesOn hbefore h.goesOn hne rfl, perform_of_endsAt h hafter]
  rfl

end Console

/-- Lines that can be evaluated, answered one after the other, and one program of all their
statements: up to the first line that fails or returns, or else up to the last one that is not blank,
both record the same, leave the same memory and end alike, and that line is answered by how the one
program ends. If all lines are blank, neither does anything. -/
theorem run_ofLines (budget : Nat) {lines : List String} (hlines : ∀ l ∈ lines, Evaluable l)
    (c : Console) :
    let whole := (Program.ofLines lines).run budget c.session.scope (.ofMemory c.session.memory)
    ((∀ l ∈ lines, IsBlankLine l) →
      c.answerAll budget lines = (lines.map (fun _ => ⟨.empty, [], []⟩), c) ∧
        whole = (.done .null, .ofMemory c.session.memory)) ∧
    ((∃ l ∈ lines, ¬ IsBlankLine l) → ∃ before line after,
      lines = before ++ line :: after ∧ c.EndsAt budget before line after) ∧
    ∀ before line after, lines = before ++ line :: after → c.EndsAt budget before line after →
      let heard := c.answerAll budget before
      let last := heard.2.answer budget line
      whole.2.events = heard.1.flatMap Reply.events ++ last.1.events ∧
        last.2.session = ⟨whole.2.memory, c.session.scope⟩ ∧
        whole.1 = ((read line).program.run budget heard.2.session.scope
          (.ofMemory heard.2.session.memory)).1 ∧
        Answer.Tells (read line).program whole.1 last.1.answer := by
  intro whole
  refine ⟨fun hblank => ⟨Console.answerAll_of_blank hblank, ?_⟩, Console.exists_endsAt hlines, ?_⟩
  · have hnil : Program.ofLines lines = ⟨[]⟩ :=
      congrArg Program.mk (List.flatMap_eq_nil_iff.mpr (fun l hl =>
        (statements_eq_nil_iff (hlines l hl).raised).mpr (hblank l hl)))
    simp only [whole, hnil]
    rfl
  · rintro before line after rfl h
    have hbefore : ∀ l ∈ before, Evaluable l := fun l hl => hlines l (by simp [hl])
    have hline : Evaluable line := hlines line (by simp)
    have hwhole := Console.run_of_endsAt hlines h
    have hscope : (c.answerAll budget before).2.session.scope = c.session.scope :=
      Console.scope_answerAll hbefore
    obtain ⟨hanswer, hevents, hsession⟩ :=
      (c.answerAll budget before).2.answer_of_evaluable budget hline h.notBlank
    rw [Console.perform, ← Program.run_machine] at hevents hsession
    rw [hscope] at hanswer
    simp only [whole, hwhole, hevents, hsession, hscope, Machine.events_withPast,
      Machine.withPast_memory, List.reverse_reverse, true_and]
    exact hanswer

def bindingLine : String := "let f = fn(x) \x7b puts(x); x + x \x7d"

def returningLine : String := "f(1); if (true) \x7b return f(2) \x7d; 3"

/-- The last line is evaluated by the console, but not reached by the one program. -/
theorem run_ofLines_returning :
    (∀ l ∈ [bindingLine, " ", returningLine, "f(5)"], Evaluable l) ∧
    Console.new.EndsAt 9 [bindingLine, " "] returningLine ["f(5)"] ∧
    let whole := (Program.ofLines [bindingLine, " ", returningLine, "f(5)"]).run 9
      Console.new.session.scope (.ofMemory Console.new.session.memory)
    let heard := Console.new.answerAll 9 [bindingLine, " "]
    whole.2.events = heard.1.flatMap Reply.events ++ (heard.2.answer 9 returningLine).1.events ∧
      whole.1 = .done (.integer 4) ∧
      (heard.2.answer 9 returningLine).1.answer = .value (.integer 4) := by
  have hlines : ∀ l ∈ [bindingLine, " ", returningLine, "f(5)"], Evaluable l := by
    intro l hl
    simp only [List.mem_cons, List.not_mem_nil, or_false] at hl
    rcases hl with rfl | rfl | rfl | rfl <;> exact ⟨by decide, rfl⟩
  have hbinding : ¬ Console.new.StopsAt 9 bindingLine := fun h => absurd (h .null rfl) (by decide)
  have hblank : IsBlankLine " " := by
    unfold IsBlankLine
    decide
  have hreturning : ¬ IsBlankLine returningLine := by
    unfold IsBlankLine
    decide
  have hreturns : ((Console.new.answerAll 9 [bindingLine, " "]).2.perform 9
      (read returningLine).program.statements).1 = .done (.returned (.integer 4)) := rfl
  have hends : Console.new.EndsAt 9 [bindingLine, " "] returningLine ["f(5)"] := by
    refine ⟨⟨hbinding, Console.not_stopsAt_of_blank (hlines _ (by simp)) hblank, trivial⟩,
      hreturning, .inl (fun v hv => ?_)⟩
    rw [hreturns] at hv
    obtain rfl := Outcome.done.inj hv
    rfl
  exact ⟨hlines, hends, ((run_ofLines 9 hlines .new).2.2 _ _ _ rfl hends).1, rfl, rfl⟩

/-- A blank line is not evaluated, so that it is not answered as what comes before it. -/
theorem blank_not_answered :
    Evaluable "1" ∧ Evaluable "" ∧ ¬ Console.new.StopsAt 9 "1" ∧
    ¬ (Console.new.answer 9 "1").2.StopsAt 9 "" ∧
    ((Program.ofLines ["1", ""]).run 9 Console.new.session.scope
      (.ofMemory Console.new.session.memory)).1 = .done (.integer 1) ∧
    ((Console.new.answer 9 "1").2.answer 9 "").1.answer = .empty ∧
    ∀ p : Program, ¬ Answer.Tells p (.done (.integer 1)) .empty := by
  have hone : Evaluable "1" := ⟨by decide, rfl⟩
  have hempty : Evaluable "" := ⟨by decide, rfl⟩
  have hblank : IsBlankLine "" := rfl
  refine ⟨hone, hempty, fun h => absurd (h (.integer 1) rfl) (by decide),
    Console.not_stopsAt_of_blank hempty hblank, rfl, ?_, fun p h => ?_⟩
  · rw [Console.answer_of_blank hblank]
  · cases h

end Treewalk
