import Treewalk.Proofs.Reading.Built

namespace Treewalk

/-- The record of a routine that is begun or ended inside of so many others: four blanks for each of
them, and the text. -/
def LogRecord.ofRoutine (depth : Nat) (text : String) : LogRecord :=
  ⟨.trace, "monkey_parser::parser::tracing", String.ofList (List.replicate (4 * depth) ' ') ++ text⟩

/-- Inside of so many pairs that are open, records of routines in pairs: the end of each names the
routine that was begun last and has not ended. All are indented by the number of open pairs. -/
inductive LogRecord.Paired : Nat → List LogRecord → Prop where
  | nil {depth : Nat} : Paired depth []
  | pair {depth : Nat} (routine : Routine) {inner rest : List LogRecord}
      (hinner : Paired (depth + 1) inner) (hrest : Paired depth rest) :
      Paired depth (.ofRoutine depth ("BEGIN " ++ routine.name) ::
        (inner ++ .ofRoutine depth ("END " ++ routine.name) :: rest))

/-- A name tells which routine it is the name of. -/
theorem Routine.name_injective : Function.Injective Routine.name := by
  intro r r' h
  cases r <;> cases r' <;> simp [name] at h ⊢

theorem LogRecord.Paired.append {depth : Nat} {xs ys : List LogRecord} (h : Paired depth xs)
    (h' : Paired depth ys) : Paired depth (xs ++ ys) := by
  induction h with
  | nil => exact h'
  | pair routine hinner _ _ ih =>
    rw [List.cons_append, List.append_assoc, List.cons_append]
    exact .pair routine hinner (ih h')

namespace ReadingStep

/-- What is told of the routine that is begun or ended. -/
def trace? : ReadingStep → Option LogRecord
  | enter routine depth _ => some (.ofRoutine depth ("BEGIN " ++ routine.name))
  | leave routine depth => some (.ofRoutine depth ("END " ++ routine.name))
  | raise _ _ => none

/-- How many diagnostics are reported makes no difference to the trace. -/
theorem filter_log (budget : Nat) (steps : List ReadingStep) :
    (log budget steps).filter (fun record => record.level = .trace) = steps.filterMap trace? := by
  induction steps generalizing budget with
  | nil => simp [log]
  | cons step rest ih =>
    cases step with
    | enter routine depth t =>
      simp [log, indentation, trace?, ih, LogRecord.ofRoutine, String.append_assoc]
    | leave routine depth =>
      simp [log, indentation, trace?, ih, LogRecord.ofRoutine, String.append_assoc]
    | raise d t =>
      have hnone : trace? (.raise d t) = none := rfl
      cases budget with
      | zero => simp [log, ih, hnone]
      | succ budget => simp [log, ih, hnone]

end ReadingStep

/-- As many routines are open as before, and all that were begun in between have ended. -/
structure Cursor.Balanced (c c' : Cursor) : Prop where
  depth : c'.depth = c.depth
  paired : ∃ steps : List ReadingStep, c'.trail = steps.reverse ++ c.trail ∧
    LogRecord.Paired c.depth (steps.filterMap ReadingStep.trace?)

namespace Cursor.Balanced

variable {c c' d : Cursor}

theorem refl (c : Cursor) : c.Balanced c := ⟨rfl, [], rfl, .nil⟩

theorem advance (c : Cursor) : c.Balanced c.advance := ⟨rfl, [], rfl, .nil⟩

theorem raise (d : Diagnostic) (c : Cursor) : c.Balanced (c.raise d) :=
  ⟨rfl, [.raise d c.current], rfl, .nil⟩

theorem trans (h : c.Balanced c') (h' : c'.Balanced d) : c.Balanced d := by
  obtain ⟨hdepth, steps, hsteps, hpaired⟩ := h
  obtain ⟨hdepth', others, hothers, hpaired'⟩ := h'
  refine ⟨hdepth'.trans hdepth, steps ++ others, ?_, ?_⟩
  · rw [hothers, hsteps, List.reverse_append, List.append_assoc]
  · rw [List.filterMap_append]
    rw [hdepth] at hpaired'
    exact hpaired.append hpaired'

theorem within {routine : Routine} (h : (c.enter routine).Balanced d) :
    c.Balanced (d.leave routine) := by
  obtain ⟨hdepth, steps, hsteps, hpaired⟩ := h
  have hclosed : d.depth - 1 = c.depth := by rw [hdepth]; rfl
  refine ⟨hclosed, .enter routine c.depth c.current :: (steps ++ [.leave routine c.depth]), ?_, ?_⟩
  · simp [leave, hclosed, hsteps, enter]
  · have hpair := LogRecord.Paired.pair routine hpaired .nil
    simpa [ReadingStep.trace?] using hpair

end Cursor.Balanced

/-- Whatever an action does, each routine that it begins has ended when it is over. -/
theorem Reader.Built.balanced {α : Type} {p : Reader α} (h : Built p) (c : Cursor) :
    c.Balanced (p c).2 := by
  induction h generalizing c with
  | raise d => exact .raise d c
  | advance => exact .advance c
  | expect kind =>
    by_cases hkind : c.upcoming.kind = kind
    · rw [expect_apply_of_eq hkind]
      exact .advance c
    · rw [expect_apply_of_ne hkind]
      exact .raise _ c
  | skip kind =>
    rw [skip_apply]
    split
    · exact .advance c
    · exact .refl c
  | @bind α β p f hp hf ihp ihf =>
    have hfirst := ihp c
    cases hr : p c with
    | mk result c' =>
      rw [hr] at hfirst
      cases result with
      | none =>
        rw [bind_of_none hr]
        exact hfirst
      | some a =>
        rw [bind_of_some hr]
        exact hfirst.trans (ihf a c')
  | orNone hp ih => exact ih c
  | within routine hp ih => exact .within (ih (c.enter routine))
  | _ => exact .refl c

/-- The records of the routines, in their order among the others. -/
def Reading.trace (r : Reading) : List LogRecord :=
  r.log.filter (fun record => record.level = .trace)

/-- Texts that are read one after the other, each from the depth that the one before has left. -/
def readEach : Nat → List String → List Reading
  | _, [] => []
  | depth, source :: rest =>
    let r := Reading.ofScanner source (.ofText source) depth
    r :: readEach r.depth rest

theorem paired_trace (source : String) (scanner : Scanner) (depth : Nat) :
    LogRecord.Paired depth (Reading.ofScanner source scanner depth).trace ∧
      (Reading.ofScanner source scanner depth).depth = depth := by
  have hbuilt := Reader.Built.program (scanner.toList.dropLast.length + 1)
    (scanner.toList.dropLast.length + 1)
  obtain ⟨hdepth, steps, hsteps, hpaired⟩ :=
    hbuilt.balanced ⟨scanner.toList.dropLast, scanner.toList.getLastD default, depth, []⟩
  refine ⟨?_, hdepth⟩
  have hall : (Reading.ofScanner source scanner depth).steps = steps := by
    have htrail : (Reading.ofScanner source scanner depth).steps = (steps.reverse ++ []).reverse :=
      congrArg List.reverse hsteps
    rw [htrail, List.append_nil, List.reverse_reverse]
  rw [Reading.trace, Reading.log, ReadingStep.filter_log, hall]
  exact hpaired

/-- Whether a text is accepted or not, the records of the routines that read it are pairs inside of
pairs, each with the name of its routine, which no other routine has, and indented by four blanks for
each pair around it; in the end all routines have ended and the depth is what it was. So of texts that
are read one after the other, each one's records begin where those of the first one began. -/
theorem trace_paired (source : String) (scanner : Scanner) (depth : Nat) :
    LogRecord.Paired depth (Reading.ofScanner source scanner depth).trace ∧
      (Reading.ofScanner source scanner depth).depth = depth ∧
      (∀ (sources : List String), ∀ r ∈ readEach depth sources,
        LogRecord.Paired depth r.trace ∧ r.depth = depth) ∧
      Function.Injective Routine.name := by
  obtain ⟨hpaired, hdepth⟩ := paired_trace source scanner depth
  refine ⟨hpaired, hdepth, ?_, Routine.name_injective⟩
  intro sources
  induction sources with
  | nil => simp [readEach]
  | cons first rest ih =>
    have hfirst := paired_trace first (.ofText first) depth
    intro r hr
    rw [readEach, hfirst.2] at hr
    rcases List.mem_cons.mp hr with rfl | hr
    · exact hfirst
    · exact ih r hr

/-- The operand is missing, and the routines that give up on the way have ended like all others. -/
example : (read "!)").trace.map LogRecord.message =
    ["BEGIN parse_statement", "    BEGIN parse_expression_statement",
      "        BEGIN parse_expression", "            BEGIN parse_prefix_expression",
      "                BEGIN parse_expression", "                END parse_expression",
      "            END parse_prefix_expression", "        END parse_expression",
      "    END parse_expression_statement", "END parse_statement"] :=
  rfl

end Treewalk
