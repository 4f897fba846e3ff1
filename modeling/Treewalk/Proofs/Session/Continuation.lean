import Mathlib.Data.List.Induction
import Treewalk.Proofs.Reading.Blank
import Treewalk.Proofs.Scanning.Brackets

namespace Treewalk

open Text

/-- Adds one line after the other until the input is complete: the input, and the lines left. -/
def completeInput (pending : String) : List String → Option (String × List String)
  | [] => none
  | line :: rest =>
    match extendInput pending line with
    | (input, true) => some (input, rest)
    | (extended, false) => completeInput extended rest

/-- The lines with line feeds between them. -/
def joinLines (lines : List String) : String := "\n".intercalate lines

/-- The line is blank, and there is something before it. -/
def Submits (before : List String) (line : String) : Prop :=
  joinLines before ≠ "" ∧ ∀ c ∈ line.toList, isBlank c = true

instance (before : List String) (line : String) : Decidable (Submits before line) :=
  @instDecidableAnd _ _ _ (List.decidableBAll _ _)

/-- The line ends the input that the lines before it have begun. -/
def Completes (before : List String) (line : String) : Prop :=
  Submits before line ∨ NoneOpen (tokens (joinLines (before ++ [line])))

/-- The input that ends with the line. A blank line that submits is no part of it. -/
def inputUpTo (before : List String) (line : String) : String :=
  if Submits before line then joinLines before else joinLines (before ++ [line])

/-- None of the lines ends the input that those before it have begun. -/
def StaysOpen (lines : List String) : Prop :=
  ∀ earlier next later, lines = earlier ++ next :: later → ¬ Completes earlier next

/-- Brackets anywhere in the lines, also inside of strings. -/
def bracketCount (lines : List String) : Nat :=
  (lines.map (fun line => line.toList.countP isBracket)).sum

theorem countP_joinLines (lines : List String) :
    (joinLines lines).toList.countP isBracket = bracketCount lines := by
  induction lines with
  | nil => rfl
  | cons line lines ih =>
    cases lines with
    | nil => simp [joinLines, bracketCount]
    | cons next rest =>
      have hjoin : joinLines (line :: next :: rest) = line ++ "\n" ++ joinLines (next :: rest) :=
        String.intercalate_cons_cons
      have hfeed : "\n".toList.countP isBracket = 0 := by decide
      rw [hjoin, String.toList_append, String.toList_append, List.countP_append,
        List.countP_append, ih, hfeed]
      rfl

theorem bracketCount_append (before after : List String) :
    bracketCount (before ++ after) = bracketCount before + bracketCount after := by
  rw [bracketCount, List.map_append, List.sum_append]
  rfl

section
variable {before : List String} {line : String}

theorem noneOpen_empty : NoneOpen (tokens "") := by
  intro b
  cases b <;> decide

/-- Without brackets that are open there would be no waiting for a line, so something is pending. -/
theorem joinLines_ne_empty (h : ¬ Completes before line) : joinLines (before ++ [line]) ≠ "" :=
  fun hempty => h (.inr (hempty ▸ noneOpen_empty))

/-- What a line does to the pending ones. -/
theorem extendInput_joinLines (hbefore : before = [] ∨ joinLines before ≠ "") :
    extendInput (joinLines before) line =
      if Submits before line then (joinLines before, true)
      else (joinLines (before ++ [line]), bracketsClosed (joinLines (before ++ [line]))) := by
  by_cases hempty : joinLines before = ""
  · obtain rfl : before = [] := hbefore.resolve_right (fun hne => hne hempty)
    have hsingle : joinLines ([] ++ [line]) = line := String.intercalate_singleton
    rw [if_neg (fun h => h.1 hempty), hempty, hsingle]
    rfl
  · have hne : before ≠ [] := fun hnil => hempty (hnil ▸ rfl)
    have hjoin : joinLines (before ++ [line]) = joinLines before ++ "\n" ++ line := by
      have happend := String.intercalate_append_of_ne_nil (s := "\n") hne (List.cons_ne_nil line [])
      rwa [String.intercalate_singleton] at happend
    have hsubmits : Submits before line ↔ (trim line).isEmpty = true := by
      rw [trim_isEmpty_iff]
      exact and_iff_right hempty
    rw [extendInput, if_neg (by simpa using hempty), hjoin]
    exact if_congr hsubmits.symm rfl rfl

/-- The line is taken as the last one exactly if it completes the input. -/
theorem extendInput_cases (hbefore : before = [] ∨ joinLines before ≠ "")
    (hcount : bracketCount (before ++ [line]) < 2 ^ 31) :
    Completes before line ∧ extendInput (joinLines before) line = (inputUpTo before line, true) ∨
      ¬ Completes before line ∧
        extendInput (joinLines before) line = (joinLines (before ++ [line]), false) := by
  have hclosed := bracketsClosed_iff (by rwa [countP_joinLines])
  rw [extendInput_joinLines hbefore, inputUpTo, Completes]
  by_cases hs : Submits before line
  · exact .inl ⟨.inl hs, by rw [if_pos hs, if_pos hs]⟩
  · rw [if_neg hs, if_neg hs, ← hclosed]
    cases bracketsClosed (joinLines (before ++ [line])) with
    | true => exact .inl ⟨.inr rfl, rfl⟩
    | false => exact .inr ⟨by simp [hs], rfl⟩

end

theorem StaysOpen.concat {before : List String} (h : StaysOpen before) {line : String}
    (hline : ¬ Completes before line) : StaysOpen (before ++ [line]) := by
  intro earlier next later hlines
  rcases at_or_behind hlines with ⟨tail, hbefore⟩ | ⟨front, rfl, hfront⟩
  · exact h earlier next tail hbefore
  · cases front with
    | nil =>
      obtain ⟨rfl, _⟩ := List.cons.inj hfront
      rwa [List.append_nil]
    | cons _ front => simp at hfront

theorem StaysOpen.eq_nil_or_ne_empty {before : List String} (h : StaysOpen before) :
    before = [] ∨ joinLines before ≠ "" := by
  rcases List.eq_nil_or_concat before with hnil | ⟨earlier, last, rfl⟩
  · exact .inl hnil
  · rw [List.concat_eq_append] at h ⊢
    exact .inr (joinLines_ne_empty (h earlier last [] rfl))

/-- Lines are taken one by one, up to the first that completes the input. -/
theorem completeInput_eq_some_iff {before lines : List String} (h : StaysOpen before)
    (hcount : bracketCount (before ++ lines) < 2 ^ 31) {input : String} {rest : List String} :
    completeInput (joinLines before) lines = some (input, rest) ↔
      ∃ between line, lines = between ++ line :: rest ∧ StaysOpen (before ++ between) ∧
        Completes (before ++ between) line ∧ input = inputUpTo (before ++ between) line := by
  induction lines generalizing before with
  | nil => simp [completeInput]
  | cons next later ih =>
    have hnext : bracketCount (before ++ [next]) < 2 ^ 31 := by
      rw [← List.singleton_append, ← List.append_assoc, bracketCount_append] at hcount
      omega
    rw [completeInput]
    rcases extendInput_cases h.eq_nil_or_ne_empty hnext with ⟨hcompletes, heq⟩ | ⟨hgoes, heq⟩
    · -- The line completes the input, so none behind it is the first to do so.
      simp only [heq, Option.some.injEq, Prod.mk.injEq]
      constructor
      · rintro ⟨rfl, rfl⟩
        exact ⟨[], next, rfl, by simpa using h, by simpa using hcompletes, by simp⟩
      · rintro ⟨between, line, hlines, hopen, _, rfl⟩
        cases between with
        | nil =>
          obtain ⟨rfl, rfl⟩ := List.cons.inj hlines
          exact ⟨by simp, rfl⟩
        | cons first between =>
          obtain ⟨rfl, _⟩ := List.cons.inj hlines
          exact absurd hcompletes (hopen before next between rfl)
    · -- The input goes on, and is completed by the line that completes it behind this one.
      have hrest := ih (h.concat hgoes) (by simpa using hcount)
      simp only [heq, hrest, List.append_assoc, List.singleton_append]
      constructor
      · rintro ⟨between, line, rfl, hbetween⟩
        exact ⟨next :: between, line, rfl, hbetween⟩
      · rintro ⟨between, line, hlines, hopen, hcompletes, hinput⟩
        cases between with
        | nil =>
          obtain ⟨rfl, rfl⟩ := List.cons.inj hlines
          exact absurd (by simpa using hcompletes) hgoes
        | cons first between =>
          obtain ⟨rfl, rfl⟩ := List.cons.inj hlines
          exact ⟨between, line, rfl, hopen, hcompletes, hinput⟩

/-- Of lines that do not stay open, some line is the first to complete the input. -/
theorem exists_first_completing {lines : List String} (h : ¬ StaysOpen lines) :
    ∃ before line rest, lines = before ++ line :: rest ∧ StaysOpen before ∧
      Completes before line := by
  induction lines using List.reverseRecOn with
  | nil => exact absurd (fun earlier next later hlines => by simp at hlines) h
  | append_singleton init last ih =>
    by_cases hinit : StaysOpen init
    · have hlast : Completes init last := by
        by_contra hgoes
        exact h (hinit.concat hgoes)
      exact ⟨init, last, [], rfl, hinit, hlast⟩
    · obtain ⟨before, line, rest, rfl, hbefore, hline⟩ := ih hinit
      exact ⟨before, line, rest ++ [last], by simp, hbefore, hline⟩

/-- An input goes on up to the first line which, being blank, submits what is pending, or after
which the tokens of all lines so far leave no brackets open. It consists of the lines so far with
line feeds between them, without a blank line that submits it. -/
theorem completeInput_first (lines : List String) (h : bracketCount lines < 2 ^ 31) :
    (∀ input rest, completeInput "" lines = some (input, rest) ↔
      ∃ before line, lines = before ++ line :: rest ∧ StaysOpen before ∧ Completes before line ∧
        input = inputUpTo before line) ∧
    (completeInput "" lines = none ↔ StaysOpen lines) := by
  have hnil : StaysOpen [] := fun earlier next later hlines => by simp at hlines
  have hsome : ∀ input rest, completeInput "" lines = some (input, rest) ↔
      ∃ before line, lines = before ++ line :: rest ∧ StaysOpen before ∧ Completes before line ∧
        input = inputUpTo before line := fun _ _ => completeInput_eq_some_iff hnil h
  refine ⟨hsome, fun hnone => ?_, fun hopen => ?_⟩
  · by_contra hends
    obtain ⟨before, line, rest, hlines, hbefore, hline⟩ := exists_first_completing hends
    have hfound := (hsome _ rest).mpr ⟨before, line, hlines, hbefore, hline, rfl⟩
    rw [hnone] at hfound
    contradiction
  · cases hresult : completeInput "" lines with
    | none => rfl
    | some found =>
      obtain ⟨before, line, hlines, _, hline, _⟩ := (hsome found.1 found.2).mp hresult
      exact absurd hline (hopen before line found.2 hlines)

/-- A bracket inside of a string, a string that goes on in the next line, and a line that is left
over. -/
theorem completeInput_first_quoted :
    bracketCount ["f(\"[", "\", \x7b", "", "1"] < 2 ^ 31 ∧
      ∃ before line, ["f(\"[", "\", \x7b", "", "1"] = before ++ line :: ["1"] ∧
        StaysOpen before ∧ Completes before line ∧
        "f(\"[\n\", \x7b" = inputUpTo before line :=
  ⟨by decide, ((completeInput_first _ (by decide)).1 _ _).mp (by decide)⟩

end Treewalk
