import Mathlib.Data.List.Sort
import Treewalk.Proofs.Reading.Pace

namespace Treewalk

/-- The token at which the routine is entered. -/
def ReadingStep.entry? (routine : Routine) : ReadingStep → Option Token
  | enter r _ t => if r = routine then some t else none
  | _ => none

/-- The tokens at which the routine was entered, one after the other. -/
def Reading.entered (routine : Routine) (r : Reading) : List Token :=
  r.steps.filterMap (ReadingStep.entry? routine)

theorem ReadingStep.entry?_eq_some {routine : Routine} {s : ReadingStep} {t : Token}
    (h : s.entry? routine = some t) : ∃ depth, s = .enter routine depth t := by
  unfold entry? at h
  split at h
  · next r depth u =>
    split at h
    · next hr =>
      obtain rfl := Option.some.inj h
      exact ⟨depth, by rw [hr]⟩
    · contradiction
  · contradiction

namespace Tape

variable {T : Tape} {c : Cursor}

/-- A routine with a moment of its own, before that of diagnostics, is entered at later and later
tokens. -/
theorem Steady.pairwise_entered (h : T.Steady c) (routine : Routine) {i : Nat} (hi : i < 2)
    (hmoment : ∀ depth t,
      (ReadingStep.enter routine depth t).moment? = some (3 * t.span.start + i)) :
    (c.trail.reverse.filterMap (ReadingStep.entry? routine)).Pairwise
      (fun t u => t.span.start < u.span.start) := by
  rw [List.pairwise_filterMap]
  refine (List.pairwise_reverse.mpr h.ordered).imp (fun hfollows t ht u hu => ?_)
  obtain ⟨depth, rfl⟩ := ReadingStep.entry?_eq_some ht
  obtain ⟨depth', rfl⟩ := ReadingStep.entry?_eq_some hu
  have horder := hfollows _ _ (hmoment depth t) (hmoment depth' u)
  omega

theorem Steady.placed_entered (h : T.Steady c) {routine : Routine} {t : Token}
    (ht : t ∈ c.trail.reverse.filterMap (ReadingStep.entry? routine)) :
    ∃ depth, T.Placed (.enter routine depth t) := by
  obtain ⟨s, hs, hentry⟩ := List.mem_filterMap.mp ht
  obtain ⟨depth, rfl⟩ := ReadingStep.entry?_eq_some hentry
  exact ⟨depth, h.placed _ (List.mem_reverse.mp hs)⟩

end Tape

/-- Tokens that come later and later are found in this order among all. -/
theorem sublist_of_starts {ts us : List Token}
    (hts : ts.Pairwise (fun t u => t.span.start < u.span.start))
    (hus : us.Pairwise (fun t u => t.span.start < u.span.start)) (h : ts ⊆ us) : ts.Sublist us := by
  have hantisymm : Std.Antisymm (fun t u : Token => t.span.start < u.span.start) :=
    ⟨fun _ _ hlt hgt => absurd hlt (Nat.lt_asymm hgt)⟩
  have hnodup : ts.Nodup := hts.imp (fun hlt heq => by rw [heq] at hlt; exact Nat.lt_irrefl _ hlt)
  exact List.sublist_of_subperm_of_pairwise (List.subperm_of_subset hnodup h) hts hus

/-- The reading of any text halts at the end of input: with more nesting or more rounds it would be
the same. Expressions begin at later and later tokens, and so do statements, which never begin at the
end of input; so either rule is entered once at a token at most. -/
theorem read_halts (source : String) :
    ∃ ts finish, tokens source = ts ++ [finish] ∧ finish.kind = .endOfInput ∧
      (∀ n rounds, ts.length < n → ts.length ≤ rounds →
        statementsUntil endsProgram (readExpression n) rounds ⟨ts, finish, 0, []⟩ =
          (some (read source).program.statements,
            ⟨[], finish, (read source).depth, (read source).steps.reverse⟩)) ∧
      ((read source).entered .expression).Sublist (tokens source) ∧
      ((read source).entered .expression).Pairwise (fun t u => t.span.start < u.span.start) ∧
      ((read source).entered .statement).Sublist ts ∧
      ((read source).entered .statement).Pairwise (fun t u => t.span.start < u.span.start) := by
  obtain ⟨T, c, hall, hnil, hbefore, hsteps, hdepth, hread⟩ := exists_tape_read source
  have hexpressions := hbefore.pairwise_entered .expression Nat.one_lt_two (fun _ _ => rfl)
  have hstatements := hbefore.pairwise_entered .statement Nat.zero_lt_two (fun _ _ => rfl)
  have hc : c = ⟨[], T.finish, c.depth, c.trail⟩ := by rw [← hnil, ← hbefore.finish]
  refine ⟨T.tokens, T.finish, hall, T.kind_finish, fun n rounds hn hr => ?_, ?_⟩
  · rw [hsteps, List.reverse_reverse, hdepth, ← hc]
    exact hread n rounds hn hr
  · rw [Reading.entered, Reading.entered, hsteps, hall]
    refine ⟨sublist_of_starts hexpressions T.starts (fun t ht => ?_), hexpressions,
      sublist_of_starts hstatements (List.pairwise_append.mp T.starts).1 (fun t ht => ?_),
      hstatements⟩
    · obtain ⟨depth, hplaced⟩ := hbefore.placed_entered ht
      exact hplaced
    · obtain ⟨depth, hplaced⟩ := hbefore.placed_entered ht
      exact hplaced

end Treewalk
