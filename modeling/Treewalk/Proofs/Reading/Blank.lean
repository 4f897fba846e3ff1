import Treewalk.Proofs.Reading.Soundness
import Treewalk.Proofs.Scanning.Cut
import Treewalk.Text.Blank

namespace Treewalk

open Text

theorem trim_isEmpty_iff {s : String} :
    (trim s).isEmpty = true ↔ ∀ c ∈ s.toList, isBlank c = true := by
  have hafter : (trim s).isEmpty = true ↔ ∀ c ∈ s.toList.dropWhile isBlank, isBlank c = true := by
    simp [trim, List.dropWhile_eq_nil_iff]
  rw [hafter]
  constructor
  · intro h c hc
    rw [← List.takeWhile_append_dropWhile (p := isBlank) (l := s.toList)] at hc
    rcases List.mem_append.mp hc with hc | hc
    · exact List.mem_takeWhile_imp hc
    · exact h c hc
  · exact fun h c hc => h c ((List.dropWhile_suffix _).subset hc)

theorem isBlank_of_isSpace {c : Char} (h : isSpace c = true) : isBlank c = true := by
  simp only [isSpace, Bool.or_eq_true, beq_iff_eq] at h
  rcases h with ((rfl | rfl) | rfl) | rfl <;> rfl

theorem toNat_of_isLetter {c : Char} (h : isLetter c = true) : 65 ≤ c.toNat ∧ c.toNat ≤ 122 := by
  change (decide (c.val ≥ 65 ∧ c.val ≤ 90) || (decide (c.val ≥ 97) && decide (c.val ≤ 122)) ||
    c == '_') = true at h
  simp only [Bool.or_eq_true, Bool.and_eq_true, decide_eq_true_eq, beq_iff_eq, ge_iff_le,
    UInt32.le_iff_toNat_le, Char.toNat_val, UInt32.reduceToNat] at h
  rcases h with (hupper | hlower) | rfl
  · omega
  · omega
  · decide

theorem not_startsToken_of_isBlank {c : Char} (h : isBlank c = true) : ¬ StartsToken c := by
  have hrange : c.toNat ≤ 32 ∨ 127 ≤ c.toNat := by
    simp only [isBlank, Bool.or_eq_true, Bool.and_eq_true, decide_eq_true_eq, beq_iff_eq] at h
    omega
  rintro (hletter | hdigit | rfl | ⟨k, hspelling⟩)
  · have hletters := toNat_of_isLetter hletter
    omega
  · have hdigits : 48 ≤ c.toNat ∧ c.toNat ≤ 57 := Char.isDigit_iff_toNat.mp hdigit
    omega
  · revert hrange
    decide
  · cases k <;> cases hspelling <;> revert hrange <;> decide

theorem Forms.eq_illegal {kind : TokenKind} {literal covered after : List Char}
    (h : Forms kind literal covered after) (hc : ∀ c ∈ covered, ¬ StartsToken c) :
    kind = .illegal := by
  cases h with
  | name hword _ =>
    obtain ⟨c, hmem⟩ := List.exists_mem_of_ne_nil _ hword.1
    exact absurd (.inl (hword.2.1 c hmem)) (hc c (by simpa using hmem))
  | number hdigits _ =>
    obtain ⟨c, hmem⟩ := List.exists_mem_of_ne_nil _ hdigits.1
    exact absurd (.inr (.inl (hdigits.2 c hmem))) (hc c (by simpa using hmem))
  | sign hk _ =>
    obtain ⟨c, cs, hspelling⟩ := List.exists_cons_of_ne_nil hk
    refine absurd (.inr (.inr (.inr ⟨kind, ?_⟩))) (hc c (by simp [hspelling]))
    rw [hspelling]
    rfl
  | closed _ | unclosed _ => exact absurd (.inr (.inr (.inl rfl))) (hc '"' (by simp))
  | illegal _ _ => rfl

namespace Reader.Accepts

theorem current_cons_bind {β : Type} {f : Token → Reader β} {w : Terminal} {ws : List Terminal}
    {R : β → List Terminal → Prop} (hf : ∀ t, t.kind = w.kind → Accepts (f t) (w :: ws) R) :
    Accepts (Reader.current >>= f) (w :: ws) R := by
  refine .current_bind (fun t ht => hf t ?_)
  rcases ht with ⟨_, hnil⟩ | ⟨_, rest, hcons⟩
  · contradiction
  · rw [(List.cons.inj hcons).1, t.kind_terminal]

section
variable {n : Nat} {ws : List Terminal}

theorem expression_illegal {p : Precedence} :
    Accepts (readExpression (n + 1) p) (.sign .illegal :: ws) (fun _ _ => False) := by
  refine .within (current_cons_bind (fun t ht => ?_))
  have hraise : operand (readExpression n) n t = Reader.raise (.noRule .illegal t.span) := by
    simp [operand, show t.kind = .illegal from ht]
  rw [hraise]
  exact .bind (Q := fun _ _ => False) .raise (fun _ _ _ h => h.elim)

theorem statement_illegal :
    Accepts (statement (readExpression (n + 1))) (.sign .illegal :: ws) (fun _ _ => False) := by
  refine .within (current_cons_bind (fun t ht => ?_))
  rw [show t.kind = .illegal from ht]
  exact .within (.bind expression_illegal (fun _ _ _ h => h.elim))

theorem program_illegal {rounds : Nat} :
    Accepts (statementsUntil endsProgram (readExpression (n + 1)) (rounds + 1))
      (.sign .illegal :: ws) (fun _ _ => False) := by
  refine current_cons_bind (fun t ht => ?_)
  rw [show t.kind = .illegal from ht]
  refine .bind (.orNone statement_illegal) (fun r _ _ h => ?_)
  obtain ⟨_, _, h⟩ := h
  exact h.elim

end

end Reader.Accepts

theorem readTokens_nil {finish : Token} (h : finish.kind = .endOfInput) (depth : Nat) :
    (readTokens [] finish depth).1 = some [] := by
  have hend : endsProgram finish.kind = true := by
    rw [h]
    rfl
  unfold readTokens statementsUntil
  rw [Reader.bind_of_some (Reader.current_apply _), Cursor.current]
  simp [hend]

/-- Only a text without tokens has no statements, unless something is wrong with it. -/
theorem readTokens_eq_nil_iff {ts : List Token} {finish : Token} {depth : Nat}
    (hsound : (Cursor.mk ts finish depth []).Sound)
    (hraised : (readTokens ts finish depth).2.raised = []) :
    (readTokens ts finish depth).1.getD [] = [] ↔ ts = [] := by
  constructor
  · intro hnil
    have hlen : (ts.map Token.terminal).length < ts.length + 1 := by simp
    obtain ⟨ss, hss, _, hspelled, hstop, hend⟩ := accepts_statementsUntil
      (acceptsUpTo_readExpression (ts.length + 1)) endsProgram rfl hlen (Nat.le_of_lt hlen)
      ⟨ts, finish, depth, []⟩ hsound rfl hraised
    rw [hend (eq_of_beq hstop)] at hspelled
    have hread : (readTokens ts finish depth).1 = some ss := hss
    rw [hread, Option.getD_some] at hnil
    subst hnil
    cases hws : ts.map Token.terminal with
    | nil => exact List.map_eq_nil_iff.mp hws
    | cons w ws =>
      rw [hws] at hspelled
      cases hspelled
  · rintro rfl
    rw [readTokens_nil hsound.finish, Option.getD_some]

/-- A text in which nothing is wrong has no statements exactly if it is blank. -/
theorem statements_eq_nil_iff {line : String} (hraised : (read line).raised = []) :
    (read line).program.statements = [] ↔ (trim line).isEmpty = true := by
  obtain ⟨ts, finish, hts, hsound, hprogram, hraise⟩ := Reading.read_eq line
  rw [hraised, List.nil_eq, List.reverse_eq_nil_iff] at hraise
  obtain ⟨ts', finish', hts', hcut⟩ := (Scanner.ofText line).cut
  obtain ⟨rfl, rfl⟩ : ts = ts' ∧ finish = finish' := by
    simpa [tokens] using hts.symm.trans hts'
  rw [hprogram, readTokens_eq_nil_iff hsound hraise, trim_isEmpty_iff]
  constructor
  · rintro rfl c hc
    obtain ⟨before, after, hline⟩ := List.append_of_mem hc
    rcases hcut.isSpace_or_covered hline with hspace | ⟨t, ht, _⟩
    · exact isBlank_of_isSpace hspace
    · contradiction
  · intro hblank
    cases ts with
    | nil => rfl
    | cons t ts =>
      obtain ⟨before, covered, after, hline, _, hforms⟩ := hcut.forms_of_mem t List.mem_cons_self
      have hillegal : t.kind = .illegal := by
        refine hforms.eq_illegal (fun c hc => not_startsToken_of_isBlank (hblank c ?_))
        have hmem : c ∈ (Scanner.ofText line).rest := by simp [hline, hc]
        exact hmem
      have hterminals : (Cursor.mk (t :: ts) finish 0 []).terminals =
          .sign .illegal :: ts.map Token.terminal := by
        simp [Cursor.terminals, Token.terminal, hillegal]
      obtain ⟨_, _, h⟩ := Reader.Accepts.program_illegal _ hsound hterminals hraise
      exact h.elim

end Treewalk
