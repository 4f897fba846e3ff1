import Treewalk.Proofs.Reading.Moments
import Treewalk.Proofs.Reading.Outcomes

namespace Treewalk

open Reader

/-- From a cursor of which `P` holds and that has so many tokens left at most, both actions do the
same and stay in order, and `Q` holds where they have a result. -/
def Reader.Lead {α : Type} (T : Tape) (bound : Nat) (P : Cursor → Prop) (p q : Reader α)
    (Q : Cursor → Prop) : Prop :=
  ∀ c, P c → c.pending.length ≤ bound →
    q c = p c ∧ T.Before 3 (p c).2 ∧ ((p c).1.isSome = true → Q (p c).2)

namespace Reader.Lead

variable {T : Tape} {α β : Type} {b : Nat} {i : Nat} {P P' Q R : Cursor → Prop} {p q : Reader α}
  {f g : α → Reader β}

theorem pre (hP : ∀ c, P' c → P c) (h : Lead T b P p q Q) : Lead T b P' p q Q :=
  fun c hc hb => h c (hP c hc) hb

theorem mono {b' : Nat} (h : Lead T b P p q Q) (hb : b' ≤ b) : Lead T b' P p q Q :=
  fun c hc hb' => h c hc (Nat.le_trans hb' hb)

theorem weaken (h : Lead T (b + 1) P p q Q) : Lead T b P p q Q := h.mono (Nat.le_succ b)

theorem pure {a : α} : Lead T b T.Quiet (Pure.pure a) (Pure.pure a) T.Quiet :=
  fun _ hc _ => ⟨rfl, hc.spent, fun _ => hc⟩

/-- Where neither action does anything. -/
theorem stay (h : ∀ c, P c → c.pending.length ≤ b →
    T.Quiet c ∧ ∃ a, p c = (some a, c) ∧ q c = (some a, c)) : Lead T b P p q T.Quiet := by
  intro c hc hb
  obtain ⟨hquiet, a, hp, hq⟩ := h c hc hb
  rw [hp, hq]
  exact ⟨rfl, hquiet.spent, fun _ => hquiet⟩

theorem bind (hp : Lead T b P p q Q) (hf : ∀ a, Lead T b Q (f a) (g a) R) :
    Lead T b P (p >>= f) (q >>= g) R := by
  intro c hc hb
  obtain ⟨hsame, hspent, hpost⟩ := hp c hc hb
  have hon := p.onward c
  cases hr : p.run c with
  | mk result c' =>
    rw [hr] at hsame hspent hpost hon
    cases result with
    | none =>
      rw [bind_of_none hr, bind_of_none hsame]
      exact ⟨rfl, hspent, by simp⟩
    | some a =>
      rw [bind_of_some hr, bind_of_some hsame]
      exact hf a c' (hpost rfl) (Nat.le_trans hon.pending.length_le hb)

theorem raise {d : Diagnostic} (h : ∀ c, P c → T.Quiet c ∧ T.Placed (.raise d c.current)) :
    Lead T b P (raise d : Reader α) (Reader.raise d) Q :=
  fun c hc _ => ⟨rfl, (h c hc).1.raise (h c hc).2, by simp⟩

theorem ite {cond : Prop} [Decidable cond] {p' q' : Reader α} (hp : cond → Lead T b P p q Q)
    (hn : ¬ cond → Lead T b P p' q' Q) :
    Lead T b P (if cond then p else p') (if cond then q else q') Q := by
  by_cases h : cond
  · rw [if_pos h, if_pos h]
    exact hp h
  · rw [if_neg h, if_neg h]
    exact hn h

theorem current_bind {f g : Token → Reader β}
    (hf : ∀ t, Lead T b (fun c => P c ∧ c.current = t) (f t) (g t) R) :
    Lead T b P (current >>= f) (current >>= g) R := by
  intro c hc hb
  rw [bind_of_some (current_apply c), bind_of_some (current_apply c)]
  exact hf _ c ⟨hc, rfl⟩ hb

theorem upcoming_bind {f g : Token → Reader β}
    (hf : ∀ t, Lead T b (fun c => P c ∧ c.upcoming = t) (f t) (g t) R) :
    Lead T b P (upcoming >>= f) (upcoming >>= g) R := by
  intro c hc hb
  rw [bind_of_some (upcoming_apply c), bind_of_some (upcoming_apply c)]
  exact hf _ c ⟨hc, rfl⟩ hb

/-- Behind a token that is not the end of input there is one token less. -/
theorem advance_bind {f g : Unit → Reader β} (hi : i ≤ 3)
    (hf : Lead T b (T.Before 0) (f ()) (g ()) R) :
    Lead T (b + 1) (T.At i) (advance >>= f) (advance >>= g) R := by
  intro c hc hb
  rw [bind_of_some (advance_apply c), bind_of_some (advance_apply c)]
  refine hf _ ((hc.toBefore.mono hi).advance hc.ne_nil) ?_
  rw [Cursor.advance, List.length_tail]
  omega

/-- Onto a next token that is not the end of input. -/
theorem step {f g : Unit → Reader β} (hc : ∀ c, P c → T.Quiet c ∧ c.upcoming.kind ≠ .endOfInput)
    (hf : Lead T b (T.At 0) (f ()) (g ()) R) :
    Lead T (b + 1) P (advance >>= f) (advance >>= g) R := by
  intro c hP hb
  obtain ⟨hquiet, hk⟩ := hc c hP
  have hp : c.pending ≠ [] := fun hnil => hk (hquiet.spent.kind_upcoming hnil)
  have hadvance := hquiet.spent.advance hp
  rw [bind_of_some (advance_apply c), bind_of_some (advance_apply c)]
  refine hf _ ⟨hadvance, hadvance.ne_nil hk⟩ ?_
  rw [Cursor.advance, List.length_tail]
  omega

theorem expect_bind {k : TokenKind} (hk : k ≠ .endOfInput) {f g : Unit → Reader β}
    (hf : Lead T b (T.At 0) (f ()) (g ()) R) :
    Lead T (b + 1) T.Quiet (expect k >>= f) (expect k >>= g) R := by
  intro c hc hb
  by_cases hu : c.upcoming.kind = k
  · have hnext : c.upcoming.kind ≠ .endOfInput := by rwa [hu]
    have h := step (P := fun d => d = c) (fun d hd => hd ▸ ⟨hc, hnext⟩) hf c rfl hb
    rwa [bind_of_some (advance_apply c), bind_of_some (advance_apply c),
      ← bind_of_some (f := f) (expect_apply_of_eq hu),
      ← bind_of_some (f := g) (expect_apply_of_eq hu)] at h
  · rw [bind_of_none (expect_apply_of_ne hu), bind_of_none (expect_apply_of_ne hu)]
    exact ⟨rfl, hc.raise (hc.spent.placed_upcoming k), by simp⟩

theorem expect_pure {k : TokenKind} (hk : k ≠ .endOfInput) {a : α} :
    Lead T (b + 1) T.Quiet (expect k >>= fun _ => Pure.pure a) (expect k >>= fun _ => Pure.pure a)
      T.Quiet :=
  .expect_bind hk (.pre (fun _ hc => hc.quiet (Nat.zero_le 2)) .pure)

theorem skip_bind {k : TokenKind} (hk : k ≠ .endOfInput) {f g : Unit → Reader β}
    (hf : Lead T b T.Quiet (f ()) (g ()) R) :
    Lead T b T.Quiet (skip k >>= f) (skip k >>= g) R := by
  intro c hc hb
  rw [bind_of_some (skip_apply k c), bind_of_some (skip_apply k c)]
  by_cases hu : c.upcoming.kind = k
  · rw [if_pos hu]
    have hp : c.pending ≠ [] := fun hnil => hk (hu ▸ hc.spent.kind_upcoming hnil)
    refine hf _ ((hc.spent.advance hp).quiet (Nat.zero_le 2)) ?_
    exact Nat.le_trans c.onward_advance.pending.length_le hb
  · rw [if_neg hu]
    exact hf c hc hb

/-- After an action, whether it has given up or not, reading goes on behind the current token. -/
theorem resume {f g : Option α → Reader β} (hp : Lead T (b + 1) P p q Q)
    (hf : ∀ r, Lead T b T.Ready (f r) (g r) R) :
    Lead T (b + 1) P (orNone p >>= fun r => advance >>= fun _ => f r)
      (orNone q >>= fun r => advance >>= fun _ => g r) R := by
  intro c hc hb
  obtain ⟨hsame, hspent, _⟩ := hp c hc hb
  rw [bind_of_some (orNone_apply p c), bind_of_some (orNone_apply q c), hsame,
    bind_of_some (advance_apply _), bind_of_some (advance_apply _)]
  refine hf _ _ hspent.ready_advance ?_
  have hle := (p.onward c).pending.length_le
  rw [Cursor.advance, List.length_tail]
  omega

theorem within_of {routine : Routine} (henter : ∀ c, P c → P' (c.enter routine))
    (h : Lead T b P' p q T.Quiet) : Lead T b P (within routine p) (within routine q) T.Quiet := by
  intro c hc hb
  obtain ⟨hsame, hspent, hpost⟩ := h (c.enter routine) (henter c hc) hb
  rw [within_apply, within_apply, hsame]
  refine ⟨rfl, hspent.pass rfl _, fun hr => ?_⟩
  rcases hpost hr with hbefore | ⟨hnil, hbefore⟩
  · exact .inl (hbefore.pass rfl _)
  · exact .inr ⟨hnil, hbefore.pass rfl _⟩

/-- Routines that may be entered at any moment. -/
theorem within {routine : Routine}
    (hr : ∀ depth t, (ReadingStep.enter routine depth t).moment? = none)
    (h : Lead T b (T.At i) p q T.Quiet) :
    Lead T b (T.At i) (within routine p) (within routine q) T.Quiet :=
  within_of (fun _ hc => ⟨hc.toBefore.pass (hr _ _) _, hc.ne_nil⟩) h

end Reader.Lead

section
variable {rounds : Nat} {c : Cursor}

theorem statementsUntil_of_stops {stops : TokenKind → Bool} {e : ExpressionReader}
    (h : stops c.current.kind = true) : statementsUntil stops e rounds c = (some [], c) := by
  cases rounds with
  | zero => rfl
  | succ rounds =>
    rw [statementsUntil, bind_of_some (current_apply c), if_pos h]
    rfl

theorem itemsAfterCommas_of_ne {α : Type} {item : Reader α} (h : c.upcoming.kind ≠ .comma) :
    itemsAfterCommas item rounds c = (some [], c) := by
  cases rounds with
  | zero => rfl
  | succ rounds =>
    rw [itemsAfterCommas, bind_of_some (upcoming_apply c), if_neg h]
    rfl

theorem operatorsAbove_of_not_lt {p : Precedence} {e : ExpressionReader} {n : Nat}
    {left : Expression} (h : ¬ p < .of c.upcoming.kind) :
    operatorsAbove p e n rounds left c = (some left, c) := by
  cases rounds with
  | zero => rfl
  | succ rounds =>
    rw [operatorsAbove, bind_of_some (upcoming_apply c), if_neg h]
    rfl

end

/-- The readers lead from a token at which no expression has begun. An inner expression begins at a
later token, so the rules made of the readers lead as long as there is one token more. -/
def LeadUpTo (T : Tape) (b : Nat) (e e' : ExpressionReader) : Prop :=
  ∀ p, Lead T b (T.Before 1) (e p) (e' p) T.Quiet

theorem LeadUpTo.fresh {T : Tape} {b : Nat} {e e' : ExpressionReader} (h : LeadUpTo T b e e')
    (p : Precedence) : Lead T b (T.Before 0) (e p) (e' p) T.Quiet :=
  (h p).pre (fun _ hc => hc.mono (Nat.zero_le 1))

section
variable {T : Tape} {b : Nat} {e e' : ExpressionReader} (he : LeadUpTo T b e e')
include he

theorem lead_letStatement : Lead T (b + 1) (T.At 1) (letStatement e) (letStatement e') T.Quiet := by
  refine .within (fun _ _ => rfl) (.pre (fun c hc => hc.toBefore.quiet (by decide)) ?_)
  refine .expect_bind (by decide) (.current_bind (fun name => ?_))
  refine .pre (fun c hc => hc.1.toBefore.quiet (by decide)) ?_
  refine .weaken (.expect_bind (by decide) ?_)
  refine .weaken (.advance_bind (Nat.zero_le 3) ?_)
  exact .bind (he.fresh .lowest) (fun value => .skip_bind (by decide) .pure)

theorem lead_returnStatement :
    Lead T (b + 1) (T.At 1) (returnStatement e) (returnStatement e') T.Quiet := by
  refine .within (fun _ _ => rfl) (.advance_bind (by omega) ?_)
  exact .bind (he.fresh .lowest) (fun value => .skip_bind (by decide) .pure)

theorem lead_expressionStatement :
    Lead T b (T.At 1) (expressionStatement e) (expressionStatement e') T.Quiet := by
  refine .within (fun _ _ => rfl) (.pre (fun c hc => hc.toBefore) ?_)
  exact .bind (he .lowest) (fun value => .skip_bind (by decide) .pure)

theorem lead_statement : Lead T b (T.At 0) (statement e) (statement e') T.Quiet := by
  have henter : ∀ c, T.At 0 c → T.At 1 (c.enter .statement) := fun c hc =>
    ⟨hc.toBefore.record rfl (hc.toSteady.current_mem hc.ne_nil), hc.ne_nil⟩
  refine .within_of henter (.current_bind (fun t => .pre (fun c hc => hc.1) ?_))
  cases t.kind
  case letWord => exact .weaken (lead_letStatement he)
  case returnWord => exact .weaken (lead_returnStatement he)
  all_goals exact lead_expressionStatement he

omit he in
theorem LeadUpTo.mono (he : LeadUpTo T b e e') {m : Nat} (hm : m ≤ b) : LeadUpTo T m e e' :=
  fun p => (he p).mono hm

variable {m n n' rounds rounds' : Nat}

theorem lead_statementsUntil {stops : TokenKind → Bool} (hstops : stops .endOfInput = true)
    (hm : m ≤ b) (hr : m ≤ rounds) (hr' : m ≤ rounds') :
    Lead T m T.Ready (statementsUntil stops e rounds) (statementsUntil stops e' rounds')
      T.Quiet := by
  induction m generalizing rounds rounds' with
  | zero =>
    refine .stay (fun c hc hb => ⟨hc.quiet, [], ?_⟩)
    have hk := hc.quiet.spent.kind_current (List.length_eq_zero_iff.mp (Nat.le_zero.mp hb))
    have hs : stops c.current.kind = true := by rw [hk, hstops]
    exact ⟨statementsUntil_of_stops hs, statementsUntil_of_stops hs⟩
  | succ m ih =>
    obtain ⟨rounds, rfl⟩ : ∃ r, rounds = r + 1 := ⟨rounds - 1, by omega⟩
    obtain ⟨rounds', rfl⟩ : ∃ r, rounds' = r + 1 := ⟨rounds' - 1, by omega⟩
    refine .current_bind (fun t => .ite (fun _ => ?_) (fun hs => ?_))
    · exact .pre (fun c hc => hc.1.quiet) .pure
    have hk : t.kind ≠ .endOfInput := fun hk => hs (by rw [hk, hstops])
    refine .pre (fun c hc => hc.1.at (by rw [hc.2]; exact hk)) ?_
    refine .resume (lead_statement (he.mono hm)) (fun first => ?_)
    exact .bind (ih (by omega) (by omega) (by omega)) (fun rest => .pure)

theorem lead_block (hn : b ≤ n) (hn' : b ≤ n') :
    Lead T (b + 1) (T.At 0) (block e n) (block e' n') T.Quiet := by
  refine .within (fun _ _ => rfl) (.advance_bind (Nat.zero_le 3) ?_)
  exact .pre (fun c hc => .inl hc) (lead_statementsUntil he rfl (Nat.le_refl b) hn hn')

omit he in
theorem lead_itemsAfterCommas {α : Type} {item item' : Reader α}
    (hitem : Lead T b (T.Before 0) item item' T.Quiet) (hm : m ≤ b) (hr : m ≤ rounds)
    (hr' : m ≤ rounds') :
    Lead T m T.Quiet (itemsAfterCommas item rounds) (itemsAfterCommas item' rounds') T.Quiet := by
  induction m generalizing rounds rounds' with
  | zero =>
    refine .stay (fun c hc hb => ⟨hc, [], ?_⟩)
    have hk := hc.spent.kind_upcoming (List.length_eq_zero_iff.mp (Nat.le_zero.mp hb))
    have hne : c.upcoming.kind ≠ .comma := by rw [hk]; decide
    exact ⟨itemsAfterCommas_of_ne hne, itemsAfterCommas_of_ne hne⟩
  | succ m ih =>
    obtain ⟨rounds, rfl⟩ : ∃ r, rounds = r + 1 := ⟨rounds - 1, by omega⟩
    obtain ⟨rounds', rfl⟩ : ∃ r, rounds' = r + 1 := ⟨rounds' - 1, by omega⟩
    refine .upcoming_bind (fun t => .ite (fun hk => ?_) (fun _ => .pre (fun c hc => hc.1) .pure))
    refine .step (fun c hc => ⟨hc.1, by rw [hc.2, hk]; decide⟩) ?_
    refine .weaken (.advance_bind (Nat.zero_le 3) ?_)
    refine .bind (hitem.mono (by omega)) (fun first => ?_)
    exact .bind (ih (by omega) (by omega) (by omega)) (fun rest => .pure)

omit he in
theorem lead_delimited {α : Type} {close : TokenKind} (hclose : close ≠ .endOfInput)
    {item item' : Reader α} (hitem : Lead T b (T.Before 0) item item' T.Quiet) (hn : b ≤ n)
    (hn' : b ≤ n') :
    Lead T (b + 1) (T.At 2) (delimited close item n) (delimited close item' n') T.Quiet := by
  refine .within (fun _ _ => rfl) (.upcoming_bind (fun t => ?_))
  refine .pre (fun c hc => hc.1) (.ite (fun _ => ?_) (fun _ => ?_))
  · refine .advance_bind (Nat.le_succ 2) ?_
    exact .pre (fun c hc => hc.quiet (Nat.zero_le 2)) .pure
  · refine .advance_bind (Nat.le_succ 2) (.bind hitem (fun first => ?_))
    refine .bind (lead_itemsAfterCommas hitem (Nat.le_refl b) hn hn') (fun rest => ?_)
    exact .weaken (.expect_pure hclose)

omit he in
theorem lead_parameter : Lead T b (T.Before 0) parameter parameter T.Quiet := by
  refine .current_bind (fun t => .ite (fun _ => ?_) (fun _ => .raise (fun c hc => ?_)))
  · exact .pre (fun c hc => hc.1.quiet (Nat.zero_le 2)) .pure
  · obtain ⟨hbefore, rfl⟩ := hc
    exact ⟨hbefore.quiet (Nat.zero_le 2), hbefore.placed_current ⟨rfl, rfl⟩⟩

theorem lead_hashPair : Lead T b (T.Before 0) (hashPair e) (hashPair e') T.Quiet := by
  refine .bind (he.fresh .lowest) (fun key => .weaken (.expect_bind (by decide) ?_))
  refine .weaken (.advance_bind (Nat.zero_le 3) ?_)
  exact .bind (he.fresh .lowest) (fun value => .pure)

theorem lead_unary {o : UnaryOperator} :
    Lead T (b + 1) (T.At 2) (unaryExpression e o) (unaryExpression e' o) T.Quiet := by
  refine .within (fun _ _ => rfl) (.advance_bind (Nat.le_succ 2) ?_)
  exact .bind (he.fresh .unary) (fun _ => .pure)

theorem lead_grouped :
    Lead T (b + 1) (T.At 2) (groupedExpression e) (groupedExpression e') T.Quiet := by
  refine .within (fun _ _ => rfl) (.advance_bind (Nat.le_succ 2) ?_)
  exact .bind (he.fresh .lowest) (fun inner => .weaken (.expect_pure (by decide)))

theorem lead_conditional (hn : b ≤ n) (hn' : b ≤ n') :
    Lead T (b + 1) (T.At 2) (conditional e n) (conditional e' n') T.Quiet := by
  refine .within (fun _ _ => rfl) (.pre (fun c hc => hc.quiet (Nat.le_refl 2)) ?_)
  refine .expect_bind (by decide) ?_
  refine .weaken (.advance_bind (Nat.zero_le 3) ?_)
  refine .bind (he.fresh .lowest) (fun condition => .weaken (.expect_bind (by decide) ?_))
  refine .pre (fun c hc => hc.quiet (Nat.zero_le 2)) (.weaken (.expect_bind (by decide) ?_))
  refine .bind (.weaken (lead_block he hn hn')) (fun consequence => .upcoming_bind (fun t => ?_))
  refine .ite (fun hk => ?_) (fun _ => .pre (fun c hc => hc.1) .pure)
  refine .weaken (.step (fun c hc => ⟨hc.1, by rw [hc.2, hk]; decide⟩) ?_)
  refine .pre (fun c hc => hc.quiet (Nat.zero_le 2)) (.weaken (.expect_bind (by decide) ?_))
  exact .bind (.weaken (lead_block he hn hn')) (fun alternative => .pure)

theorem lead_function (hn : b ≤ n) (hn' : b ≤ n') :
    Lead T (b + 1) (T.At 2) (functionLiteral e n) (functionLiteral e' n') T.Quiet := by
  refine .within (fun _ _ => rfl) (.pre (fun c hc => hc.quiet (Nat.le_refl 2)) ?_)
  refine .expect_bind (by decide) (.pre (fun c hc => hc.mono (Nat.zero_le 2)) ?_)
  refine .bind (.weaken (lead_delimited (by decide) lead_parameter hn hn')) (fun parameters => ?_)
  refine .weaken (.expect_bind (by decide) ?_)
  exact .bind (.weaken (lead_block he hn hn')) (fun body => .pure)

theorem lead_array (hn : b ≤ n) (hn' : b ≤ n') :
    Lead T (b + 1) (T.At 2) (arrayLiteral e n) (arrayLiteral e' n') T.Quiet :=
  .within (fun _ _ => rfl) (.bind (lead_delimited (by decide) (he.fresh .lowest) hn hn')
    (fun elements => .pure))

theorem lead_hash (hn : b ≤ n) (hn' : b ≤ n') :
    Lead T (b + 1) (T.At 2) (hashLiteral e n) (hashLiteral e' n') T.Quiet :=
  .within (fun _ _ => rfl) (.bind (lead_delimited (by decide) (lead_hashPair he) hn hn')
    (fun pairs => .pure))

omit he in
theorem lead_integerLiteral {t : Token} (hk : t.kind = .integer) :
    Lead T b (fun c => T.Before 2 c ∧ c.current = t) (integerLiteral t) (integerLiteral t)
      T.Quiet := by
  refine .ite (fun _ => .pre (fun c hc => hc.1.quiet (Nat.le_refl 2)) .pure)
    (fun _ => .raise (fun c hc => ?_))
  obtain ⟨hbefore, rfl⟩ := hc
  exact ⟨hbefore.quiet (Nat.le_refl 2), hbefore.placed_current ⟨hk, rfl, rfl⟩⟩

omit he in
theorem lead_noRule {α : Type} {t : Token} {Q : Cursor → Prop} :
    Lead T b (fun c => T.Before 2 c ∧ c.current = t) (raise (.noRule t.kind t.span) : Reader α)
      (raise (.noRule t.kind t.span)) Q := by
  refine .raise (fun c hc => ?_)
  obtain ⟨hbefore, rfl⟩ := hc
  exact ⟨hbefore.quiet (Nat.le_refl 2), hbefore.placed_current ⟨rfl, rfl⟩⟩

theorem lead_operand (hn : b ≤ n) (hn' : b ≤ n') {t : Token} :
    Lead T (b + 1) (fun c => T.Before 2 c ∧ c.current = t) (operand e n t) (operand e' n' t)
      T.Quiet := by
  have hquiet : ∀ c, T.Before 2 c ∧ c.current = t → T.Quiet c :=
    fun c hc => hc.1.quiet (Nat.le_refl 2)
  have hat : t.kind ≠ .endOfInput → ∀ c, T.Before 2 c ∧ c.current = t → T.At 2 c :=
    fun hk c hc => ⟨hc.1, hc.1.ne_nil (by rw [hc.2]; exact hk)⟩
  have hnoRule := lead_noRule (T := T) (b := b + 1) (t := t) (Q := T.Quiet) (α := Expression)
  unfold operand
  cases hk : t.kind
  case identifier => exact .pre hquiet .pure
  case integer => exact lead_integerLiteral hk
  case string => exact .pre hquiet .pure
  case trueWord => exact .pre hquiet .pure
  case falseWord => exact .pre hquiet .pure
  case bang => exact .pre (hat (by simp [hk])) (lead_unary he)
  case minus => exact .pre (hat (by simp [hk])) (lead_unary he)
  case leftParen => exact .pre (hat (by simp [hk])) (lead_grouped he)
  case ifWord => exact .pre (hat (by simp [hk])) (lead_conditional he hn hn')
  case functionWord => exact .pre (hat (by simp [hk])) (lead_function he hn hn')
  case leftBracket => exact .pre (hat (by simp [hk])) (lead_array he hn hn')
  case leftBrace => exact .pre (hat (by simp [hk])) (lead_hash he hn hn')
  all_goals
    rw [hk] at hnoRule
    exact hnoRule

theorem lead_binary {o : BinaryOperator} {left : Expression} :
    Lead T (b + 1) (T.At 0) (binaryExpression e o left) (binaryExpression e' o left) T.Quiet := by
  refine .within (fun _ _ => rfl) (.current_bind (fun t => ?_))
  refine .pre (fun c hc => hc.1) (.advance_bind (Nat.zero_le 3) ?_)
  exact .bind (he.fresh _) (fun right => .pure)

theorem lead_call (hn : b ≤ n) (hn' : b ≤ n') {callee : Expression} :
    Lead T (b + 1) (T.At 0) (callExpression e n callee) (callExpression e' n' callee)
      T.Quiet := by
  refine .within (fun _ _ => rfl) (.pre (fun c hc => hc.mono (Nat.zero_le 2)) ?_)
  exact .bind (lead_delimited (by decide) (he.fresh .lowest) hn hn') (fun arguments => .pure)

theorem lead_index {collection : Expression} :
    Lead T (b + 1) (T.At 0) (indexExpression e collection) (indexExpression e' collection)
      T.Quiet := by
  refine .within (fun _ _ => rfl) (.advance_bind (Nat.zero_le 3) ?_)
  exact .bind (he.fresh .lowest) (fun index => .weaken (.expect_pure (by decide)))

theorem lead_goOn (hn : b ≤ n) (hn' : b ≤ n') {p : Precedence} {k : TokenKind} (hp : p < .of k) :
    k ≠ .endOfInput ∧ ∃ goOn goOn', continuation? e n k = some goOn ∧
      continuation? e' n' k = some goOn' ∧
      ∀ left, Lead T (b + 1) (T.At 0) (goOn left) (goOn' left) T.Quiet := by
  rcases Precedence.of_cases hp with rfl | rfl | ⟨o, rfl⟩
  · exact ⟨by decide, _, _, rfl, rfl, fun _ => lead_call he hn hn'⟩
  · exact ⟨by decide, _, _, rfl, rfl, fun _ => lead_index he⟩
  · refine ⟨by cases o <;> decide, _, _, o.continuation?_kind, o.continuation?_kind, fun _ => ?_⟩
    exact lead_binary he

theorem lead_operatorsAbove (hn : b ≤ n) (hn' : b ≤ n') {p : Precedence} {left : Expression}
    (hm : m ≤ b + 1) (hr : m ≤ rounds) (hr' : m ≤ rounds') :
    Lead T m T.Quiet (operatorsAbove p e n rounds left) (operatorsAbove p e' n' rounds' left)
      T.Quiet := by
  induction m generalizing rounds rounds' left with
  | zero =>
    refine .stay (fun c hc hb => ⟨hc, left, ?_⟩)
    have hk := hc.spent.kind_upcoming (List.length_eq_zero_iff.mp (Nat.le_zero.mp hb))
    have hlt : ¬ p < .of c.upcoming.kind := by rw [hk]; exact Nat.not_lt_zero _
    exact ⟨operatorsAbove_of_not_lt hlt, operatorsAbove_of_not_lt hlt⟩
  | succ m ih =>
    obtain ⟨rounds, rfl⟩ : ∃ r, rounds = r + 1 := ⟨rounds - 1, by omega⟩
    obtain ⟨rounds', rfl⟩ : ∃ r, rounds' = r + 1 := ⟨rounds' - 1, by omega⟩
    refine .upcoming_bind (fun t => .ite (fun hp => ?_) (fun _ => .pre (fun c hc => hc.1) .pure))
    obtain ⟨hk, goOn, goOn', hgo, hgo', hlead⟩ := lead_goOn he hn hn' hp
    rw [hgo, hgo']
    refine .step (fun c hc => ⟨hc.1, by rw [hc.2]; exact hk⟩) ?_
    refine .bind ((hlead left).mono (by omega)) (fun extended => ?_)
    exact ih (by omega) (by omega) (by omega)

end

/-- At the end of input no operand begins. -/
theorem lead_operand_end {T : Tape} {e e' : ExpressionReader} {n n' : Nat} {t : Token} :
    Lead T 0 (fun c => T.Before 2 c ∧ c.current = t) (operand e n t) (operand e' n' t)
      (fun _ => False) := by
  intro c hc hb
  have hk : t.kind = .endOfInput := by
    rw [← hc.2]
    exact hc.1.kind_current (List.length_eq_zero_iff.mp (Nat.le_zero.mp hb))
  have hraise : ∀ e n, operand e n t = raise (.noRule t.kind t.span) := by
    intro e n
    simp [operand, hk]
  rw [hraise, hraise]
  exact lead_noRule (Q := fun _ => False) c hc hb

theorem lead_readExpression (T : Tape) {b n n' : Nat} (hn : b < n) (hn' : b < n') :
    LeadUpTo T b (readExpression n) (readExpression n') := by
  induction b generalizing n n' with
  | zero =>
    obtain ⟨n, rfl⟩ : ∃ k, n = k + 1 := ⟨n - 1, by omega⟩
    obtain ⟨n', rfl⟩ : ∃ k, n' = k + 1 := ⟨n' - 1, by omega⟩
    intro p
    refine .within_of (fun c hc => hc.record rfl hc.current_mem_all) (.current_bind (fun t => ?_))
    exact .bind lead_operand_end (fun first c h => h.elim)
  | succ b ih =>
    obtain ⟨n, rfl⟩ : ∃ k, n = k + 1 := ⟨n - 1, by omega⟩
    obtain ⟨n', rfl⟩ : ∃ k, n' = k + 1 := ⟨n' - 1, by omega⟩
    have he : LeadUpTo T b (readExpression n) (readExpression n') := ih (by omega) (by omega)
    intro p
    refine .within_of (fun c hc => hc.record rfl hc.current_mem_all) (.current_bind (fun t => ?_))
    refine .bind (lead_operand he (by omega) (by omega)) (fun first => ?_)
    exact lead_operatorsAbove he (by omega) (by omega) (Nat.le_refl _) (by omega) (by omega)

/-- Rounds enough, so that statements are read up to a token at which they stop. -/
theorem statementsUntil_stops {stops : TokenKind → Bool} (e : ExpressionReader) {rounds : Nat}
    {c : Cursor} (hstops : stops c.finish.kind = true) (hr : c.pending.length ≤ rounds) :
    ∃ ss c', statementsUntil stops e rounds c = (some ss, c') ∧ stops c'.current.kind = true := by
  induction rounds generalizing c with
  | zero =>
    have hnil := List.length_eq_zero_iff.mp (Nat.le_zero.mp hr)
    exact ⟨[], c, rfl, by rwa [Cursor.current, hnil]⟩
  | succ rounds ih =>
    by_cases hs : stops c.current.kind = true
    · exact ⟨[], c, statementsUntil_of_stops hs, hs⟩
    · have hon := ((statement e).onward c).trans (Cursor.onward_advance _)
      have hlen : ((statement e) c).2.advance.pending.length ≤ rounds := by
        have hle := ((statement e).onward c).pending.length_le
        have hne : c.pending.length ≠ 0 := by
          intro hzero
          rw [Cursor.current, List.length_eq_zero_iff.mp hzero, List.headD_nil] at hs
          exact hs hstops
        rw [Cursor.advance, List.length_tail]
        omega
      obtain ⟨ss, c', hrun, hstop⟩ := ih (by rwa [hon.finish]) hlen
      refine ⟨(statement e c).1.toList ++ ss, c', ?_, hstop⟩
      rw [statementsUntil, bind_of_some (current_apply c), if_neg hs,
        bind_of_some (orNone_apply _ c), bind_of_some (advance_apply _), bind_of_some hrun]
      rfl

namespace Tape

variable (T : Tape)

/-- A cursor at the first token, with nothing recorded. -/
def first : Cursor := ⟨T.tokens, T.finish, 0, []⟩

theorem ready_first : T.Ready T.first :=
  .inl ⟨⟨rfl, List.suffix_refl _, by simp [first], .nil⟩, by simp [first]⟩

/-- A reading of all tokens ends at the end of input, with every step in order. More nesting and more
rounds make no difference. -/
theorem read_all : ∃ ss c, c.pending = [] ∧ T.Before 3 c ∧
    ∀ n rounds, T.tokens.length < n → T.tokens.length ≤ rounds →
      statementsUntil endsProgram (readExpression n) rounds T.first = (some ss, c) := by
  have hstops : endsProgram T.first.finish.kind = true := by
    rw [first, T.kind_finish]
    rfl
  obtain ⟨ss, c, hrun, hstop⟩ := statementsUntil_stops (readExpression (T.tokens.length + 1))
    hstops (Nat.le_refl T.tokens.length)
  have hlead : ∀ n rounds, T.tokens.length < n → T.tokens.length ≤ rounds →
      Lead T T.tokens.length T.Ready
        (statementsUntil endsProgram (readExpression (T.tokens.length + 1)) T.tokens.length)
        (statementsUntil endsProgram (readExpression n) rounds) T.Quiet :=
    fun n rounds hn hr => lead_statementsUntil (lead_readExpression T (Nat.lt_succ_self _) hn) rfl
      (Nat.le_refl _) (Nat.le_refl _) hr
  have hfirst := fun n rounds hn hr => hlead n rounds hn hr T.first T.ready_first (Nat.le_refl _)
  have hbefore := (hfirst _ _ (Nat.lt_succ_self _) (Nat.le_refl _)).2.1
  rw [hrun] at hbefore
  refine ⟨ss, c, ?_, hbefore, fun n rounds hn hr => (hfirst n rounds hn hr).1.trans hrun⟩
  by_contra hne
  exact T.kind_ne _ (hbefore.current_mem hne) (eq_of_beq hstop)

end Tape

/-- The reading of a text is that of its tokens. -/
theorem exists_tape_read (source : String) : ∃ (T : Tape) (c : Cursor),
    tokens source = T.all ∧ c.pending = [] ∧ T.Before 3 c ∧
      (read source).steps = c.trail.reverse ∧ (read source).depth = c.depth ∧
      ∀ n rounds, T.tokens.length < n → T.tokens.length ≤ rounds →
        statementsUntil endsProgram (readExpression n) rounds T.first =
          (some (read source).program.statements, c) := by
  obtain ⟨T, hall⟩ := exists_tape source
  obtain ⟨ss, c, hnil, hbefore, hread⟩ := T.read_all
  have hrun : readTokens T.tokens T.finish 0 = (some ss, c) :=
    hread _ _ (Nat.lt_succ_self _) (Nat.le_succ _)
  have hsource : read source = ⟨source, ⟨ss⟩, c.trail.reverse, c.depth⟩ := by
    rw [tokens] at hall
    simp [read, Reading.ofScanner, hall, hrun]
  rw [hsource]
  exact ⟨T, c, hall, hnil, hbefore, rfl, rfl, hread⟩

end Treewalk
