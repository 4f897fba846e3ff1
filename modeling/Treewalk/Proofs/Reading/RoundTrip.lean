import Treewalk.Proofs.Grammar.Canonical
import Treewalk.Proofs.Reading.Completeness

namespace Treewalk

open Reader

section
variable {expression : ExpressionReader} (hrd : ∀ p, Yields (expression p) Expression.Printable)
include hrd

theorem yields_letStatement : Yields (letStatement expression) Statement.Printable := by
  refine .within (.expect_current (by decide) (fun t hk ht => ?_))
  have hname := ht.isName hk
  refine .after (fun _ => .after (fun _ => .bind (hrd .lowest) (fun e he => ?_)))
  exact .after (fun _ => .pure ⟨hname, he⟩)

theorem yields_returnStatement : Yields (returnStatement expression) Statement.Printable := by
  refine .within (.after (fun _ => ?_))
  exact .bind (hrd .lowest) (fun e he => .after (fun _ => .pure he))

theorem yields_expressionStatement :
    Yields (expressionStatement expression) Statement.Printable := by
  refine .within ?_
  exact .bind (hrd .lowest) (fun e he => .after (fun _ => .pure he))

theorem yields_statement : Yields (statement expression) Statement.Printable := by
  refine .within (.after (fun t => ?_))
  split
  · exact yields_letStatement hrd
  · exact yields_returnStatement hrd
  · exact yields_expressionStatement hrd

theorem yields_statementsUntil (stops : TokenKind → Bool) (rounds : Nat) :
    Yields (statementsUntil stops expression rounds) PrintableStatements := by
  induction rounds with
  | zero => exact .pure trivial
  | succ rounds ih =>
    refine .after (fun t => ?_)
    split
    · exact .pure trivial
    · refine .bind (.orNone (yields_statement hrd)) (fun r hr => .after (fun _ => ?_))
      refine .bind ih (fun ss hss => .pure ?_)
      cases r with
      | none => exact hss
      | some s => exact ⟨hr s rfl, hss⟩

theorem yields_block (rounds : Nat) : Yields (block expression rounds) PrintableStatements :=
  .within (.after (fun _ => yields_statementsUntil hrd _ rounds))

omit hrd in
theorem yields_itemsAfterCommas {α : Type} {item : Reader α} {P : α → Prop} (h : Yields item P)
    (rounds : Nat) : Yields (itemsAfterCommas item rounds) (fun as => ∀ a ∈ as, P a) := by
  induction rounds with
  | zero => exact .pure (by simp)
  | succ rounds ih =>
    refine .after (fun t => ?_)
    split
    · refine .after (fun _ => .after (fun _ => .bind h (fun a ha => .bind ih (fun as has => ?_))))
      exact .pure (List.forall_mem_cons.mpr ⟨ha, has⟩)
    · exact .pure (by simp)

omit hrd in
theorem yields_delimited {α : Type} {item : Reader α} {P : α → Prop} (h : Yields item P)
    (close : TokenKind) (rounds : Nat) :
    Yields (delimited close item rounds) (fun as => ∀ a ∈ as, P a) := by
  refine .within (.after (fun t => ?_))
  split
  · exact .after (fun _ => .pure (by simp))
  · refine .after (fun _ => .bind h (fun a ha => ?_))
    refine .bind (yields_itemsAfterCommas h rounds) (fun as has => .after (fun _ => ?_))
    exact .pure (List.forall_mem_cons.mpr ⟨ha, has⟩)

omit hrd in
theorem yields_parameter : Yields parameter IsName := by
  refine .bind .current (fun t ht => ?_)
  split
  · next hk => exact .pure ((ht (by simp [hk])).isName hk)
  · exact .raise

theorem yields_hashPair :
    Yields (hashPair expression) (fun pair => pair.1.Printable ∧ pair.2.Printable) :=
  .bind (hrd .lowest) (fun _ hk => .after (fun _ => .after (fun _ =>
    .bind (hrd .lowest) (fun _ hv => .pure ⟨hk, hv⟩))))

omit hrd in
theorem yields_integerLiteral (t : Token) : Yields (integerLiteral t) Expression.Printable := by
  by_cases hmax : numeralValue t.literal ≤ 9223372036854775807
  · have hvalue := Int64.toInt_ofNat_of_lt (Nat.lt_succ_of_le hmax)
    rw [integerLiteral_of_value hvalue]
    exact .pure (by rw [Expression.Printable, hvalue]; exact Int.natCast_nonneg _)
  · rw [integerLiteral_of_lt (Nat.lt_of_not_le hmax)]
    exact .raise

theorem yields_conditional (rounds : Nat) :
    Yields (conditional expression rounds) Expression.Printable := by
  refine .within (.after (fun _ => .after (fun _ => .bind (hrd .lowest) (fun c hc => ?_))))
  refine .after (fun _ => .after (fun _ => .bind (yields_block hrd rounds) (fun body hbody => ?_)))
  refine .after (fun t => ?_)
  split
  · refine .after (fun _ => .after (fun _ => ?_))
    exact .bind (yields_block hrd rounds) (fun other hother => .pure ⟨hc, hbody, hother⟩)
  · exact .pure ⟨hc, hbody⟩

theorem yields_functionLiteral (rounds : Nat) :
    Yields (functionLiteral expression rounds) Expression.Printable := by
  refine .within (.after (fun _ => ?_))
  refine .bind (yields_delimited yields_parameter _ rounds) (fun ps hps => .after (fun _ => ?_))
  exact .bind (yields_block hrd rounds) (fun body hbody => .pure ⟨hps, hbody⟩)

theorem yields_operand (rounds : Nat) {t : Token} (ht : t.kind ≠ .endOfInput → t.Sound) :
    Yields (operand expression rounds t) Expression.Printable := by
  have hunary : ∀ o, Yields (unaryExpression expression o) Expression.Printable :=
    fun o => .within (.after (fun _ => .bind (hrd .unary) (fun e he => .pure he)))
  unfold operand
  split
  · next hk => exact .pure ((ht (by simp [hk])).isName hk)
  · exact yields_integerLiteral t
  · next hk => exact .pure ((ht (by simp [hk])).isQuotable hk)
  · exact .pure trivial
  · exact .pure trivial
  · exact hunary .not
  · exact hunary .negate
  · exact .within (.after (fun _ => .bind (hrd .lowest) (fun e he => .after (fun _ => .pure he))))
  · exact yields_conditional hrd rounds
  · exact yields_functionLiteral hrd rounds
  · exact .within (.bind (yields_delimited (hrd .lowest) _ rounds)
      (fun es hes => .pure (printableExpressions_iff.mpr hes)))
  · exact .within (.bind (yields_delimited (yields_hashPair hrd) _ rounds)
      (fun ps hps => .pure (printablePairs_iff.mpr hps)))
  · exact .raise

theorem yields_goOn {rounds : Nat} {k : TokenKind} {goOn : Expression → Reader Expression}
    {p : Precedence} (hp : p < .of k) (hgo : continuation? expression rounds k = some goOn)
    {a : Expression} (ha : a.Printable) : Yields (goOn a) Expression.Printable := by
  rcases Precedence.of_cases hp with rfl | rfl | ⟨o, rfl⟩
  · obtain rfl := Option.some.inj hgo
    exact .within (.bind (yields_delimited (hrd .lowest) _ rounds)
      (fun es hes => .pure ⟨ha, printableExpressions_iff.mpr hes⟩))
  · obtain rfl := Option.some.inj hgo
    refine .within (.after (fun _ => .bind (hrd .lowest) (fun i hi => ?_)))
    exact .after (fun _ => .pure ⟨ha, hi⟩)
  · rw [o.continuation?_kind] at hgo
    obtain rfl := Option.some.inj hgo
    exact .within (.after (fun t => .after (fun _ => .bind (hrd _) (fun b hb => .pure ⟨ha, hb⟩))))

theorem yields_operatorsAbove (p : Precedence) (rounds round : Nat) {a : Expression}
    (ha : a.Printable) :
    Yields (operatorsAbove p expression rounds round a) Expression.Printable := by
  induction round generalizing a with
  | zero => exact .pure ha
  | succ round ih =>
    refine .after (fun t => ?_)
    split
    · next hp =>
      split
      · exact .pure ha
      · next goOn hgo =>
        exact .after (fun _ => .bind (yields_goOn hrd hp hgo ha) (fun e he => ih he))
    · exact .pure ha

end

theorem yields_readExpression (n : Nat) (p : Precedence) :
    Yields (readExpression n p) Expression.Printable := by
  induction n generalizing p with
  | zero => exact .fail
  | succ n ih =>
    refine .within (.bind .current (fun t ht => ?_))
    exact .bind (yields_operand ih n ht) (fun e he => yields_operatorsAbove ih p n n he)

/-- Whatever is wrong with a text, all that is read of it can be written down. -/
theorem printable_read (source : String) : (read source).program.Printable := by
  obtain ⟨ts, finish, _, hsound, hprogram, _⟩ := Reading.read_eq source
  rw [hprogram]
  cases hread : (readTokens ts finish 0).1 with
  | none => exact trivial
  | some ss =>
    exact yields_statementsUntil (yields_readExpression _) endsProgram _ _ hsound ss hread

/-- The canonical text of what was read of any text is read without complaint, as the same program,
which has the same canonical text. -/
theorem read_render_read (source : String) :
    (read source).program.Printable ∧
    (read (read source).program.render).raised = [] ∧
    (read (read source).program.render).program = (read source).program ∧
    (read (read source).program.render).program.render = (read source).program.render := by
  have hp := printable_read source
  obtain ⟨ws, hspelled, hparted⟩ := hp.exists_spelled
  obtain ⟨hprogram, hraised⟩ := read_of_parted hp hspelled hparted
  exact ⟨hp, hraised, hprogram, by rw [hprogram]⟩

end Treewalk
