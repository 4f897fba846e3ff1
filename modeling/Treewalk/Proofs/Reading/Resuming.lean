import Treewalk.Proofs.Reading.Sequel

namespace Treewalk

open Reader

/-- The readers concur from the first token of an expression. -/
def ConcurUpTo (S : Sequel) (b : Nat) (e : ExpressionReader) : Prop :=
  ∀ o p, Concur S b (S.At o) (e p) (e p) (S.Ended o)

section
variable {S : Sequel} {α : Type} {b m n o rounds : Nat} {t : Token}

section
variable {item : Reader α} (hstarve : item.Starves)
  (hitem : Concur S b (S.At o) item item (S.Ended o))
include hitem

theorem concur_itemsAfterCommas :
    Concur S b (S.Ended o) (itemsAfterCommas item rounds) (itemsAfterCommas item rounds)
      (S.Ended o) := by
  induction rounds with
  | zero => exact .pure (fun _ _ h => h)
  | succ rounds ih =>
    refine .upcoming_bind (fun t _ => ?_) (fun t u ht hu => ?_)
    · by_cases hk : t.kind = .comma
      · rw [if_pos hk]
        refine .weaken (.advance_bind (.pre (fun _ _ h => h.past hk rfl) ?_))
        refine .weaken (.advance_bind (.bind hitem (fun first => ?_)))
        exact .bind ih (fun rest => .pure (fun _ _ h => h))
      · rw [if_neg hk]
        exact .pure (fun _ _ h => h.ended_before)
    · have hk : ¬ t.kind = .comma := by simp [ht]
      have hk' : ¬ u.kind = .comma := by rcases hu with hu | hu <;> simp [hu]
      rw [if_neg hk, if_neg hk']
      exact .pure (fun _ _ h => h)

omit hitem in
include hstarve in
/-- A list without its end cannot be read. -/
theorem starves_delimited {close : TokenKind} (hclose : close ≠ .endOfInput) {ws : List Terminal}
    (hws : ws.tail = []) : Accepts (delimited close item n) ws (fun _ _ => False) := by
  refine .within (.upcoming_bind (fun t ht => ?_))
  have hk : ¬ t.kind = close := by
    rw [ht, hws]
    exact hclose.symm
  rw [if_neg hk]
  exact .advance_bind (hws ▸ .bind hstarve (fun _ _ _ h => h.elim))

include hstarve in
theorem concur_delimited {close : TokenKind} (hclose : close ≠ .endOfInput) :
    Concur S (b + 1) (fun us vs => S.At o us.tail vs.tail) (delimited close item n)
      (delimited close item n) (fun us vs => ∃ t, t.kind = close ∧ S.On o t us vs) := by
  refine .of_faulty (·.tail = []) (fun ws hws => starves_delimited hstarve hclose hws) (.within ?_)
  have hne : ∀ us vs : List Token, S.At o us.tail vs.tail ∧ ¬ (us.map Token.terminal).tail = [] →
      S.At o us.tail vs.tail ∧ us.tail ≠ [] := by
    intro us vs h
    exact ⟨h.1, fun hnil => h.2 (by rw [← List.map_tail, hnil]; rfl)⟩
  refine .pre hne (.next_bind (fun t _ => ?_))
  by_cases hk : t.kind = close
  · rw [if_pos hk]
    exact .advance_bind (.pure (fun _ _ h => ⟨t, hk, h⟩))
  · rw [if_neg hk]
    refine .pre (fun _ _ h => h.1) (.advance_bind (.bind hitem (fun first => ?_)))
    refine .bind (concur_itemsAfterCommas hitem) (fun rest => ?_)
    exact .weaken (.expect_bind hclose (fun t ht => .pure (fun _ _ h => ⟨t, ht, h⟩)))

end

theorem starves_parameter : parameter.Starves := by
  refine .current_bind (fun t ht => ?_)
  have hk : ¬ t.kind = .identifier := by
    rcases ht with ⟨hend, _⟩ | ⟨_, _, hcons⟩
    · simp [hend]
    · contradiction
  rw [if_neg hk]
  exact .raise

theorem concur_parameter : Concur S b (S.At o) parameter parameter (S.Ended o) := by
  refine .of_on starves_parameter (fun t => .current_bind ?_)
  by_cases hk : t.kind = .identifier
  · rw [if_pos hk]
    exact .pure (fun _ _ h => h.ended hk rfl (by decide))
  · rw [if_neg hk]
    exact .raise

section
variable {e : ExpressionReader} (hstarve : ∀ p, (e p).Starves) (he : ConcurUpTo S b e)

include hstarve in
theorem starves_hashPair : (hashPair e).Starves := .bind (hstarve .lowest) (fun _ _ _ h => h.elim)

include he

theorem concur_hashPair : Concur S b (S.At o) (hashPair e) (hashPair e) (S.Ended o) := by
  refine .bind (he o .lowest) (fun key => ?_)
  refine .weaken (.expect_bind (by decide) (fun t ht => ?_))
  refine .pre (fun _ _ h => h.past ht rfl) (.weaken (.advance_bind ?_))
  exact .bind (he o .lowest) (fun value => .pure (fun _ _ h => h))

omit he in
/-- Behind a statement the second text goes on as it does behind the first one. -/
theorem concur_skip {s : Statement} :
    Concur S b (S.Ended o) (skip .semicolon >>= fun _ => pure s)
      (skip .semicolon >>= fun _ => pure s) (fun us vs => S.At o us.tail vs.tail) :=
  .skip_bind (by decide) (by decide) (fun _ ht => .pure (fun _ _ h => h.past ht rfl))
    (.pure (fun _ _ h => h.behind))

theorem concur_letStatement (ht : t.kind = .letWord) :
    Concur S (b + 1) (S.On o t) (letStatement e) (letStatement e)
      (fun us vs => S.At o us.tail vs.tail) := by
  refine .within (.pre (fun _ _ h => h.ended ht rfl (by decide)) ?_)
  refine .expect_bind (by decide) (fun name hname => .current_bind ?_)
  refine .pre (fun _ _ h => h.ended hname rfl (by decide)) ?_
  refine .weaken (.expect_bind (by decide) (fun sign hsign => ?_))
  refine .pre (fun _ _ h => h.past hsign rfl) (.weaken (.advance_bind ?_))
  exact .bind (he o .lowest) (fun _ => concur_skip)

theorem concur_returnStatement (ht : t.kind = .returnWord) :
    Concur S (b + 1) (S.On o t) (returnStatement e) (returnStatement e)
      (fun us vs => S.At o us.tail vs.tail) := by
  refine .within (.pre (fun _ _ h => h.past ht rfl) (.advance_bind ?_))
  exact .bind (he o .lowest) (fun _ => concur_skip)

theorem concur_expressionStatement :
    Concur S b (S.On o t) (expressionStatement e) (expressionStatement e)
      (fun us vs => S.At o us.tail vs.tail) :=
  .within (.pre (fun _ _ h => h.1) (.bind (he o .lowest) (fun _ => concur_skip)))

theorem concur_statement :
    Concur S b (S.On o t) (statement e) (statement e) (fun us vs => S.At o us.tail vs.tail) := by
  refine .within (.current_bind ?_)
  cases hk : t.kind
  case letWord => exact .weaken (concur_letStatement he hk)
  case returnWord => exact .weaken (concur_returnStatement he hk)
  all_goals exact concur_expressionStatement he

end

theorem length_advance_lt (p : Reader α) {c : Cursor} (hne : c.pending ≠ []) :
    (p c).2.advance.pending.length < c.pending.length := by
  have hle := (p.onward c).pending.length_le
  have hpos := List.length_pos_iff.mpr hne
  rw [Cursor.advance, List.length_tail]
  omega

theorem stops_of_pending_eq_nil {stops : TokenKind → Bool} (hstops : stops .endOfInput = true)
    {c : Cursor} (hc : c.Sound) (hnil : c.pending = []) : stops c.current.kind = true := by
  rwa [Cursor.current, hnil, List.headD_nil, hc.finish]

/-- From `c` the statements `ss` are read up to `c'`, where they stop, and from `d` the same ones up
to `d'`, from where reading goes on with so many rounds left. -/
structure Resumes (S : Sequel) (o : Nat) (stops : TokenKind → Bool) (e : ExpressionReader)
    (rounds : Nat) (c d : Cursor) (ss : List Statement) (c' d' : Cursor) (left : Nat) : Prop where
  first : statementsUntil stops e rounds c = (some ss, c')
  stop : stops c'.current.kind = true
  second : statementsUntil stops e rounds d =
    ((statementsUntil stops e left d').1.map (ss ++ ·), (statementsUntil stops e left d').2)
  level : S.At o c'.pending d'.pending
  finish : d'.finish = d.finish
  raised : d'.raised = d.raised
  depth : d'.depth = d.depth
  enough : d.pending.length ≤ rounds → d'.pending.length ≤ left

namespace Resumes

variable {stops : TokenKind → Bool} {e : ExpressionReader} {c d c' d' : Cursor}
  {ss : List Statement} {left : Nat}

theorem stay (hstop : stops c.current.kind = true) (hat : S.At o c.pending d.pending) :
    Resumes S o stops e rounds c d [] c d rounds := by
  refine ⟨statementsUntil_of_stops hstop, hstop, ?_, hat, rfl, rfl, rfl, fun h => h⟩
  simp

/-- One statement more. -/
theorem cons {s : Statement} (hgo : ¬ stops c.current.kind = true)
    (hgo' : ¬ stops d.current.kind = true) (hne : d.pending ≠ [])
    (hfirst : (statement e c).1 = some s) (hsecond : (statement e d).1 = some s)
    (hraised : (statement e d).2.raised = d.raised) (hdepth : (statement e d).2.depth = d.depth)
    (h : Resumes S o stops e rounds (statement e c).2.advance (statement e d).2.advance ss c' d'
      left) : Resumes S o stops e (rounds + 1) c d (s :: ss) c' d' left := by
  have hone : ∀ {c : Cursor}, ¬ stops c.current.kind = true → (statement e c).1 = some s →
      statementsUntil stops e (rounds + 1) c =
        ((statementsUntil stops e rounds (statement e c).2.advance).1.map (s :: ·),
          (statementsUntil stops e rounds (statement e c).2.advance).2) := by
    intro c hgo hs
    rw [statementsUntil, bind_of_some (current_apply c), if_neg hgo,
      bind_of_some (orNone_apply _ c), bind_of_some (advance_apply _), hs]
    cases hr : (statementsUntil stops e rounds).run (statement e c).2.advance with
    | mk result c' =>
      cases result with
      | none => rw [bind_of_none hr]; rfl
      | some ss => rw [bind_of_some hr]; rfl
  refine ⟨?_, h.stop, ?_, h.level, ?_, h.raised.trans hraised, h.depth.trans hdepth, fun hlen => ?_⟩
  · rw [hone hgo hfirst, h.first]
    rfl
  · rw [hone hgo' hsecond, h.second, Option.map_map]
    rfl
  · exact h.finish.trans ((statement e).onward d).finish
  · have hlt := length_advance_lt (statement e) hne
    exact h.enough (by omega)

end Resumes

section
variable {e : ExpressionReader} {stops : TokenKind → Bool} {c d : Cursor}

/-- Where the first text ends its statements, the second one goes on. -/
theorem exists_resumes (he : ConcurUpTo S b e) (hstops : stops .endOfInput = true) (hc : c.Sound)
    (hd : d.finish = S.finish) (hat : S.At o c.pending d.pending) (hb : c.pending.length ≤ b)
    (hr : c.pending.length ≤ rounds)
    (hquiet : (statementsUntil stops e rounds c).2.raised = c.raised) :
    ∃ ss c' d' left, Resumes S o stops e rounds c d ss c' d' left := by
  induction rounds generalizing c d with
  | zero =>
    have hnil := List.length_eq_zero_iff.mp (Nat.le_zero.mp hr)
    exact ⟨[], c, d, 0, .stay (stops_of_pending_eq_nil hstops hc hnil) hat⟩
  | succ rounds ih =>
    by_cases hstop : stops c.current.kind = true
    · exact ⟨[], c, d, rounds + 1, .stay hstop hat⟩
    · have hne : c.pending ≠ [] := fun hnil => hstop (stops_of_pending_eq_nil hstops hc hnil)
      obtain ⟨t, hon⟩ := hat.eq_nil_or_on.resolve_left hne
      obtain ⟨hcurrent, hcurrent'⟩ := hon.current_eq
      rw [statementsUntil, bind_of_some (current_apply c), if_neg hstop] at hquiet
      have hfirst : (statement e c).2.raised = c.raised :=
        quiet_of_bind (p := orNone (statement e)) hquiet
      obtain ⟨s, hs, hs', hraised, hdepth, hpast⟩ :=
        concur_statement he (o := o) (t := t) c d hc hd hon hb hfirst
      rw [bind_of_some (orNone_apply _ c), bind_of_some (advance_apply _)] at hquiet
      have hon' := ((statement e).onward c).trans (Cursor.onward_advance _)
      have hlt := length_advance_lt (statement e) hne
      obtain ⟨ss, c', d', left, hrest⟩ := ih (c := (statement e c).2.advance)
        (d := (statement e d).2.advance) (hc.onward hon')
        (((statement e).onward d).finish.trans hd) hpast (by omega) (by omega)
        (quiet_of_bind (hquiet.trans hfirst.symm))
      refine ⟨s :: ss, c', d', left, .cons hstop ?_ ?_ hs hs' hraised hdepth hrest⟩
      · rwa [hcurrent', ← hcurrent]
      · intro hnil
        obtain ⟨⟨after, hafter, _⟩, _⟩ := hon
        rw [hnil] at hafter
        exact hne (List.append_eq_nil_iff.mp hafter.symm).1

end

section
variable {e : ExpressionReader} (hstarve : ∀ p, (e p).Starves) (he : ConcurUpTo S b e)
include he

/-- A block that the first text leaves open is closed in the second one. -/
theorem concur_body (hn : b ≤ n) :
    Concur S b (S.At (o + 1)) (statementsUntil endsBlock e n) (statementsUntil endsBlock e n)
      (S.Ended o) := by
  intro c d hc hd hat hb hquiet
  obtain ⟨ss, c', d', left, h⟩ := exists_resumes he rfl hc hd hat hb (Nat.le_trans hb hn) hquiet
  have hc' : c'.Sound := by
    have hon := (statementsUntil endsBlock e n).onward c
    rw [h.first] at hon
    exact hc.onward hon
  obtain ⟨hstop', hended⟩ : endsBlock d'.current.kind = true ∧ S.Ended o c'.pending d'.pending := by
    rcases h.level.eq_nil_or_on with hnil | ⟨t, hon⟩
    · obtain ⟨after, hafter, hbehind⟩ := h.level
      rw [hnil] at hafter hbehind ⊢
      obtain ⟨brace, braces, rfl, hbrace, hbraces, hrest⟩ := hbehind.closing
      rw [Cursor.current, hafter, List.nil_append, List.headD_cons, hbrace]
      exact ⟨rfl, ⟨braces, rfl, hrest⟩, fun _ u hu => hbraces u (List.mem_of_mem_head? hu)⟩
    · obtain ⟨hcurrent, hcurrent'⟩ := hon.current_eq
      have hstop := h.stop
      rw [hcurrent] at hstop
      have hk : t.kind = .rightBrace := by
        simp only [endsBlock, Bool.or_eq_true, beq_iff_eq] at hstop
        exact hstop.resolve_right (hon.kind_ne hc'.pending)
      exact ⟨hcurrent' ▸ hstop, hon.ended hk rfl (by decide)⟩
  have hrun := h.second
  rw [statementsUntil_of_stops hstop'] at hrun
  rw [h.first, hrun]
  exact ⟨ss, rfl, by simp, h.raised, h.depth, hended⟩

theorem concur_block (hn : b ≤ n) (ht : t.kind = .leftBrace) :
    Concur S (b + 1) (S.On o t) (block e n) (block e n) (S.Ended o) :=
  .within (.pre (fun _ _ h => h.past ht rfl) (.advance_bind (concur_body he hn)))

theorem concur_unary {operator : UnaryOperator} (hk : t.kind = operator.kind) :
    Concur S (b + 1) (S.On o t) (unaryExpression e operator) (unaryExpression e operator)
      (S.Ended o) := by
  have hn : operator.kind.Nests o o := by cases operator <;> rfl
  refine .within (.pre (fun _ _ h => h.past hk hn) (.advance_bind ?_))
  exact .bind (he o .unary) (fun operand => .pure (fun _ _ h => h))

theorem concur_grouped (ht : t.kind = .leftParen) :
    Concur S (b + 1) (S.On o t) (groupedExpression e) (groupedExpression e) (S.Ended o) := by
  refine .within (.pre (fun _ _ h => h.past ht rfl) (.advance_bind ?_))
  refine .bind (he o .lowest) (fun inner => .weaken (.expect_bind (by decide) (fun u hu => ?_)))
  exact .pure (fun _ _ h => h.ended hu rfl (by decide))

theorem concur_conditional (hn : b ≤ n) (ht : t.kind = .ifWord) :
    Concur S (b + 1) (S.On o t) (conditional e n) (conditional e n) (S.Ended o) := by
  refine .within (.pre (fun _ _ h => h.ended ht rfl (by decide)) ?_)
  refine .expect_bind (by decide) (fun opening hopening => ?_)
  refine .pre (fun _ _ h => h.past hopening rfl) (.weaken (.advance_bind ?_))
  refine .bind (he o .lowest) (fun condition => ?_)
  refine .weaken (.expect_bind (by decide) (fun closing hclosing => ?_))
  refine .pre (fun _ _ h => h.ended hclosing rfl (by decide)) ?_
  refine .weaken (.expect_bind (by decide) (fun brace hbrace => ?_))
  refine .bind (.weaken (concur_block he hn hbrace)) (fun consequence => ?_)
  refine .upcoming_bind (fun next _ => ?_) (fun next next' hnext hnext' => ?_)
  · by_cases hk : next.kind = .elseWord
    · rw [if_pos hk]
      refine .weaken (.advance_bind (.pre (fun _ _ h => h.ended hk rfl (by decide)) ?_))
      refine .weaken (.expect_bind (by decide) (fun brace hbrace => ?_))
      refine .bind (.weaken (concur_block he hn hbrace)) (fun alternative => ?_)
      exact .pure (fun _ _ h => h)
    · rw [if_neg hk]
      exact .pure (fun _ _ h => h.ended_before)
  · have hk : ¬ next.kind = .elseWord := by simp [hnext]
    have hk' : ¬ next'.kind = .elseWord := by rcases hnext' with hu | hu <;> simp [hu]
    rw [if_neg hk, if_neg hk']
    exact .pure (fun _ _ h => h)

theorem concur_function (hn : b ≤ n) (ht : t.kind = .functionWord) :
    Concur S (b + 1) (S.On o t) (functionLiteral e n) (functionLiteral e n) (S.Ended o) := by
  refine .within (.pre (fun _ _ h => h.ended ht rfl (by decide)) ?_)
  refine .expect_bind (by decide) (fun opening hopening => ?_)
  refine .pre (fun _ _ h => h.past hopening rfl) ?_
  refine .bind (.weaken (concur_delimited starves_parameter concur_parameter (by decide)))
    (fun parameters => ?_)
  rintro c d hc hd ⟨closing, hclosing, hon⟩
  refine (Concur.weaken (.expect_bind (by decide) (fun brace hbrace => ?_))) c d hc hd
    (hon.ended hclosing rfl (by decide))
  exact .bind (.weaken (concur_block he hn hbrace)) (fun body => .pure (fun _ _ h => h))

include hstarve in
theorem concur_array (ht : t.kind = .leftBracket) :
    Concur S (b + 1) (S.On o t) (arrayLiteral e n) (arrayLiteral e n) (S.Ended o) := by
  refine .within (.pre (fun _ _ h => h.past ht rfl) ?_)
  refine .bind (concur_delimited (hstarve .lowest) (he o .lowest) (by decide)) (fun elements => ?_)
  exact .pure (fun _ _ ⟨_, hclosing, h⟩ => h.ended hclosing rfl (by decide))

include hstarve in
/-- Inside of a hash one brace more is open. -/
theorem concur_hash (ht : t.kind = .leftBrace) :
    Concur S (b + 1) (S.On o t) (hashLiteral e n) (hashLiteral e n) (S.Ended o) := by
  have hn : TokenKind.leftBrace.Nests o (o + 1) := rfl
  refine .within (.pre (fun _ _ h => h.past ht hn) ?_)
  refine .bind (concur_delimited (starves_hashPair hstarve) (concur_hashPair he) (by decide))
    (fun pairs => ?_)
  exact .pure (fun _ _ ⟨_, hclosing, h⟩ => h.ended hclosing rfl (by decide))

omit he in
theorem concur_integerLiteral (ht : t.kind = .integer) :
    Concur S b (S.On o t) (integerLiteral t) (integerLiteral t) (S.Ended o) := by
  by_cases hmax : numeralValue t.literal ≤ 9223372036854775807
  · rw [integerLiteral_of_value (Int64.toInt_ofNat_of_lt (Nat.lt_succ_of_le hmax))]
    exact .pure (fun _ _ h => h.ended ht rfl (by decide))
  · rw [integerLiteral_of_lt (Nat.lt_of_not_le hmax)]
    exact .raise

include hstarve in
theorem concur_operand (hn : b ≤ n) :
    Concur S (b + 1) (S.On o t) (operand e n t) (operand e n t) (S.Ended o) := by
  unfold operand
  cases hk : t.kind
  case identifier => exact .pure (fun _ _ h => h.ended hk rfl (by decide))
  case integer => exact concur_integerLiteral hk
  case string => exact .pure (fun _ _ h => h.ended hk rfl (by decide))
  case trueWord => exact .pure (fun _ _ h => h.ended hk rfl (by decide))
  case falseWord => exact .pure (fun _ _ h => h.ended hk rfl (by decide))
  case bang => exact concur_unary he hk
  case minus => exact concur_unary he hk
  case leftParen => exact concur_grouped he hk
  case ifWord => exact concur_conditional he hn hk
  case functionWord => exact concur_function he hn hk
  case leftBracket => exact concur_array hstarve he hk
  case leftBrace => exact concur_hash hstarve he hk
  all_goals exact .raise

theorem concur_binary {operator : BinaryOperator} {left : Expression}
    (ht : t.kind = operator.kind) :
    Concur S (b + 1) (S.On o t) (binaryExpression e operator left)
      (binaryExpression e operator left) (S.Ended o) := by
  have hn : operator.kind.Nests o o := by cases operator <;> rfl
  refine .within (.current_bind (.pre (fun _ _ h => h.past ht hn) (.advance_bind ?_)))
  exact .bind (he o _) (fun right => .pure (fun _ _ h => h))

include hstarve in
theorem concur_call {callee : Expression} (ht : t.kind = .leftParen) :
    Concur S (b + 1) (S.On o t) (callExpression e n callee) (callExpression e n callee)
      (S.Ended o) := by
  refine .within (.pre (fun _ _ h => h.past ht rfl) ?_)
  refine .bind (concur_delimited (hstarve .lowest) (he o .lowest) (by decide)) (fun arguments => ?_)
  exact .pure (fun _ _ ⟨_, hclosing, h⟩ => h.ended hclosing rfl (by decide))

theorem concur_index {collection : Expression} (ht : t.kind = .leftBracket) :
    Concur S (b + 1) (S.On o t) (indexExpression e collection) (indexExpression e collection)
      (S.Ended o) := by
  refine .within (.pre (fun _ _ h => h.past ht rfl) (.advance_bind ?_))
  refine .bind (he o .lowest) (fun index => .weaken (.expect_bind (by decide) (fun u hu => ?_)))
  exact .pure (fun _ _ h => h.ended hu rfl (by decide))

include hstarve in
theorem concur_goOn {p : Precedence} {k : TokenKind} {goOn : Expression → Reader Expression}
    (hp : p < .of k) (hgo : continuation? e n k = some goOn) (ht : t.kind = k) (left : Expression) :
    Concur S (b + 1) (S.On o t) (goOn left) (goOn left) (S.Ended o) := by
  rcases Precedence.of_cases hp with rfl | rfl | ⟨operator, rfl⟩
  · obtain rfl := Option.some.inj hgo
    exact concur_call hstarve he ht
  · obtain rfl := Option.some.inj hgo
    exact concur_index he ht
  · rw [operator.continuation?_kind] at hgo
    obtain rfl := Option.some.inj hgo
    exact concur_binary he ht

include hstarve in
theorem concur_operatorsAbove {p : Precedence} {left : Expression} :
    Concur S (b + 1) (S.Ended o) (operatorsAbove p e n rounds left)
      (operatorsAbove p e n rounds left) (S.Ended o) := by
  induction rounds generalizing left with
  | zero => exact .pure (fun _ _ h => h)
  | succ rounds ih =>
    refine .upcoming_bind (fun next _ => ?_) (fun next next' hnext hnext' => ?_)
    · by_cases hp : p < .of next.kind
      · rw [if_pos hp]
        cases hgo : continuation? e n next.kind with
        | none => exact absurd hgo (continuation?_ne_none hp)
        | some goOn =>
          refine .weaken (.advance_bind ?_)
          refine .bind (concur_goOn hstarve he hp hgo rfl left) (fun extended => ?_)
          exact ih
      · rw [if_neg hp]
        exact .pure (fun _ _ h => h.ended_before)
    · have hp : ¬ p < .of next.kind := by
        rw [hnext]
        exact Nat.not_lt_zero _
      have hp' : ¬ p < .of next'.kind := by
        rcases hnext' with hk | hk <;> rw [hk] <;> exact Nat.not_lt_zero _
      rw [if_neg hp, if_neg hp']
      exact .pure (fun _ _ h => h)

end

end

theorem starves_readExpression {n : Nat} (hn : 0 < n) (p : Precedence) :
    (readExpression n p).Starves :=
  (acceptsUpTo_readExpression n p [] hn).mono (fun _ _ h => Nat.not_lt_zero _ h.1)

theorem concurUpTo_readExpression (S : Sequel) {b n : Nat} (hn : b < n) :
    ConcurUpTo S b (readExpression n) := by
  induction b generalizing n with
  | zero =>
    intro o p
    refine .of_on (starves_readExpression hn p) (fun t => ?_)
    rintro c d _ _ ⟨_, hhead⟩ hb
    rw [List.length_eq_zero_iff.mp (Nat.le_zero.mp hb)] at hhead
    contradiction
  | succ b ih =>
    obtain ⟨n, rfl⟩ : ∃ k, n = k + 1 := ⟨n - 1, by omega⟩
    have he : ConcurUpTo S b (readExpression n) := ih (by omega)
    have hstarve := starves_readExpression (n := n) (by omega)
    intro o p
    refine .of_on (starves_readExpression (Nat.succ_pos n) p) (fun t => ?_)
    refine .within (.current_bind (.bind (concur_operand hstarve he (by omega)) (fun first => ?_)))
    exact concur_operatorsAbove hstarve he

/-- A text in which nothing is found wrong, with more behind it: its statements are read first, and
reading goes on at the sequel as if it began there. -/
theorem readTokens_resumes {source : String} {p : Program} (h : parse source = .ok p)
    {ts : List Token} {finish : Token} (hts : tokens source = ts ++ [finish]) {S : Sequel}
    {left : List Token} (hleft : S.Behind 0 ts left) :
    ∃ past rounds, past.filterMap ReadingStep.diagnostic? = [] ∧ S.tokens.length ≤ rounds ∧
      readTokens (ts ++ left) S.finish 0 =
        let (statements, c) := statementsUntil endsProgram
          (readExpression ((ts ++ left).length + 1)) rounds ⟨S.tokens, S.finish, 0, past⟩
        (statements.map (p.statements ++ ·), c) := by
  obtain ⟨hquiet, rfl⟩ := Reading.of_program?_eq_ok h
  obtain ⟨T, c', hall, hnil, _, hsteps, _, hread⟩ := exists_tape_read source
  obtain ⟨ts', finish', hts', hsound, _⟩ := Reading.read_eq source
  obtain ⟨rfl, hfinish⟩ := List.append_inj' (hts.symm.trans hts') rfl
  obtain ⟨htokens, hfinish'⟩ := List.append_inj' (hall.symm.trans hts) rfl
  obtain rfl : finish' = finish := (List.singleton_inj.mp hfinish).symm
  have hlen : ts.length < (ts ++ left).length + 1 := by
    rw [List.length_append]
    omega
  -- Without the sequel the statements are read up to the end, and nothing is raised.
  have hfirst := hread ((ts ++ left).length + 1) ((ts ++ left).length + 1) (by rwa [htokens])
    (by rw [htokens]; exact Nat.le_of_lt hlen)
  rw [Tape.first, htokens, List.singleton_inj.mp hfinish'] at hfirst
  have hraised : c'.raised = [] := by
    rw [Reading.raised, hsteps, List.filterMap_reverse, List.reverse_eq_nil_iff] at hquiet
    exact hquiet
  obtain ⟨ss, c'', d', rounds, hresumes⟩ := exists_resumes (S := S) (o := 0)
    (c := ⟨ts, finish', 0, []⟩) (d := ⟨ts ++ left, S.finish, 0, []⟩)
    (concurUpTo_readExpression S hlen) rfl hsound rfl ⟨left, rfl, hleft⟩ (Nat.le_refl _)
    (Nat.le_of_lt hlen) (by rw [hfirst]; exact hraised)
  -- The same statements are read before the sequel, at which the second cursor is left.
  obtain ⟨hss, rfl⟩ := Prod.mk.inj (hresumes.first.symm.trans hfirst)
  obtain rfl := Option.some.inj hss
  obtain ⟨left', hleft', hbehind⟩ := hresumes.level
  rw [hnil] at hleft' hbehind
  have hd' : d' = ⟨S.tokens, S.finish, 0, d'.trail⟩ := by
    obtain ⟨pending, finish, depth, trail⟩ := d'
    obtain rfl : pending = S.tokens := hleft'.trans hbehind.eq_tokens
    obtain rfl : finish = S.finish := hresumes.finish
    obtain rfl : depth = 0 := hresumes.depth
    rfl
  refine ⟨d'.trail, rounds, hresumes.raised, ?_, ?_⟩
  · have henough := hresumes.enough (Nat.le_succ _)
    rwa [hd'] at henough
  · rw [readTokens, hresumes.second, ← hd']

end Treewalk
