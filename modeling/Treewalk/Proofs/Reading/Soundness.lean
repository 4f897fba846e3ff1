import Treewalk.Proofs.Grammar.Spelling
import Treewalk.Proofs.Reading.Outcomes

namespace Treewalk

open Reader

theorem eq_sign_cons {ws : List Terminal} {k : TokenKind} (h : leadingKind ws = k)
    (hk : k.spelling.isEmpty = false) : ws = .sign k :: ws.tail := by
  cases ws with
  | nil =>
    subst h
    contradiction
  | cons w ws =>
    cases w with
    | sign k' => exact congrArg (fun k => Terminal.sign k :: ws) h
    | name _ | number _ | quoted _ =>
      subst h
      contradiction

theorem Token.terminal_of_kind {t : Token} {k : TokenKind} (h : t.kind = k)
    (hk : k.spelling.isEmpty = false) : t.terminal = .sign k := by
  have hlead : leadingKind [t.terminal] = k := by simpa using h
  simpa using eq_sign_cons hlead hk

/-- What is known of an expression without parentheses that a reader at the precedence leaves before
a token of the kind. -/
def Expression.LeftBefore (p : Precedence) (k : TokenKind) : Expression → Prop
  | .binary o _ _ => p < o.precedence ∧ ¬ o.precedence < .of k
  | .unary .. => ¬ Precedence.unary < .of k
  | _ => True

/-- The terminals up to `rest` spell the expression at every position that admits what a reader at
the precedence leaves there. -/
def Stands (p : Precedence) (e : Expression) (ws rest : List Terminal) : Prop :=
  ∀ pos : Position, (e.LeftBefore p (leadingKind rest) → pos.Admits e) → Spells .loose pos e ws rest

section
variable {p : Precedence} {e : Expression} {ws rest : List Terminal}

theorem Stands.bare (h : SpellsBare .loose e ws rest) (hleft : e.LeftBefore p (leadingKind rest)) :
    Stands p e ws rest := fun _ hadm => .bare (hadm hleft) h

theorem Stands.whole (h : Stands p e ws rest) : Spells .loose .whole e ws rest := by
  refine h .whole (fun _ => ?_)
  cases e <;> trivial

theorem Stands.leftOf {o : BinaryOperator} (h : Stands p e ws rest)
    (hk : leadingKind rest = o.kind) : Spells .loose (.leftOf o) e ws rest := by
  refine h (.leftOf o) (fun hleft => ?_)
  cases e with
  | binary q _ _ =>
    rw [hk] at hleft
    exact hleft.2
  | _ => trivial

theorem Stands.rightOf {o : BinaryOperator} (h : Stands o.precedence e ws rest) :
    Spells .loose (.rightOf o) e ws rest := by
  refine h (.rightOf o) (fun hleft => ?_)
  cases e with
  | binary q _ _ => exact hleft.1
  | _ => trivial

theorem Stands.operand (h : Stands .unary e ws rest) : Spells .loose .operand e ws rest := by
  refine h .operand (fun hleft => ?_)
  cases e with
  | binary q _ _ => exact absurd hleft.1 (Nat.lt_asymm q.precedence_lt_unary)
  | _ => trivial

theorem Stands.applied (h : Stands p e ws rest) (hk : Precedence.unary < .of (leadingKind rest)) :
    Spells .loose .applied e ws rest := by
  refine h .applied (fun hleft => ?_)
  cases e with
  | binary q _ _ => exact absurd (Nat.lt_trans q.precedence_lt_unary hk) hleft.2
  | unary _ _ => exact absurd hk hleft
  | _ => trivial

end

/-- On every short list of terminals the action, if it raises nothing, stops on the last terminal of
something that is spelled there. -/
def Reader.Spots {α : Type} (p : Reader α) (n : Nat)
    (spelled : α → List Terminal → List Terminal → Prop) : Prop :=
  ∀ ws, ws.length < n →
    Accepts p ws (fun a ws' => ws'.tail.length < ws.length ∧ spelled a ws ws'.tail)

section
variable {α : Type} {item : Reader α} {n : Nat} {close : TokenKind}
  {spelled : α → List Terminal → List Terminal → Prop}

theorem Reader.Spots.itemsAfterCommas (hitem : item.Spots n spelled) {rounds : Nat} {a : α}
    {start ws : List Terminal} (ha : spelled a start ws.tail) (hn : ws.tail.length < n) :
    Accepts (itemsAfterCommas item rounds) ws (fun as ws' =>
      ws'.tail.length ≤ ws.tail.length ∧ Separated spelled (a :: as) start ws'.tail) := by
  induction rounds generalizing a start ws with
  | zero => exact .pure ⟨Nat.le_refl _, .one ha⟩
  | succ rounds ih =>
    refine .upcoming_bind (fun t ht => ?_)
    split
    · next hk =>
      have hcomma : ws.tail = .sign .comma :: ws.tail.tail := eq_sign_cons (ht ▸ hk) rfl
      rw [hcomma] at ha hn
      simp only [List.length_cons] at hn
      refine .advance_bind (.advance_bind (.bind (hitem _ (by omega)) (fun b mid _ hb => ?_)))
      refine .bind (ih hb.2 (by omega)) (fun bs ws' _ hbs => .pure ⟨?_, .more ha hbs.2⟩)
      rw [hcomma, List.length_cons]
      omega
    · exact .pure ⟨Nat.le_refl _, .one ha⟩

theorem Reader.Spots.delimited (hitem : item.Spots n spelled)
    (hclose : close.spelling.isEmpty = false) {w : Terminal} {ws : List Terminal}
    (hn : ws.length < n) {rounds : Nat} :
    Accepts (delimited close item rounds) (w :: ws) (fun as ws' =>
      ws'.tail.length < ws.length ∧ Listed spelled as ws (.sign close :: ws'.tail)) := by
  refine .within (.upcoming_bind (fun t ht => ?_))
  split
  · next hk =>
    have hws : ws = .sign close :: ws.tail := eq_sign_cons (ht ▸ hk) hclose
    refine .advance_bind (.pure ⟨?_, ?_⟩)
    · rw [hws]
      simp
    · show Listed spelled [] ws (.sign close :: ws.tail)
      rw [← hws]
      exact .none
  · refine .advance_bind (.bind (hitem ws hn) (fun a mid _ ha => ?_))
    refine .bind (hitem.itemsAfterCommas ha.2 (by omega)) (fun as ws' _ has => ?_)
    refine .expect_bind (fun hk => ?_)
    have hws' := eq_sign_cons hk hclose
    refine .pure ⟨?_, ?_⟩
    · rw [hws', List.length_cons] at has
      omega
    · rw [← hws']
      exact .some has.2

end

theorem spots_parameter (n : Nat) : parameter.Spots n SpellsName := by
  intro ws _
  refine .current_bind (fun t ht => ?_)
  split
  · next hk =>
    rcases ht with ⟨hend, _⟩ | ⟨_, rest, rfl⟩
    · rw [hend] at hk
      contradiction
    · have hterminal : t.terminal = .name t.literal := by simp [Token.terminal, hk]
      exact .pure ⟨by simp, hterminal ▸ .name⟩
  · exact .raise

/-- If the reader raises nothing, it stops on the last terminal of an expression that stands there,
and before a token that does not bind tighter than given. -/
def AcceptsUpTo (n : Nat) (expression : ExpressionReader) : Prop :=
  ∀ p ws, ws.length < n → Accepts (expression p) ws (fun e ws' =>
    ws'.tail.length < ws.length ∧ Stands p e ws ws'.tail ∧ ¬ p < .of (leadingKind ws'.tail))

/-- If the rule raises nothing on `ws`, it stops on the last terminal of an expression that stands
at `start`. -/
def Reader.LeavesStanding (rule : Reader Expression) (p : Precedence) (start ws : List Terminal) :
    Prop :=
  Accepts rule ws (fun e ws' => ws'.tail.length < ws.length ∧ Stands p e start ws'.tail)

/-- If the action raises nothing on `mid`, it stops on the last terminal of a statement that starts
at `ws`. -/
def Reader.FinishesStatement (p : Reader Statement) (ws mid : List Terminal) : Prop :=
  Accepts p mid (fun s ws' => ws'.tail.length < ws.length ∧
    ∃ ws'', SpellsStatement .loose s ws ws'' ∧ StatementEnd .loose ws'' ws'.tail)

section
variable {n : Nat} {expression : ExpressionReader} (hrd : AcceptsUpTo n expression)
include hrd

theorem AcceptsUpTo.spots : (expression .lowest).Spots n (Spells .loose .whole) := by
  intro ws hn
  exact (hrd .lowest ws hn).mono (fun e ws' h => ⟨h.1, h.2.1.whole⟩)

theorem spots_hashPair : (hashPair expression).Spots n (SpellsPair .loose) := by
  intro ws hn
  refine .bind (hrd.spots ws hn) (fun key ws' _ hkey => .expect_bind (fun hk => ?_))
  rw [eq_sign_cons hk rfl, List.length_cons] at hkey
  refine .advance_bind (.bind (hrd.spots _ (by omega)) (fun value ws'' _ hvalue => ?_))
  exact .pure ⟨by omega, .pair hkey.2 hvalue.2⟩

omit hrd in
/-- The semicolon behind a statement, if there is one. -/
theorem accepts_skip {mid ws : List Terminal} {s : Statement} (hlt : mid.tail.length < ws.length)
    (hs : SpellsStatement .loose s ws mid.tail) :
    (skip .semicolon >>= fun _ => pure s).FinishesStatement ws mid := by
  refine .skip_bind (fun hk => ?_) (fun _ => .pure ⟨hlt, _, hs, .omitted rfl⟩)
  rw [eq_sign_cons hk rfl] at hs hlt ⊢
  exact .pure ⟨Nat.lt_trans (by simp) hlt, _, hs, .semicolon⟩

theorem accepts_letStatement {ws : List Terminal} (hn : ws.length < n)
    (hlet : leadingKind ws = .letWord) :
    (letStatement expression).FinishesStatement ws ws := by
  obtain ⟨ws, rfl⟩ : ∃ rest, ws = .sign .letWord :: rest := ⟨_, eq_sign_cons hlet rfl⟩
  rw [List.length_cons] at hn
  refine .within (.expect_bind (fun hname => .current_bind (fun t ht => ?_)))
  rw [List.tail_cons] at hname ht ⊢
  rcases ht with ⟨_, rfl⟩ | ⟨_, rest, rfl⟩
  · contradiction
  · have hk : t.kind = .identifier := by simpa using hname
    have hterminal : t.terminal = .name t.literal := by simp [Token.terminal, hk]
    rw [hterminal] at hn ⊢
    refine .expect_bind (fun hassign => .advance_bind ?_)
    rw [List.tail_cons] at hassign ⊢
    rw [eq_sign_cons hassign rfl] at hn ⊢
    simp only [List.length_cons, List.tail_cons] at hn ⊢
    refine .bind (hrd.spots _ (by omega)) (fun e ws' _ he => ?_)
    exact accepts_skip (Nat.lt_of_lt_of_le he.1 (by simp only [List.length_cons]; omega))
      (.binding he.2)

theorem accepts_returnStatement {ws : List Terminal} (hn : ws.length < n)
    (hreturn : leadingKind ws = .returnWord) :
    (returnStatement expression).FinishesStatement ws ws := by
  obtain ⟨ws, rfl⟩ : ∃ rest, ws = .sign .returnWord :: rest := ⟨_, eq_sign_cons hreturn rfl⟩
  rw [List.length_cons] at hn
  refine .within (.advance_bind (.bind (hrd.spots ws (by omega)) (fun e ws' _ he => ?_)))
  exact accepts_skip (Nat.lt_succ_of_lt he.1) (.return he.2)

theorem accepts_statement {ws : List Terminal} (hn : ws.length < n) :
    (statement expression).FinishesStatement ws ws := by
  refine .within (.current_bind (fun t ht => ?_))
  have hlead : leadingKind ws = t.kind := by
    rcases ht with ⟨hk, rfl⟩ | ⟨_, rest, rfl⟩
    · exact hk.symm
    · simp
  split
  · next hk => exact accepts_letStatement hrd hn (hlead.trans hk)
  · next hk => exact accepts_returnStatement hrd hn (hlead.trans hk)
  · exact .within (.bind (hrd.spots ws hn) (fun e ws' _ he => accepts_skip he.1 (.expression he.2)))

theorem accepts_statementsUntil (stops : TokenKind → Bool) (hend : stops .endOfInput = true)
    {ws : List Terminal} (hn : ws.length < n) {rounds : Nat} (hrounds : ws.length ≤ rounds) :
    Accepts (statementsUntil stops expression rounds) ws (fun ss ws' => ws'.length ≤ ws.length ∧
      SpellsStatements .loose ss ws ws' ∧ stops (leadingKind ws') = true ∧
      (leadingKind ws' = .endOfInput → ws' = [])) := by
  induction rounds generalizing ws with
  | zero =>
    obtain rfl := List.length_eq_zero_iff.mp (Nat.le_zero.mp hrounds)
    exact .pure ⟨Nat.le_refl _, .nil, hend, fun _ => rfl⟩
  | succ rounds ih =>
    refine .current_bind (fun t ht => ?_)
    split
    · next hstop =>
      rcases ht with ⟨hk, rfl⟩ | ⟨hsound, rest, rfl⟩
      · exact .pure ⟨Nat.le_refl _, .nil, hend, fun _ => rfl⟩
      · refine .pure ⟨Nat.le_refl _, .nil, by simpa using hstop, fun hk => ?_⟩
        exact absurd (by simpa using hk) hsound.kind_ne_endOfInput
    · refine .bind (.orNone (accepts_statement hrd hn)) (fun r mid _ hr => ?_)
      obtain ⟨s, rfl, hlt, ws'', hs, hsend⟩ := hr
      refine .advance_bind (.bind (ih (by omega) (by omega)) (fun ss ws' _ hss => ?_))
      exact .pure ⟨by omega, .cons hs hsend hss.2.1, hss.2.2⟩

theorem accepts_block {ws : List Terminal} (hbrace : leadingKind ws = .leftBrace)
    (hn : ws.length ≤ n) :
    Accepts (block expression n) ws (fun body ws' => ws'.tail.length < ws.length ∧
      SpellsBlock .loose body ws ws'.tail) := by
  obtain ⟨ws, rfl⟩ : ∃ rest, ws = .sign .leftBrace :: rest := ⟨_, eq_sign_cons hbrace rfl⟩
  rw [List.length_cons] at hn
  refine .within (.advance_bind ?_)
  refine (accepts_statementsUntil hrd _ rfl hn (Nat.le_of_succ_le hn)).mono ?_
  intro body ws' h
  obtain ⟨hle, hbody, hstop, hend⟩ := h
  have htail : ws'.tail.length ≤ ws'.length := by simp
  refine ⟨by rw [List.length_cons]; omega, ?_⟩
  simp only [endsBlock, Bool.or_eq_true, beq_iff_eq] at hstop
  rcases hstop with hclose | heof
  · rw [eq_sign_cons hclose rfl] at hbody
    exact .closed hbody
  · obtain rfl := hend heof
    exact .unclosed rfl hbody

theorem accepts_unary {o : UnaryOperator} {ws : List Terminal} (hn : ws.length < n)
    {p : Precedence} :
    (unaryExpression expression o).LeavesStanding p (.sign o.kind :: ws) (.sign o.kind :: ws) := by
  refine .within (.advance_bind (.bind (hrd .unary ws hn) (fun e ws' _ he => .pure ?_)))
  obtain ⟨hlt, he, hnext⟩ := he
  exact ⟨Nat.lt_succ_of_lt hlt, .bare (.unary he.operand) hnext⟩

theorem accepts_grouped {ws : List Terminal} (hn : ws.length < n) {p : Precedence} :
    (groupedExpression expression).LeavesStanding p (.sign .leftParen :: ws)
      (.sign .leftParen :: ws) := by
  refine .within (.advance_bind (.bind (hrd.spots ws hn) (fun e ws' _ he => .expect_bind ?_)))
  intro hk
  rw [eq_sign_cons hk rfl, List.length_cons] at he
  exact .pure ⟨by rw [List.length_cons]; omega, fun _ _ => .enclosed he.2⟩

theorem accepts_conditional {ws : List Terminal} (hn : ws.length < n) {p : Precedence} :
    (conditional expression n).LeavesStanding p (.sign .ifWord :: ws) (.sign .ifWord :: ws) := by
  refine .within (.expect_bind (fun hparen => .advance_bind ?_))
  obtain ⟨ws, rfl⟩ : ∃ rest, ws = .sign .leftParen :: rest := ⟨_, eq_sign_cons hparen rfl⟩
  rw [List.length_cons] at hn
  refine .bind (hrd.spots ws (by omega)) (fun c ws₁ _ hc => .expect_bind (fun hclose => ?_))
  rw [eq_sign_cons hclose rfl, List.length_cons] at hc
  refine .expect_bind (fun hbrace => ?_)
  refine .bind (accepts_block hrd hbrace (by omega)) (fun body ws₂ _ hbody => ?_)
  refine .upcoming_bind (fun t ht => ?_)
  split
  · next hk =>
    have helse : leadingKind ws₂.tail = .elseWord := ht ▸ hk
    rw [eq_sign_cons helse rfl, List.length_cons] at hbody
    refine .advance_bind (.expect_bind (fun hbrace' => ?_))
    refine .bind (accepts_block hrd hbrace' (by omega)) (fun other ws₃ _ hother => ?_)
    refine .pure ⟨?_, .bare (.alternative hc.2 hbody.2 hother.2) trivial⟩
    simp only [List.length_cons]
    omega
  · refine .pure ⟨?_, .bare (.conditional hc.2 hbody.2) trivial⟩
    simp only [List.length_cons]
    omega

theorem accepts_function {ws : List Terminal} (hn : ws.length < n) {p : Precedence} :
    (functionLiteral expression n).LeavesStanding p (.sign .functionWord :: ws)
      (.sign .functionWord :: ws) := by
  refine .within (.expect_bind (fun hparen => ?_))
  obtain ⟨ws, rfl⟩ : ∃ rest, ws = .sign .leftParen :: rest := ⟨_, eq_sign_cons hparen rfl⟩
  rw [List.length_cons] at hn
  refine .bind ((spots_parameter n).delimited rfl (by omega)) (fun ps ws₁ _ hps => ?_)
  refine .expect_bind (fun hbrace => ?_)
  refine .bind (accepts_block hrd hbrace (by omega)) (fun body ws₂ _ hbody => ?_)
  refine .pure ⟨?_, .bare (.function hps.2 hbody.2) trivial⟩
  simp only [List.length_cons]
  omega

theorem accepts_array {ws : List Terminal} (hn : ws.length < n) {p : Precedence} :
    (arrayLiteral expression n).LeavesStanding p (.sign .leftBracket :: ws)
      (.sign .leftBracket :: ws) := by
  refine .within (.bind (hrd.spots.delimited rfl hn) (fun es ws' _ hes => .pure ?_))
  exact ⟨Nat.lt_succ_of_lt hes.1, .bare (.array hes.2) trivial⟩

theorem accepts_hash {ws : List Terminal} (hn : ws.length < n) {p : Precedence} :
    (hashLiteral expression n).LeavesStanding p (.sign .leftBrace :: ws)
      (.sign .leftBrace :: ws) := by
  have hitem := spots_hashPair hrd
  refine .within (.bind (hitem.delimited rfl hn) (fun ps ws' _ hps => .pure ?_))
  exact ⟨Nat.lt_succ_of_lt hps.1, .bare (.hash hps.2) trivial⟩

omit hrd in
theorem accepts_integerLiteral {t : Token} (ht : t.Sound) (hk : t.kind = .integer)
    {rest : List Terminal} {p : Precedence} :
    (integerLiteral t).LeavesStanding p (t.terminal :: rest) (t.terminal :: rest) := by
  have hterminal : t.terminal = .number t.literal := by simp [Token.terminal, hk]
  by_cases hmax : numeralValue t.literal ≤ 9223372036854775807
  · have hvalue := Int64.toInt_ofNat_of_lt (Nat.lt_succ_of_le hmax)
    rw [integerLiteral_of_value hvalue, hterminal]
    exact .pure ⟨Nat.lt_succ_self _, .bare (.integer (ht.isNumeral hk) hvalue) trivial⟩
  · rw [integerLiteral_of_lt (Nat.lt_of_not_le hmax)]
    exact .raise

theorem accepts_operand {t : Token} (ht : t.Sound) {rest : List Terminal} (hn : rest.length < n)
    {p : Precedence} :
    (operand expression n t).LeavesStanding p (t.terminal :: rest) (t.terminal :: rest) := by
  unfold operand
  split
  · next hk =>
    have hterminal : t.terminal = .name t.literal := by simp [Token.terminal, hk]
    exact hterminal ▸ .pure ⟨Nat.lt_succ_self _, .bare .identifier trivial⟩
  · next hk => exact accepts_integerLiteral ht hk
  · next hk =>
    have hterminal : t.terminal = .quoted t.literal := by simp [Token.terminal, hk]
    exact hterminal ▸ .pure ⟨Nat.lt_succ_self _, .bare .string trivial⟩
  · next hk =>
    rw [Token.terminal_of_kind hk rfl]
    exact .pure ⟨Nat.lt_succ_self _, .bare .truth trivial⟩
  · next hk =>
    rw [Token.terminal_of_kind hk rfl]
    exact .pure ⟨Nat.lt_succ_self _, .bare .falsehood trivial⟩
  · next hk =>
    rw [Token.terminal_of_kind hk rfl]
    exact accepts_unary hrd hn
  · next hk =>
    rw [Token.terminal_of_kind hk rfl]
    exact accepts_unary hrd hn
  · next hk =>
    rw [Token.terminal_of_kind hk rfl]
    exact accepts_grouped hrd hn
  · next hk =>
    rw [Token.terminal_of_kind hk rfl]
    exact accepts_conditional hrd hn
  · next hk =>
    rw [Token.terminal_of_kind hk rfl]
    exact accepts_function hrd hn
  · next hk =>
    rw [Token.terminal_of_kind hk rfl]
    exact accepts_array hrd hn
  · next hk =>
    rw [Token.terminal_of_kind hk rfl]
    exact accepts_hash hrd hn
  · exact .raise

theorem accepts_binary {o : BinaryOperator} {a : Expression} {start ws : List Terminal}
    {p : Precedence} (hn : ws.length < n) (hp : p < o.precedence)
    (ha : Stands p a start (.sign o.kind :: ws)) :
    (binaryExpression expression o a).LeavesStanding p start (.sign o.kind :: ws) := by
  refine .within (.current_bind (fun t ht => .advance_bind ?_))
  have hk : t.kind = o.kind := by
    rcases ht with ⟨_, hnil⟩ | ⟨_, rest, hcons⟩
    · contradiction
    · rw [List.cons.injEq] at hcons
      rw [← t.kind_terminal, ← hcons.1]
      rfl
  rw [hk]
  refine .bind (hrd o.precedence ws hn) (fun b ws' _ hb => .pure ?_)
  obtain ⟨hlt, hb, hnext⟩ := hb
  exact ⟨Nat.lt_succ_of_lt hlt, .bare (.binary (ha.leftOf rfl) hb.rightOf) ⟨hp, hnext⟩⟩

theorem accepts_call {f : Expression} {start ws : List Terminal} {p : Precedence}
    (hn : ws.length < n) (hf : Stands p f start (.sign .leftParen :: ws)) :
    (callExpression expression n f).LeavesStanding p start (.sign .leftParen :: ws) := by
  refine .within (.bind (hrd.spots.delimited rfl hn) (fun es ws' _ hes => .pure ?_))
  have hcallee := hf.applied (Nat.lt_succ_self _)
  exact ⟨Nat.lt_succ_of_lt hes.1, .bare (.call hcallee hes.2) trivial⟩

theorem accepts_index {c : Expression} {start ws : List Terminal} {p : Precedence}
    (hn : ws.length < n) (hc : Stands p c start (.sign .leftBracket :: ws)) :
    (indexExpression expression c).LeavesStanding p start (.sign .leftBracket :: ws) := by
  refine .within (.advance_bind (.bind (hrd.spots ws hn) (fun i ws' _ hi => .expect_bind ?_)))
  intro hk
  rw [eq_sign_cons hk rfl, List.length_cons] at hi
  have hcollection := hc.applied (Nat.lt_succ_of_lt (Nat.lt_succ_self _))
  refine .pure ⟨?_, .bare (.index hcollection hi.2) trivial⟩
  rw [List.length_cons]
  omega

theorem accepts_goOn {a : Expression} {k : TokenKind} {goOn : Expression → Reader Expression}
    {start ws : List Terminal} {p : Precedence} (hn : ws.length < n) (hp : p < .of k)
    (hgo : continuation? expression n k = some goOn) (ha : Stands p a start (.sign k :: ws)) :
    (goOn a).LeavesStanding p start (.sign k :: ws) := by
  rcases Precedence.of_cases hp with rfl | rfl | ⟨o, rfl⟩
  · obtain rfl := Option.some.inj hgo
    exact accepts_call hrd hn ha
  · obtain rfl := Option.some.inj hgo
    exact accepts_index hrd hn ha
  · rw [o.continuation?_kind] at hgo
    obtain rfl := Option.some.inj hgo
    exact accepts_binary hrd hn hp ha

/-- The invariant of the loop over the operators is that what has been read so far stands. -/
theorem accepts_operatorsAbove {p : Precedence} {a : Expression} {start ws : List Terminal}
    {round : Nat} (hround : ws.tail.length ≤ round) (hn : ws.tail.length ≤ n)
    (hlt : ws.tail.length < start.length) (ha : Stands p a start ws.tail) :
    Accepts (operatorsAbove p expression n round a) ws (fun e ws' =>
      ws'.tail.length < start.length ∧ Stands p e start ws'.tail ∧
        ¬ p < .of (leadingKind ws'.tail)) := by
  induction round generalizing a ws with
  | zero =>
    refine .pure ⟨hlt, ha, ?_⟩
    rw [List.length_eq_zero_iff.mp (Nat.le_zero.mp hround)]
    exact Nat.not_lt_zero _
  | succ round ih =>
    refine .upcoming_bind (fun t ht => ?_)
    split
    · next hp =>
      split
      · next hnone => exact absurd hnone (continuation?_ne_none hp)
      · next goOn hgo =>
        have hws := eq_sign_cons ht.symm (Precedence.spelling_isEmpty hp)
        refine .advance_bind ?_
        rw [hws] at hround hn hlt ha ⊢
        rw [List.length_cons] at hround hn hlt
        refine .bind (accepts_goOn hrd (by omega) hp hgo ha) (fun e ws' _ he => ?_)
        obtain ⟨hlt', he⟩ := he
        rw [List.length_cons] at hlt'
        exact ih (by omega) (by omega) (by omega) he
    · next hp => exact .pure ⟨hlt, ha, ht ▸ hp⟩

end

theorem acceptsUpTo_readExpression (n : Nat) : AcceptsUpTo n (readExpression n) := by
  induction n with
  | zero =>
    intro p ws hn
    contradiction
  | succ n ih =>
    intro p ws hn
    refine .within (.current_bind (fun t ht => ?_))
    rcases ht with ⟨hk, rfl⟩ | ⟨hsound, rest, rfl⟩
    · have hraise : operand (readExpression n) n t = raise (.noRule .endOfInput t.span) := by
        simp [operand, hk]
      rw [hraise]
      exact .bind (Q := fun _ _ => False) .raise (fun _ _ _ h => h.elim)
    · rw [List.length_cons] at hn
      have hrest := Nat.lt_of_succ_lt_succ hn
      refine .bind (accepts_operand ih hsound hrest (p := p)) (fun first ws' _ hfirst => ?_)
      obtain ⟨hlt, hfirst⟩ := hfirst
      have hle : ws'.tail.length ≤ n := by
        rw [List.length_cons] at hlt
        omega
      exact accepts_operatorsAbove ih hle hle hlt hfirst

/-- The tokens of a text in which nothing is found wrong spell the program that is read. -/
theorem spelled_of_parse {source : String} {p : Program} (h : parse source = .ok p) :
    ∃ ts finish, tokens source = ts ++ [finish] ∧ finish.kind = .endOfInput ∧
      p.Spelled .loose (ts.map Token.terminal) := by
  obtain ⟨ts, finish, hts, hsound, hprogram, hraised⟩ := Reading.read_eq source
  obtain ⟨hquiet, rfl⟩ := Reading.of_program?_eq_ok h
  refine ⟨ts, finish, hts, hsound.finish, ?_⟩
  rw [hquiet, List.nil_eq, List.reverse_eq_nil_iff] at hraised
  have hlen : (ts.map Token.terminal).length < ts.length + 1 := by simp
  have haccept := accepts_statementsUntil (acceptsUpTo_readExpression (ts.length + 1)) endsProgram
    rfl hlen (Nat.le_of_lt hlen)
  obtain ⟨ss, hss, _, hspelled, hstop, hend⟩ := haccept ⟨ts, finish, 0, []⟩ hsound rfl hraised
  have hread : (readTokens ts finish 0).1 = some ss := hss
  rw [hprogram, hread]
  rw [hend (eq_of_beq hstop)] at hspelled
  exact hspelled

theorem spelled_of_parse_unclosed :
    let p : Program := ⟨[.expression (.function ["x"]
      [.expression (.identifier "x"), .return (.unary .negate (.identifier "x"))])]⟩
    parse "fn(x) \x7b (x) return -x" = .ok p ∧
      ∃ ts finish, tokens "fn(x) \x7b (x) return -x" = ts ++ [finish] ∧
        finish.kind = .endOfInput ∧ p.Spelled .loose (ts.map Token.terminal) :=
  ⟨rfl, spelled_of_parse rfl⟩

end Treewalk
