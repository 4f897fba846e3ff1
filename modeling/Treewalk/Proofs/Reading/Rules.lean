import Treewalk.Proofs.Grammar.Layout
import Treewalk.Proofs.Grammar.Printable
import Treewalk.Proofs.Reading.Outcomes
import Treewalk.Reading.Basic

namespace Treewalk

open Reader

theorem Token.eq_of_terminal_name {t : Token} {s : String} (h : t.terminal = .name s) :
    t.kind = .identifier ∧ t.literal = s := by
  have hk : t.kind = .identifier := by rw [← t.kind_terminal, h]; rfl
  simp only [terminal, hk, Terminal.name.injEq] at h
  exact ⟨hk, h⟩

theorem Token.eq_of_terminal_number {t : Token} {s : String} (h : t.terminal = .number s) :
    t.kind = .integer ∧ t.literal = s := by
  have hk : t.kind = .integer := by rw [← t.kind_terminal, h]; rfl
  simp only [terminal, hk, Terminal.number.injEq] at h
  exact ⟨hk, h⟩

theorem Token.eq_of_terminal_quoted {t : Token} {s : String} (h : t.terminal = .quoted s) :
    t.kind = .string ∧ t.literal = s := by
  have hk : t.kind = .string := by rw [← t.kind_terminal, h]; rfl
  simp only [terminal, hk, Terminal.quoted.injEq] at h
  exact ⟨hk, h⟩

theorem Token.kind_of_terminal_sign {t : Token} {k : TokenKind} (h : t.terminal = .sign k) :
    t.kind = k := by
  rw [← t.kind_terminal, h]
  rfl

def startsExpression : TokenKind → Bool
  | .identifier | .integer | .string | .trueWord | .falseWord | .bang | .minus | .leftParen
  | .ifWord | .functionWord | .leftBracket | .leftBrace => true
  | _ => false

mutual

theorem Spells.starts {m : Manner} : ∀ {p : Position} {e : Expression} {ws rest : List Terminal},
    Spells m p e ws rest → startsExpression (leadingKind ws) = true
  | _, _, _, _, .bare _ h => h.starts
  | _, _, _, _, .enclosed _ => rfl

theorem SpellsBare.starts {m : Manner} : ∀ {e : Expression} {ws rest : List Terminal},
    SpellsBare m e ws rest → startsExpression (leadingKind ws) = true
  | _, _, _, .identifier | _, _, _, .integer _ _ | _, _, _, .truth | _, _, _, .falsehood
  | _, _, _, .string | _, _, _, .conditional _ _ | _, _, _, .alternative _ _ _
  | _, _, _, .function _ _ | _, _, _, .array _ | _, _, _, .hash _ => rfl
  | _, _, _, @SpellsBare.unary _ o _ _ _ _ => by cases o <;> rfl
  | _, _, _, .binary ha _ => ha.starts
  | _, _, _, .call hf _ => hf.starts
  | _, _, _, .index hc _ => hc.starts

end

theorem leadingKind_ne_of_starts {ws : List Terminal} {k : TokenKind}
    (h : startsExpression (leadingKind ws) = true) (hk : startsExpression k = false) :
    leadingKind ws ≠ k := by
  intro heq
  rw [heq, hk] at h
  contradiction

theorem SpellsStatement.leadingKind_ne {s : Statement} {ws rest : List Terminal} {k : TokenKind}
    (h : SpellsStatement .tidy s ws rest) (hk : startsExpression k = false) (hl : k ≠ .letWord)
    (hr : k ≠ .returnWord) : leadingKind ws ≠ k := by
  cases h with
  | binding _ => exact hl.symm
  | «return» _ => exact hr.symm
  | expression he => exact leadingKind_ne_of_starts he.starts hk

/-- The action makes `a` of the terminals up to `rest` and stands on the last of them. -/
def Reader.Reads {α : Type} (p : Reader α) (ws : List Terminal) (a : α) (rest : List Terminal) :
    Prop :=
  rest.length < ws.length ∧ ∃ last, Takes p ws a (last :: rest)

/-- Whether an expression that is read at the precedence stops before a token of the kind. -/
def Stops (p : Precedence) (k : TokenKind) : Prop := ¬ p < .of k ∧ k ≠ .elseWord

instance (p : Precedence) (k : TokenKind) : Decidable (Stops p k) :=
  inferInstanceAs (Decidable (_ ∧ _))

theorem Stops.sign {k : TokenKind} {rest : List Terminal} (h : Stops .lowest k) :
    Stops .lowest (leadingKind (.sign k :: rest)) := h

theorem StatementEnd.stops {ws rest : List Terminal} (h : StatementEnd .tidy ws rest) :
    Stops .lowest (leadingKind ws) := by
  cases h with
  | semicolon => exact .sign (by decide)
  | last h =>
    rcases h with rfl | hk
    · decide
    · rw [hk]
      decide
  | omitted h => contradiction

theorem StatementEnd.takes_skip {ws rest : List Terminal} (h : StatementEnd .tidy ws rest)
    (w : Terminal) : rest.length ≤ ws.length ∧
      ∃ last, Takes (skip .semicolon) (w :: ws) () (last :: rest) := by
  cases h with
  | semicolon => exact ⟨by simp, _, Takes.skip rfl⟩
  | last h =>
    refine ⟨Nat.le_refl _, w, Takes.noSkip ?_⟩
    rcases h with rfl | hk
    · simp
    · simp [hk]
  | omitted h => contradiction

/-- The action reads everything that is spelled with at most `n` terminals, counting those behind
it, and ends where an expression between delimiters does. -/
def Reader.ReadsEach {α : Type} (p : Reader α) (n : Nat)
    (spelled : α → List Terminal → List Terminal → Prop) : Prop :=
  ∀ {a ws rest}, ws.length ≤ n → spelled a ws rest → Stops .lowest (leadingKind rest) →
    p.Reads ws a rest

section
variable {α : Type} {item : Reader α} {spelled : α → List Terminal → List Terminal → Prop}
  {n : Nat} {close : TokenKind}

/-- The items of a list are read one by one if the reader of items can read each. -/
theorem Separated.takes (hclose : Stops .lowest close) (hcomma : close ≠ .comma)
    (hitem : item.ReadsEach n spelled)
    {as : List α} {ws rest : List Terminal} (h : Separated spelled as ws (.sign close :: rest))
    (hn : ws.length ≤ n) (rounds : Nat) (hrounds : ws.length ≤ rounds) :
    ∃ first others mid last, as = first :: others ∧ rest.length + 1 < ws.length ∧
      Takes item ws first mid ∧
      Takes (itemsAfterCommas item rounds) mid others (last :: .sign close :: rest) := by
  generalize hstop : Terminal.sign close :: rest = stop at h
  induction h generalizing rounds with
  | @one a ws _ ha =>
    subst hstop
    obtain ⟨hlt, last, htake⟩ := hitem hn ha hclose
    refine ⟨a, [], _, last, rfl, hlt, htake, ?_⟩
    cases rounds with
    | zero => exact .pure
    | succ rounds =>
      refine .upcoming_bind rfl (fun t ht => ?_)
      rw [if_neg (by rw [ht]; exact hcomma)]
      exact .pure
  | @more a as ws ws' _ ha _ ih =>
    subst hstop
    obtain ⟨hlt, last, htake⟩ := hitem hn ha (.sign (by decide))
    simp only [List.length_cons] at hlt
    obtain ⟨rounds, rfl⟩ : ∃ r, rounds = r + 1 := ⟨rounds - 1, by omega⟩
    obtain ⟨first, others, mid, last', rfl, hlt', hfirst, hothers⟩ :=
      ih (by omega) rounds (by omega) rfl
    refine ⟨a, _, _, last', rfl, by omega, htake, ?_⟩
    refine .upcoming_bind (k := .comma) rfl (fun t ht => ?_)
    rw [if_pos ht]
    exact .bind .advance (.bind .advance (.bind hfirst (.bind hothers .pure)))

theorem Listed.reads (hclose : Stops .lowest close) (hcomma : close ≠ .comma)
    (hitem : item.ReadsEach n spelled)
    (hstart : ∀ {a ws rest}, spelled a ws rest → leadingKind ws ≠ close)
    {as : List α} {ws rest : List Terminal} (h : Listed spelled as ws (.sign close :: rest))
    (hn : ws.length ≤ n) (w : Terminal) : Reads (delimited close item n) (w :: ws) as rest := by
  cases h with
  | none =>
    refine ⟨by simp only [List.length_cons]; omega, .sign close, .within ?_⟩
    refine .upcoming_bind (k := close) rfl (fun t ht => ?_)
    rw [if_pos ht]
    exact .bind .advance .pure
  | some h =>
    have hne : leadingKind ws ≠ close := by
      cases h with
      | one ha => exact hstart ha
      | more ha _ => exact hstart ha
    obtain ⟨first, others, mid, last, rfl, hlt, hfirst, hothers⟩ :=
      h.takes hclose hcomma hitem hn n hn
    refine ⟨by simp only [List.length_cons]; omega, .sign close, .within ?_⟩
    refine .upcoming_bind rfl (fun t ht => ?_)
    rw [if_neg (by rw [ht]; exact hne)]
    exact .bind .advance (.bind hfirst (.bind hothers (.bind (.expect rfl) .pure)))

end

theorem SpellsName.reads {s : String} {ws rest : List Terminal} (h : SpellsName s ws rest) :
    parameter.Reads ws s rest := by
  cases h
  refine ⟨by simp, .name s, .current_bind (fun t ht => ?_)⟩
  obtain ⟨hk, hl⟩ := Token.eq_of_terminal_name ht
  rw [if_pos hk, hl]
  exact .pure

/-- Whether the reader at the precedence takes in the whole expression when it stands without
parentheses. -/
def Expression.Above (p : Precedence) : Expression → Prop
  | .binary o _ _ => p < o.precedence
  | _ => p < .call

/-- Whether the expression, when it stands without parentheses, ends before a token of the kind. -/
def Expression.EndsBefore (k : TokenKind) : Expression → Prop
  | .binary o _ _ => Stops o.precedence k
  | .unary .. => Stops .unary k
  | _ => k ≠ .elseWord

/-- The reader can read expressions that are spelled with at most `n` terminals, counting those
behind them. -/
def ReadsUpTo (n : Nat) (expression : ExpressionReader) : Prop :=
  ∀ {p pos e ws rest}, ws.length ≤ n → Spells .tidy pos e ws rest → (pos.Admits e → e.Above p) →
    Stops p (leadingKind rest) → (expression p).Reads ws e rest

theorem Expression.above_lowest (e : Expression) : e.Above .lowest := by
  cases e with
  | binary o _ _ => show Precedence.lowest < o.precedence; cases o <;> decide
  | _ => show Precedence.lowest < Precedence.call; decide

theorem Position.rightOf_above {o : BinaryOperator} {e : Expression}
    (h : (Position.rightOf o).Admits e) : e.Above o.precedence := by
  cases e with
  | binary p _ _ => exact h
  | _ => show o.precedence < Precedence.call; cases o <;> decide

theorem Position.operand_above {e : Expression} (h : Position.operand.Admits e) :
    e.Above .unary := by
  cases e with
  | binary p _ _ => exact h.elim
  | _ => show Precedence.unary < Precedence.call; decide

section
variable {n : Nat} {expression : ExpressionReader} (hrd : ReadsUpTo n expression)
include hrd

theorem ReadsUpTo.whole : (expression .lowest).ReadsEach n (Spells .tidy .whole) := by
  intro e ws rest hn h hrest
  exact hrd hn h (fun _ => e.above_lowest) hrest

theorem ReadsUpTo.hashPair : (hashPair expression).ReadsEach n (SpellsPair .tidy) := by
  intro pair ws rest hn h hrest
  cases h with
  | pair hk hv =>
    obtain ⟨hlt, last, hkey⟩ := hrd.whole hn hk (.sign (by decide))
    simp only [List.length_cons] at hlt
    obtain ⟨hlt', last', hvalue⟩ := hrd.whole (by omega) hv hrest
    exact ⟨by omega, last', .bind hkey (.bind (.expect rfl) (.bind .advance (.bind hvalue .pure)))⟩

theorem SpellsStatement.reads {s : Statement} {ws ws' rest : List Terminal} (hn : ws.length ≤ n)
    (h : SpellsStatement .tidy s ws ws') (hend : StatementEnd .tidy ws' rest) :
    (statement expression).Reads ws s rest := by
  cases h with
  | @binding x e ws _ he =>
    simp only [List.length_cons] at hn
    obtain ⟨hlt, last, hvalue⟩ := hrd.whole (by omega) he hend.stops
    obtain ⟨hle, last', hskip⟩ := hend.takes_skip last
    refine ⟨by simp only [List.length_cons]; omega, last', .within (.current_bind (fun t ht => ?_))⟩
    rw [Token.kind_of_terminal_sign ht]
    refine .within (.bind (.expect rfl) (.current_bind (fun u hu => ?_)))
    rw [← (Token.eq_of_terminal_name hu).2]
    exact .bind (.expect rfl) (.bind .advance (.bind hvalue (.bind hskip .pure)))
  | @«return» e ws _ he =>
    simp only [List.length_cons] at hn
    obtain ⟨hlt, last, hvalue⟩ := hrd.whole (by omega) he hend.stops
    obtain ⟨hle, last', hskip⟩ := hend.takes_skip last
    refine ⟨by simp only [List.length_cons]; omega, last', .within (.current_bind (fun t ht => ?_))⟩
    rw [Token.kind_of_terminal_sign ht]
    exact .within (.bind .advance (.bind hvalue (.bind hskip .pure)))
  | @expression e ws _ he =>
    obtain ⟨hlt, last, hvalue⟩ := hrd.whole hn he hend.stops
    obtain ⟨hle, last', hskip⟩ := hend.takes_skip last
    refine ⟨by omega, last', .within ?_⟩
    cases ws with
    | nil => simp at hlt
    | cons w ws =>
      refine .current_bind (fun t ht => ?_)
      have hk : startsExpression t.kind = true := by
        rw [← t.kind_terminal, ht]
        exact he.starts
      split
      · next hl => rw [hl] at hk; contradiction
      · next hr => rw [hr] at hk; contradiction
      · exact .within (.bind hvalue (.bind hskip .pure))

/-- The statements of a block or a program, up to the token at which they stop. -/
theorem SpellsStatements.takes {stops : TokenKind → Bool}
    (hstops : ∀ k, stops k = true → k = .rightBrace ∨ k = .endOfInput) {ss : Block}
    {ws rest : List Terminal} (h : SpellsStatements .tidy ss ws rest)
    (hrest : stops (leadingKind rest) = true) (hn : ws.length ≤ n) (rounds : Nat)
    (hrounds : ws.length ≤ rounds) :
    rest.length ≤ ws.length ∧ Takes (statementsUntil stops expression rounds) ws ss rest := by
  induction ss generalizing ws rounds with
  | nil =>
    cases h
    refine ⟨Nat.le_refl _, ?_⟩
    cases rounds with
    | zero => exact .pure
    | succ rounds =>
      refine .kind_bind (fun t ht => ?_)
      rw [if_pos (by rw [ht]; exact hrest)]
      exact .pure
  | cons s ss ih =>
    cases h with
    | @cons _ _ _ ws' ws'' _ hs hend hss =>
      obtain ⟨hlt, last, hfirst⟩ := hs.reads hrd hn hend
      obtain ⟨rounds, rfl⟩ : ∃ r, rounds = r + 1 := ⟨rounds - 1, by omega⟩
      obtain ⟨hle, hothers⟩ := ih hss (by omega) rounds (by omega)
      refine ⟨by omega, .kind_bind (fun t ht => ?_)⟩
      have hgo : ¬ stops t.kind = true := by
        intro hstop
        rw [ht] at hstop
        rcases hstops _ hstop with hk | hk
        · exact hs.leadingKind_ne (by rfl) (by simp) (by simp) hk
        · exact hs.leadingKind_ne (by rfl) (by simp) (by simp) hk
      rw [if_neg hgo]
      exact .bind (.orNone hfirst) (.bind .advance (.bind hothers .pure))

theorem SpellsBlock.reads {body : Block} {ws rest : List Terminal} (hn : ws.length ≤ n + 1)
    (h : SpellsBlock .tidy body ws rest) : (block expression n).Reads ws body rest := by
  cases h with
  | @closed body ws _ h =>
    simp only [List.length_cons] at hn
    have hstops : ∀ k, endsBlock k = true → k = .rightBrace ∨ k = .endOfInput := by
      intro k hk
      simpa [endsBlock] using hk
    obtain ⟨hle, hbody⟩ := h.takes hrd hstops rfl (by omega) n (by omega)
    simp only [List.length_cons] at hle
    exact ⟨by simp only [List.length_cons]; omega, _, .within (.bind .advance hbody)⟩
  | unclosed hm _ => contradiction

theorem reads_unary {o : UnaryOperator} {e : Expression} {ws rest : List Terminal}
    (hn : ws.length ≤ n) (h : Spells .tidy .operand e ws rest)
    (hrest : Stops .unary (leadingKind rest)) :
    (unaryExpression expression o).Reads (.sign o.kind :: ws) (.unary o e) rest := by
  obtain ⟨hlt, last, htake⟩ := hrd hn h Position.operand_above hrest
  exact ⟨by simp only [List.length_cons]; omega, last, .within (.bind .advance (.bind htake .pure))⟩

theorem reads_grouped {e : Expression} {ws rest : List Terminal} (hn : ws.length ≤ n)
    (h : Spells .tidy .whole e ws (.sign .rightParen :: rest)) :
    (groupedExpression expression).Reads (.sign .leftParen :: ws) e rest := by
  obtain ⟨hlt, last, htake⟩ := hrd.whole hn h (.sign (by decide))
  simp only [List.length_cons] at hlt
  exact ⟨by simp only [List.length_cons]; omega, _,
    .within (.bind .advance (.bind htake (.bind (.expect rfl) .pure)))⟩

theorem reads_conditional {c : Expression} {body : Block} {ws ws' rest : List Terminal}
    (hn : ws.length ≤ n) (hc : Spells .tidy .whole c ws (.sign .rightParen :: ws'))
    (hbody : SpellsBlock .tidy body ws' rest) (hrest : leadingKind rest ≠ .elseWord) :
    (conditional expression n).Reads (.sign .ifWord :: .sign .leftParen :: ws)
      (.conditional c body none) rest := by
  obtain ⟨hlt, last, hcond⟩ := hrd.whole hn hc (.sign (by decide))
  simp only [List.length_cons] at hlt
  obtain ⟨hlt', last', hblock⟩ := hbody.reads hrd (by omega)
  refine ⟨by simp only [List.length_cons]; omega, last', .within ?_⟩
  have hbrace : leadingKind ws' = .leftBrace := by cases hbody <;> rfl
  refine .bind (.expect rfl) (.bind .advance (.bind hcond (.bind (.expect rfl)
    (.bind (.expect hbrace) (.bind hblock (.upcoming_bind rfl (fun t ht => ?_)))))))
  rw [if_neg (by rw [ht]; exact hrest)]
  exact .pure

theorem reads_alternative {c : Expression} {body other : Block} {ws ws' ws'' rest : List Terminal}
    (hn : ws.length ≤ n) (hc : Spells .tidy .whole c ws (.sign .rightParen :: ws'))
    (hbody : SpellsBlock .tidy body ws' (.sign .elseWord :: ws''))
    (hother : SpellsBlock .tidy other ws'' rest) :
    (conditional expression n).Reads (.sign .ifWord :: .sign .leftParen :: ws)
      (.conditional c body (some other)) rest := by
  obtain ⟨hlt, last, hcond⟩ := hrd.whole hn hc (.sign (by decide))
  simp only [List.length_cons] at hlt
  obtain ⟨hlt', last', hblock⟩ := hbody.reads hrd (by omega)
  simp only [List.length_cons] at hlt'
  obtain ⟨hlt'', last'', hblock'⟩ := hother.reads hrd (by omega)
  refine ⟨by simp only [List.length_cons]; omega, last'', .within ?_⟩
  have hbrace : leadingKind ws' = .leftBrace := by
    cases hbody
    rfl
  have hbrace' : leadingKind ws'' = .leftBrace := by cases hother <;> rfl
  refine .bind (.expect rfl) (.bind .advance (.bind hcond (.bind (.expect rfl)
    (.bind (.expect hbrace) (.bind hblock
      (.upcoming_bind (k := .elseWord) rfl (fun t ht => ?_)))))))
  rw [if_pos ht]
  exact .bind .advance (.bind (.expect hbrace') (.bind hblock' .pure))

theorem reads_function {parameters : List String} {body : Block} {ws ws' rest : List Terminal}
    (hn : ws.length ≤ n) (hp : Listed SpellsName parameters ws (.sign .rightParen :: ws'))
    (hbody : SpellsBlock .tidy body ws' rest) :
    (functionLiteral expression n).Reads (.sign .functionWord :: .sign .leftParen :: ws)
      (.function parameters body) rest := by
  have hstart : ∀ {s ws rest}, SpellsName s ws rest → leadingKind ws ≠ .rightParen := by
    intro s ws rest h
    cases h
    simp [Terminal.kind]
  have hname : parameter.ReadsEach n SpellsName := fun _ h _ => h.reads
  obtain ⟨hlt, last, hlist⟩ := hp.reads (by decide) (by simp) hname hstart hn (.sign .leftParen)
  simp only [List.length_cons] at hlt
  obtain ⟨hlt', last', hblock⟩ := hbody.reads hrd (by omega)
  have hbrace : leadingKind ws' = .leftBrace := by cases hbody <;> rfl
  exact ⟨by simp only [List.length_cons]; omega, last',
    .within (.bind (.expect rfl) (.bind hlist (.bind (.expect hbrace) (.bind hblock .pure))))⟩

theorem reads_list {es : List Expression} {ws rest : List Terminal} {close : TokenKind}
    (hclose : close = .rightParen ∨ close = .rightBracket) (hn : ws.length ≤ n)
    (h : Listed (Spells .tidy .whole) es ws (.sign close :: rest)) (w : Terminal) :
    (delimited close (expression .lowest) n).Reads (w :: ws) es rest := by
  have hother : Stops .lowest close ∧ close ≠ .comma ∧ startsExpression close = false := by
    rcases hclose with rfl | rfl <;> decide
  exact h.reads hother.1 hother.2.1 hrd.whole
    (fun h => leadingKind_ne_of_starts h.starts hother.2.2) hn w

theorem reads_array {es : List Expression} {ws rest : List Terminal} (hn : ws.length ≤ n)
    (h : Listed (Spells .tidy .whole) es ws (.sign .rightBracket :: rest)) :
    (arrayLiteral expression n).Reads (.sign .leftBracket :: ws) (.array es) rest := by
  obtain ⟨hlt, last, hlist⟩ := reads_list hrd (.inr rfl) hn h (.sign .leftBracket)
  exact ⟨hlt, last, .within (.bind hlist .pure)⟩

theorem reads_hash {pairs : List (Expression × Expression)} {ws rest : List Terminal}
    (hn : ws.length ≤ n) (h : Listed (SpellsPair .tidy) pairs ws (.sign .rightBrace :: rest)) :
    (hashLiteral expression n).Reads (.sign .leftBrace :: ws) (.hash pairs) rest := by
  have hstart : ∀ {pair ws rest}, SpellsPair .tidy pair ws rest → leadingKind ws ≠ .rightBrace := by
    intro pair ws rest h
    obtain ⟨hk, _⟩ := h
    exact leadingKind_ne_of_starts hk.starts rfl
  obtain ⟨hlt, last, hlist⟩ :=
    h.reads (by decide) (by simp) (ReadsUpTo.hashPair hrd) hstart hn (.sign .leftBrace)
  exact ⟨hlt, last, .within (.bind hlist .pure)⟩

end

end Treewalk
