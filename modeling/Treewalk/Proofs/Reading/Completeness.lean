import Treewalk.Proofs.Reading.Rules

namespace Treewalk

open Reader

/-- Reading an expression at `ws` comes to the operators behind `rest` with `e` as the operand
before them, if it is given enough rounds. Operators are met from the innermost left operand
outwards, so this says how the reading of a left operand goes on after it. -/
def Leads (p : Precedence) (expression : ExpressionReader) (n : Nat) (ws : List Terminal)
    (e : Expression) (rest : List Terminal) : Prop :=
  rest.length < ws.length ∧ ∃ last, ∀ {round : Nat} {b : Expression} {ws' : List Terminal},
    ws.length ≤ round + 1 →
    (∀ round', rest.length ≤ round' →
      Takes (operatorsAbove p expression n round' e) (last :: rest) b ws') →
    Takes (current >>= fun t => operand expression n t >>= operatorsAbove p expression n round) ws b
      ws'

section
variable {p : Precedence} {expression : ExpressionReader} {n : Nat}

theorem Leads.of_operand {e : Expression} {w : Terminal} {ws rest : List Terminal}
    {rule : Reader Expression} (hrule : ∀ t, t.terminal = w → operand expression n t = rule)
    (h : rule.Reads (w :: ws) e rest) : Leads p expression n (w :: ws) e rest := by
  obtain ⟨hlt, last, htake⟩ := h
  refine ⟨hlt, last, fun {round b ws'} hround hrest => .current_bind (fun t ht => ?_)⟩
  rw [hrule t ht]
  simp only [List.length_cons] at hlt hround
  exact .bind htake (hrest round (by omega))

/-- One round of the loop over the operators. -/
theorem Leads.operator {a e : Expression} {w : Terminal} {ws mid rest : List Terminal}
    {goOn : Expression → Reader Expression} (h : Leads p expression n ws a (w :: mid))
    (hp : p < .of w.kind) (hgo : continuation? expression n w.kind = some goOn)
    (hreads : (goOn a).Reads (w :: mid) e rest) : Leads p expression n ws e rest := by
  obtain ⟨hlt, _, hlead⟩ := h
  obtain ⟨hlt', last, htake⟩ := hreads
  refine ⟨by omega, last, fun {round b ws'} hround hrest => hlead hround ?_⟩
  intro round' hround'
  simp only [List.length_cons] at hlt' hround'
  obtain ⟨round', rfl⟩ : ∃ r, round' = r + 1 := ⟨round' - 1, by omega⟩
  refine .upcoming_bind (k := w.kind) rfl (fun t ht => ?_)
  rw [ht, if_pos hp, hgo]
  exact .bind .advance (.bind htake (hrest round' (by omega)))

theorem Leads.unary {o : UnaryOperator} {e : Expression} {ws rest : List Terminal}
    (hrd : ReadsUpTo n expression) (hn : ws.length ≤ n) (h : Spells .tidy .operand e ws rest)
    (hrest : Stops .unary (leadingKind rest)) :
    Leads p expression n (.sign o.kind :: ws) (.unary o e) rest := by
  refine .of_operand (fun t ht => ?_) (reads_unary hrd hn h hrest)
  have hk := Token.kind_of_terminal_sign ht
  cases o <;> simp [operand, hk, UnaryOperator.kind]

theorem Leads.binary {o : BinaryOperator} {a b : Expression} {ws ws' rest : List Terminal}
    (hrd : ReadsUpTo n expression) (hp : p < o.precedence)
    (ha : Leads p expression n ws a (.sign o.kind :: ws')) (hn : ws.length ≤ n + 1)
    (hb : Spells .tidy (.rightOf o) b ws' rest) (hrest : Stops o.precedence (leadingKind rest)) :
    Leads p expression n ws (.binary o a b) rest := by
  have hlt := ha.1
  simp only [List.length_cons] at hlt
  obtain ⟨hlt', last, htake⟩ := hrd (by omega) hb Position.rightOf_above hrest
  refine ha.operator hp o.continuation?_kind ⟨?_, last, .within (.current_bind (fun t ht => ?_))⟩
  · simp only [List.length_cons]
    omega
  · rw [Token.kind_of_terminal_sign ht]
    exact .bind .advance (.bind htake .pure)

theorem Leads.call {f : Expression} {arguments : List Expression} {ws ws' rest : List Terminal}
    (hrd : ReadsUpTo n expression) (hp : p < .call)
    (hf : Leads p expression n ws f (.sign .leftParen :: ws')) (hn : ws.length ≤ n + 1)
    (hs : Listed (Spells .tidy .whole) arguments ws' (.sign .rightParen :: rest)) :
    Leads p expression n ws (.call f arguments) rest := by
  have hlt := hf.1
  simp only [List.length_cons] at hlt
  obtain ⟨hlt', last, htake⟩ := reads_list hrd (.inl rfl) (by omega) hs (.sign .leftParen)
  exact hf.operator hp rfl ⟨hlt', last, .within (.bind htake .pure)⟩

theorem Leads.index {c i : Expression} {ws ws' rest : List Terminal}
    (hrd : ReadsUpTo n expression) (hp : p < .call)
    (hc : Leads p expression n ws c (.sign .leftBracket :: ws')) (hn : ws.length ≤ n + 1)
    (hi : Spells .tidy .whole i ws' (.sign .rightBracket :: rest)) :
    Leads p expression n ws (.index c i) rest := by
  have hlt := hc.1
  simp only [List.length_cons] at hlt
  obtain ⟨hlt', last, htake⟩ := hrd.whole (by omega) hi (.sign (by decide))
  simp only [List.length_cons] at hlt'
  have hp' : p < .of .leftBracket := Nat.lt_succ_of_lt hp
  refine hc.operator hp' rfl ⟨?_, .sign .rightBracket, .within ?_⟩
  · simp only [List.length_cons]
    omega
  · exact .bind .advance (.bind htake (.bind (.expect rfl) .pure))

end

theorem Precedence.le_unary_of_lt_call {p : Precedence} {k : TokenKind} (hp : p < .call)
    (hk : ¬ p < .of k) : ¬ Precedence.unary < .of k := by
  rw [lt_iff_rank] at *
  have h : Precedence.call.rank = Precedence.unary.rank + 1 := rfl
  omega

theorem Expression.endsBefore {p : Precedence} {e : Expression} {k : TokenKind} (he : e.Above p)
    (hk : Stops p k) : e.EndsBefore k := by
  obtain ⟨hnot, helse⟩ := hk
  cases e with
  | binary o _ _ => exact ⟨fun h => hnot (Nat.lt_trans he h), helse⟩
  | unary _ _ => exact ⟨Precedence.le_unary_of_lt_call he hnot, helse⟩
  | _ => exact helse

/-- A left operand is taken in by whatever takes in the whole operation, and ends before the
operator. -/
theorem Position.leftOf_above {p : Precedence} {o : BinaryOperator} {e : Expression}
    (hp : p < o.precedence) (h : (Position.leftOf o).Admits e) :
    e.Above p ∧ e.EndsBefore o.kind := by
  have hunary := o.precedence_lt_unary
  have helse : o.kind ≠ .elseWord := by cases o <;> decide
  have hcall : p < .call := Nat.lt_trans (Nat.lt_trans hp hunary) (by decide)
  cases e with
  | binary q _ _ => exact ⟨Nat.lt_of_lt_of_le hp (Nat.not_lt.mp h), h, helse⟩
  | unary _ _ => exact ⟨hcall, Nat.not_lt.mpr (Nat.le_of_lt hunary), helse⟩
  | _ => exact ⟨hcall, helse⟩

theorem Position.applied_above {p : Precedence} {e : Expression} {k : TokenKind} (hp : p < .call)
    (hk : k ≠ .elseWord) (h : Position.applied.Admits e) : e.Above p ∧ e.EndsBefore k := by
  cases e with
  | binary _ _ _ | unary _ _ => exact h.elim
  | _ => exact ⟨hp, hk⟩

section
variable {p : Precedence} {expression : ExpressionReader} {n : Nat}

mutual

theorem Spells.leads (hrd : ReadsUpTo n expression) :
    ∀ {pos : Position} {e : Expression} {ws rest : List Terminal}, Spells .tidy pos e ws rest →
    ws.length ≤ n + 1 → (pos.Admits e → e.Above p ∧ e.EndsBefore (leadingKind rest)) →
    Leads p expression n ws e rest
  | _, _, _, _, .bare hp h, hn, hadm => h.leads hrd hn (hadm hp).1 (hadm hp).2
  | _, _, _, _, .enclosed h, hn, _ =>
    .of_operand (fun t ht => by simp [operand, Token.kind_of_terminal_sign ht])
      (reads_grouped hrd (Nat.le_of_succ_le_succ hn) h)

theorem SpellsBare.leads (hrd : ReadsUpTo n expression) :
    ∀ {e : Expression} {ws rest : List Terminal}, SpellsBare .tidy e ws rest →
    ws.length ≤ n + 1 → e.Above p → e.EndsBefore (leadingKind rest) → Leads p expression n ws e rest
  | _, _, _, .identifier, _, _, _ => by
    refine .of_operand (fun t ht => ?_) ⟨by simp, _, .pure⟩
    obtain ⟨hk, hl⟩ := Token.eq_of_terminal_name ht
    simp [operand, hk, hl]
  | _, _, _, .integer _ hv, _, _, _ => by
    refine .of_operand (fun t ht => ?_) ⟨by simp, _, .pure⟩
    obtain ⟨hk, rfl⟩ := Token.eq_of_terminal_number ht
    simp [operand, hk, integerLiteral_of_value hv]
  | _, _, _, .truth, _, _, _ =>
    .of_operand (fun t ht => by simp [operand, Token.kind_of_terminal_sign ht]) ⟨by simp, _, .pure⟩
  | _, _, _, .falsehood, _, _, _ =>
    .of_operand (fun t ht => by simp [operand, Token.kind_of_terminal_sign ht]) ⟨by simp, _, .pure⟩
  | _, _, _, .string, _, _, _ => by
    refine .of_operand (fun t ht => ?_) ⟨by simp, _, .pure⟩
    obtain ⟨hk, hl⟩ := Token.eq_of_terminal_quoted ht
    simp [operand, hk, hl]
  | _, _, _, .unary he, hn, _, hend => .unary hrd (Nat.le_of_succ_le_succ hn) he hend
  | _, _, _, .binary ha hb, hn, hp, hend =>
    .binary hrd hp (ha.leads hrd hn (Position.leftOf_above hp)) hn hb hend
  | _, _, _, .conditional hc hbody, hn, _, hend =>
    .of_operand (fun t ht => by simp [operand, Token.kind_of_terminal_sign ht])
      (reads_conditional hrd (by simp at hn; omega) hc hbody hend)
  | _, _, _, .alternative hc hbody hother, hn, _, _ =>
    .of_operand (fun t ht => by simp [operand, Token.kind_of_terminal_sign ht])
      (reads_alternative hrd (by simp at hn; omega) hc hbody hother)
  | _, _, _, .function hs hbody, hn, _, _ =>
    .of_operand (fun t ht => by simp [operand, Token.kind_of_terminal_sign ht])
      (reads_function hrd (by simp at hn; omega) hs hbody)
  | _, _, _, .call hf hs, hn, hp, _ =>
    .call hrd hp (hf.leads hrd hn (Position.applied_above hp (by simp [Terminal.kind]))) hn hs
  | _, _, _, .array hs, hn, _, _ =>
    .of_operand (fun t ht => by simp [operand, Token.kind_of_terminal_sign ht])
      (reads_array hrd (Nat.le_of_succ_le_succ hn) hs)
  | _, _, _, .index hc hi, hn, hp, _ =>
    .index hrd hp (hc.leads hrd hn (Position.applied_above hp (by simp [Terminal.kind]))) hn hi
  | _, _, _, .hash hs, hn, _, _ =>
    .of_operand (fun t ht => by simp [operand, Token.kind_of_terminal_sign ht])
      (reads_hash hrd (Nat.le_of_succ_le_succ hn) hs)

end

end

theorem Reader.Takes.operatorsAbove_stop {p : Precedence} {expression : ExpressionReader}
    {n round : Nat} {e : Expression} {last : Terminal} {rest : List Terminal}
    (h : ¬ p < .of (leadingKind rest)) :
    Takes (operatorsAbove p expression n round e) (last :: rest) e (last :: rest) := by
  cases round with
  | zero => exact .pure
  | succ round =>
    refine .upcoming_bind rfl (fun t ht => ?_)
    rw [if_neg (by rw [ht]; exact h)]
    exact .pure

theorem readsUpTo_readExpression (n : Nat) : ReadsUpTo n (readExpression n) := by
  induction n with
  | zero =>
    intro p pos e ws rest hn h _ _
    have hstart := h.starts
    rw [List.length_eq_zero_iff.mp (Nat.le_zero.mp hn)] at hstart
    contradiction
  | succ n ih =>
    intro p pos e ws rest hn h hadm hrest
    obtain ⟨hlt, last, hlead⟩ :=
      h.leads (p := p) ih hn (fun ha => ⟨hadm ha, Expression.endsBefore (hadm ha) hrest⟩)
    exact ⟨hlt, last, .within (hlead hn (fun _ _ => .operatorsAbove_stop hrest.1))⟩

theorem Program.Spelled.takes {p : Program} {ws : List Terminal} (h : p.Spelled .tidy ws) {n : Nat}
    (hn : ws.length ≤ n) :
    Takes (statementsUntil endsProgram (readExpression n) n) ws p.statements [] := by
  have hstops : ∀ k, endsProgram k = true → k = .rightBrace ∨ k = .endOfInput := by
    intro k hk
    exact .inr (eq_of_beq hk)
  exact (SpellsStatements.takes (readsUpTo_readExpression n) hstops h rfl hn n hn).2

/-- A text in which a scanner finds a tidy spelling of the program is read as the program. -/
theorem read_of_tokens {p : Program} {ws : List Terminal} {source : String}
    (h : p.Spelled .tidy ws)
    (hts : (tokens source).map Token.terminal = ws ++ [.sign .endOfInput]) :
    (read source).program = p ∧ (read source).raised = [] := by
  obtain ⟨ts, finish, happend, hsound, hprogram, hraised⟩ := Reading.read_eq source
  have hws : ts.map Token.terminal = ws := by
    rw [happend, List.map_append] at hts
    exact (List.append_inj' hts rfl).1
  obtain ⟨c, hrun, _, hquiet⟩ :=
    h.takes (n := ts.length + 1) (by simp [← hws]) ⟨ts, finish, 0, []⟩ hsound hws
  have hread : readTokens ts finish 0 = (some p.statements, c) := hrun
  rw [hread] at hprogram hraised
  refine ⟨hprogram, ?_⟩
  rw [hraised, hquiet]
  rfl

theorem read_of_parted {p : Program} {ws : List Terminal} {source : String} (hp : p.Printable)
    (h : p.Spelled .tidy ws) (hs : Parted ws source.toList) :
    (read source).program = p ∧ (read source).raised = [] := by
  have hts := tokens_of_parted hs (h.proper hp)
  rw [String.ofList_toList] at hts
  exact read_of_tokens h hts

/-- However a tree is written down, with parentheses at least where precedence and associativity
call for them, a semicolon behind each statement that is not the last of its block, and blanks
between the tokens, exactly that tree is read, and nothing is found wrong with the text. -/
theorem parse_of_spelled {p : Program} {ws : List Terminal} {source : String} (hp : p.Printable)
    (h : p.Spelled .tidy ws) (hs : Spaced ws source.toList) :
    parse source = .ok p ∧ (read source).program = p ∧ (read source).raised = [] := by
  obtain ⟨hprogram, hraised⟩ := read_of_parted hp h hs.parted
  have hparse := Reading.program?_of_raised_eq_nil hraised
  rw [hprogram] at hparse
  exact ⟨hparse, hprogram, hraised⟩

/-- A difference that is taken from another operand, the call of a negated callee, and a name in
more parentheses than it needs. -/
def regrouped : Program :=
  ⟨[.expression (.binary .subtract (.identifier "a")
      (.binary .multiply (.binary .subtract (.identifier "b") (.identifier "c"))
        (.call (.unary .not (.identifier "f")) [.integer 7]))),
    .expression (.function [] [.expression (.identifier "x")])]⟩

theorem parse_regrouped : regrouped.Printable ∧
    parse "a - ( b - c ) * ( ! f ) ( 07 ) ; fn ( ) \x7b ( ( x ) ) \x7d " = .ok regrouped := by
  have hp : regrouped.Printable := by
    simp only [Program.Printable, regrouped, PrintableStatements, Statement.Printable,
      Expression.Printable, PrintableExpressions]
    decide
  have hdifference : ∀ {rest}, Spells .tidy (.leftOf .multiply)
      (.binary .subtract (.identifier "b") (.identifier "c"))
      (.sign .leftParen :: .name "b" :: .sign .minus :: .name "c" :: .sign .rightParen :: rest)
      rest :=
    .enclosed (.bare trivial (.binary (.bare trivial .identifier) (.bare trivial .identifier)))
  have hcall : ∀ {rest}, Spells .tidy (.rightOf .multiply)
      (.call (.unary .not (.identifier "f")) [.integer 7])
      (.sign .leftParen :: .sign .bang :: .name "f" :: .sign .rightParen :: .sign .leftParen ::
        .number "07" :: .sign .rightParen :: rest) rest :=
    .bare trivial (.call (.enclosed (.bare trivial (.unary (.bare trivial .identifier))))
      (.some (.one (.bare trivial (.integer (by decide) (by decide))))))
  have hproduct : (Position.rightOf .subtract).Admits (.binary .multiply
      (.binary .subtract (.identifier "b") (.identifier "c"))
      (.call (.unary .not (.identifier "f")) [.integer 7])) := by
    show BinaryOperator.subtract.precedence < BinaryOperator.multiply.precedence
    decide
  have hbody : ∀ {rest}, SpellsBlock .tidy [.expression (.identifier "x")]
      (.sign .leftBrace :: .sign .leftParen :: .sign .leftParen :: .name "x" ::
        .sign .rightParen :: .sign .rightParen :: .sign .rightBrace :: rest) rest :=
    .closed (.cons (.expression (.enclosed (.enclosed (.bare trivial .identifier))))
      (.last (.inr rfl)) .nil)
  have hs : regrouped.Spelled .tidy _ :=
    .cons (.expression (.bare trivial (.binary (.bare trivial .identifier)
      (.bare hproduct (.binary hdifference hcall))))) .semicolon
      (.cons (.expression (.bare trivial (.function .none hbody))) (.last (.inl rfl)) .nil)
  exact ⟨hp, (parse_of_spelled hp hs (spaced_flatMap _)).1⟩

end Treewalk
