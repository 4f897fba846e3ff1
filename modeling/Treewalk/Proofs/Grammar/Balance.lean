import Treewalk.Proofs.Grammar.Spelling

namespace Treewalk

inductive Bracket where
  | brace
  | bracket
  | paren
deriving DecidableEq

def TokenKind.isBracket : TokenKind → Bool
  | .leftBrace | .rightBrace | .leftBracket | .rightBracket | .leftParen | .rightParen => true
  | _ => false

theorem UnaryOperator.kind_isBracket (o : UnaryOperator) : o.kind.isBracket = false := by
  cases o <;> rfl

theorem BinaryOperator.kind_isBracket (o : BinaryOperator) : o.kind.isBracket = false := by
  cases o <;> rfl

namespace Bracket

def opening : Bracket → TokenKind
  | brace => .leftBrace
  | bracket => .leftBracket
  | paren => .leftParen

def closing : Bracket → TokenKind
  | brace => .rightBrace
  | bracket => .rightBracket
  | paren => .rightParen

/-- How many more opening than closing brackets there are. -/
def surplus (b : Bracket) (ks : List TokenKind) : Int := ks.count b.opening - ks.count b.closing

variable (b : Bracket)

@[simp] theorem surplus_nil : b.surplus [] = 0 := rfl

theorem surplus_append (ks ls : List TokenKind) :
    b.surplus (ks ++ ls) = b.surplus ks + b.surplus ls := by
  simp only [surplus, List.count_append]
  omega

theorem surplus_cons (k : TokenKind) (ks : List TokenKind) :
    b.surplus (k :: ks) = b.surplus [k] + b.surplus ks := b.surplus_append [k] ks

theorem surplus_of_not_isBracket {k : TokenKind} (h : k.isBracket = false) : b.surplus [k] = 0 := by
  cases k <;> first | contradiction | cases b <;> rfl

theorem natAbs_surplus_le (ks : List TokenKind) :
    (b.surplus ks).natAbs ≤ ks.countP TokenKind.isBracket := by
  induction ks with
  | nil => exact Nat.le_refl _
  | cons k ks ih =>
    have hone : (b.surplus [k]).natAbs ≤ if k.isBracket then 1 else 0 := by
      cases b <;> cases k <;> decide
    rw [b.surplus_cons, List.countP_cons]
    omega

/-- A closing bracket takes back what the opening one adds. -/
theorem surplus_opening (b' : Bracket) : b.surplus [b'.opening] = -b.surplus [b'.closing] := by
  cases b <;> cases b' <;> decide

end Bracket

/-- The terminals before `rest` close every bracket that they open, but for braces if nothing
follows. -/
structure ClosesUpTo (b : Bracket) (rest ws : List Terminal) : Prop where
  suffix : rest <:+ ws
  count : ∃ k : Nat, b.surplus (ws.map Terminal.kind) = b.surplus (rest.map Terminal.kind) + k ∧
    (k ≠ 0 → b = .brace ∧ rest = [])

namespace ClosesUpTo

variable {b : Bracket} {rest mid ws ws' : List Terminal} {k : TokenKind}

theorem refl (ws : List Terminal) : ClosesUpTo b ws ws :=
  ⟨List.suffix_refl _, 0, by simp, fun h => absurd rfl h⟩

theorem trans (h : ClosesUpTo b mid ws) (h' : ClosesUpTo b rest mid) : ClosesUpTo b rest ws := by
  obtain ⟨hsuffix, k, hcount, hend⟩ := h
  obtain ⟨hsuffix', k', hcount', hend'⟩ := h'
  refine ⟨hsuffix'.trans hsuffix, k + k', by omega, fun hne => ?_⟩
  by_cases hk : k = 0
  · exact hend' (by omega)
  · obtain ⟨hb, rfl⟩ := hend hk
    exact ⟨hb, List.suffix_nil.mp hsuffix'⟩

theorem cons {w : Terminal} (hw : w.kind.isBracket = false) (h : ClosesUpTo b rest ws) :
    ClosesUpTo b rest (w :: ws) := by
  obtain ⟨hsuffix, k, hcount, hend⟩ := h
  refine ⟨hsuffix.trans (List.suffix_cons _ _), k, ?_, hend⟩
  rw [List.map_cons, b.surplus_cons, b.surplus_of_not_isBracket hw, hcount, Int.zero_add]

theorem across (h : ClosesUpTo b (.sign k :: ws') ws) (hk : k.isBracket = false)
    (h' : ClosesUpTo b rest ws') : ClosesUpTo b rest ws :=
  h.trans (.cons hk h')

/-- Between brackets nothing stays open, because the closing one follows. -/
theorem enclosed (b' : Bracket) (h : ClosesUpTo b (.sign b'.closing :: rest) ws) :
    ClosesUpTo b rest (.sign b'.opening :: ws) := by
  obtain ⟨hsuffix, k, hcount, hend⟩ := h
  obtain rfl : k = 0 := by
    by_contra hne
    exact absurd (hend hne).2 (List.cons_ne_nil _ _)
  refine ⟨((List.suffix_cons _ _).trans hsuffix).trans (List.suffix_cons _ _), 0, ?_,
    fun hne => absurd rfl hne⟩
  rw [List.map_cons, b.surplus_cons] at hcount ⊢
  simp only [Terminal.kind, b.surplus_opening] at hcount ⊢
  omega

/-- At the end of input a block may stay open. -/
theorem unclosed (h : ClosesUpTo b [] ws) : ClosesUpTo b [] (.sign .leftBrace :: ws) := by
  obtain ⟨_, k, hcount, hend⟩ := h
  rw [List.map_nil, Bracket.surplus_nil, Int.zero_add] at hcount
  by_cases hb : b = .brace
  · subst hb
    refine ⟨List.nil_suffix, k + 1, ?_, fun _ => ⟨rfl, rfl⟩⟩
    have hbrace : Bracket.brace.surplus [.leftBrace] = 1 := rfl
    rw [List.map_cons, Bracket.surplus_cons, hcount, Terminal.kind, hbrace, List.map_nil,
      Bracket.surplus_nil]
    omega
  · have hbrace : b.surplus [.leftBrace] = 0 := by cases b <;> first | rfl | contradiction
    refine ⟨List.nil_suffix, k, ?_, hend⟩
    rw [List.map_cons, b.surplus_cons, hcount, Terminal.kind, hbrace, List.map_nil,
      Bracket.surplus_nil]

end ClosesUpTo

theorem StatementEnd.closesUpTo {m : Manner} {b : Bracket} {ws rest : List Terminal}
    (h : StatementEnd m ws rest) : ClosesUpTo b rest ws := by
  cases h with
  | semicolon => exact .cons rfl (.refl _)
  | last _ => exact .refl _
  | omitted _ => exact .refl _

theorem SpellsName.closesUpTo {b : Bracket} {s : String} {ws rest : List Terminal}
    (h : SpellsName s ws rest) : ClosesUpTo b rest ws := by
  cases h
  exact .cons rfl (.refl _)

theorem Listed.closesUpTo_names {b : Bracket} {parameters : List String} {ws rest : List Terminal}
    (h : Listed SpellsName parameters ws rest) : ClosesUpTo b rest ws := by
  cases h with
  | none => exact .refl _
  | some h =>
    induction h with
    | one ha => exact ha.closesUpTo
    | more ha _ ih => exact ha.closesUpTo.across rfl ih

mutual

theorem Spells.closesUpTo {m : Manner} {b : Bracket} :
    ∀ {p : Position} {e : Expression} {ws rest : List Terminal},
    Spells m p e ws rest → ClosesUpTo b rest ws
  | _, _, _, _, .bare _ h => h.closesUpTo
  | _, _, _, _, .enclosed h => h.closesUpTo.enclosed .paren

theorem SpellsBare.closesUpTo {m : Manner} {b : Bracket} :
    ∀ {e : Expression} {ws rest : List Terminal}, SpellsBare m e ws rest → ClosesUpTo b rest ws
  | _, _, _, .identifier | _, _, _, .integer _ _ | _, _, _, .truth | _, _, _, .falsehood
  | _, _, _, .string => .cons rfl (.refl _)
  | _, _, _, .unary he => .cons (UnaryOperator.kind_isBracket _) he.closesUpTo
  | _, _, _, .binary ha hb =>
    ha.closesUpTo.across (BinaryOperator.kind_isBracket _) hb.closesUpTo
  | _, _, _, .conditional hc hbody =>
    .cons rfl ((hc.closesUpTo.enclosed .paren).trans hbody.closesUpTo)
  | _, _, _, .alternative hc hbody hother =>
    .cons rfl ((hc.closesUpTo.enclosed .paren).trans
      (hbody.closesUpTo.across rfl hother.closesUpTo))
  | _, _, _, .function hp hbody =>
    .cons rfl ((hp.closesUpTo_names.enclosed .paren).trans hbody.closesUpTo)
  | _, _, _, .call hf hs => hf.closesUpTo.trans ((listed_closesUpTo hs).enclosed .paren)
  | _, _, _, .array hs => (listed_closesUpTo hs).enclosed .bracket
  | _, _, _, .index hc hi => hc.closesUpTo.trans (hi.closesUpTo.enclosed .bracket)
  | _, _, _, .hash hs => (listedPairs_closesUpTo hs).enclosed .brace

theorem listed_closesUpTo {m : Manner} {b : Bracket} :
    ∀ {es : List Expression} {ws rest : List Terminal},
    Listed (Spells m .whole) es ws rest → ClosesUpTo b rest ws
  | _, _, _, .none => .refl _
  | _, _, _, .some h => separated_closesUpTo h

theorem separated_closesUpTo {m : Manner} {b : Bracket} :
    ∀ {es : List Expression} {ws rest : List Terminal},
    Separated (Spells m .whole) es ws rest → ClosesUpTo b rest ws
  | _, _, _, .one ha => ha.closesUpTo
  | _, _, _, .more ha has => ha.closesUpTo.across rfl (separated_closesUpTo has)

theorem listedPairs_closesUpTo {m : Manner} {b : Bracket} :
    ∀ {pairs : List (Expression × Expression)} {ws rest : List Terminal},
    Listed (SpellsPair m) pairs ws rest → ClosesUpTo b rest ws
  | _, _, _, .none => .refl _
  | _, _, _, .some h => separatedPairs_closesUpTo h

theorem separatedPairs_closesUpTo {m : Manner} {b : Bracket} :
    ∀ {pairs : List (Expression × Expression)} {ws rest : List Terminal},
    Separated (SpellsPair m) pairs ws rest → ClosesUpTo b rest ws
  | _, _, _, .one ha => ha.closesUpTo
  | _, _, _, .more ha has => ha.closesUpTo.across rfl (separatedPairs_closesUpTo has)

theorem SpellsPair.closesUpTo {m : Manner} {b : Bracket} :
    ∀ {pair : Expression × Expression} {ws rest : List Terminal},
    SpellsPair m pair ws rest → ClosesUpTo b rest ws
  | _, _, _, .pair hk hv => hk.closesUpTo.across rfl hv.closesUpTo

theorem SpellsStatement.closesUpTo {m : Manner} {b : Bracket} :
    ∀ {s : Statement} {ws rest : List Terminal},
    SpellsStatement m s ws rest → ClosesUpTo b rest ws
  | _, _, _, .binding he => .cons rfl (.cons rfl (.cons rfl he.closesUpTo))
  | _, _, _, .return he => .cons rfl he.closesUpTo
  | _, _, _, .expression he => he.closesUpTo

theorem SpellsStatements.closesUpTo {m : Manner} {b : Bracket} :
    ∀ {ss : Block} {ws rest : List Terminal},
    SpellsStatements m ss ws rest → ClosesUpTo b rest ws
  | _, _, _, .nil => .refl _
  | _, _, _, .cons hs hend hss => hs.closesUpTo.trans (hend.closesUpTo.trans hss.closesUpTo)

theorem SpellsBlock.closesUpTo {m : Manner} {b : Bracket} :
    ∀ {body : Block} {ws rest : List Terminal},
    SpellsBlock m body ws rest → ClosesUpTo b rest ws
  | _, _, _, .closed h => h.closesUpTo.enclosed .brace
  | _, _, _, .unclosed _ h => h.closesUpTo.unclosed

end

/-- What spells a program closes all its parentheses and brackets, and closes no brace too many. -/
theorem Program.Spelled.surplus {m : Manner} {p : Program} {ws : List Terminal}
    (h : p.Spelled m ws) (b : Bracket) :
    0 ≤ b.surplus (ws.map Terminal.kind) ∧ (b ≠ .brace → b.surplus (ws.map Terminal.kind) = 0) := by
  obtain ⟨_, k, hcount, hend⟩ := SpellsStatements.closesUpTo (b := b) h
  rw [List.map_nil, Bracket.surplus_nil, Int.zero_add] at hcount
  refine ⟨by omega, fun hb => ?_⟩
  by_cases hk : k = 0
  · omega
  · exact absurd (hend hk).1 hb

end Treewalk
