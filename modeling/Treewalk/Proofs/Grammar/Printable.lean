import Treewalk.Proofs.Grammar.Spelling

namespace Treewalk

mutual

/-- Names are those that can be read back, and so are strings; integers are not negative. -/
def Expression.Printable : Expression → Prop
  | .identifier s => IsName s
  | .integer n => 0 ≤ n.toInt
  | .boolean _ => True
  | .string s => IsQuotable s
  | .unary _ e => e.Printable
  | .binary _ a b => a.Printable ∧ b.Printable
  | .conditional c body none => c.Printable ∧ PrintableStatements body
  | .conditional c body (some other) =>
    c.Printable ∧ PrintableStatements body ∧ PrintableStatements other
  | .function parameters body => (∀ s ∈ parameters, IsName s) ∧ PrintableStatements body
  | .call f arguments => f.Printable ∧ PrintableExpressions arguments
  | .array elements => PrintableExpressions elements
  | .index c i => c.Printable ∧ i.Printable
  | .hash pairs => PrintablePairs pairs

def Statement.Printable : Statement → Prop
  | .binding s e => IsName s ∧ e.Printable
  | .return e => e.Printable
  | .expression e => e.Printable

def PrintableStatements : List Statement → Prop
  | [] => True
  | s :: rest => s.Printable ∧ PrintableStatements rest

def PrintableExpressions : List Expression → Prop
  | [] => True
  | e :: rest => e.Printable ∧ PrintableExpressions rest

def PrintablePairs : List (Expression × Expression) → Prop
  | [] => True
  | (key, value) :: rest => key.Printable ∧ value.Printable ∧ PrintablePairs rest

end

def Program.Printable (p : Program) : Prop := PrintableStatements p.statements

theorem printableExpressions_iff {es : List Expression} :
    PrintableExpressions es ↔ ∀ e ∈ es, e.Printable := by
  induction es with
  | nil => simp [PrintableExpressions]
  | cons e es ih => simp [PrintableExpressions, ih]

theorem printablePairs_iff {pairs : List (Expression × Expression)} :
    PrintablePairs pairs ↔ ∀ pair ∈ pairs, pair.1.Printable ∧ pair.2.Printable := by
  induction pairs with
  | nil => simp [PrintablePairs]
  | cons pair pairs ih =>
    obtain ⟨key, value⟩ := pair
    simp [PrintablePairs, ih, and_assoc]

/-- The terminals before `rest` are proper. -/
def ProperUpTo (rest ws : List Terminal) : Prop := ∀ w ∈ ws, w ∈ rest ∨ w.Proper

theorem ProperUpTo.refl (ws : List Terminal) : ProperUpTo ws ws := fun _ h => .inl h

theorem ProperUpTo.trans {a b c : List Terminal} (h : ProperUpTo b a) (h' : ProperUpTo c b) :
    ProperUpTo c a := by
  intro w hw
  rcases h w hw with hb | hp
  · exact h' w hb
  · exact .inr hp

theorem ProperUpTo.cons {w : Terminal} {rest ws : List Terminal} (hw : w.Proper)
    (h : ProperUpTo rest ws) : ProperUpTo rest (w :: ws) := by
  intro v hv
  rcases List.mem_cons.mp hv with rfl | hv
  · exact .inr hw
  · exact h v hv

theorem ProperUpTo.sign {k : TokenKind} {rest ws : List Terminal} (hk : k.spelling.isEmpty = false)
    (h : ProperUpTo rest ws) : ProperUpTo rest (.sign k :: ws) :=
  .cons (List.isEmpty_eq_false_iff.mp hk) h

theorem ProperUpTo.across {k : TokenKind} {rest ws ws' : List Terminal}
    (h : ProperUpTo (.sign k :: ws') ws) (hk : k.spelling.isEmpty = false)
    (h' : ProperUpTo rest ws') : ProperUpTo rest ws :=
  h.trans (.sign hk h')

theorem StatementEnd.properUpTo {m : Manner} {ws rest : List Terminal}
    (h : StatementEnd m ws rest) : ProperUpTo rest ws := by
  cases h with
  | semicolon => exact .sign rfl (.refl _)
  | last _ => exact .refl _
  | omitted _ => exact .refl _

theorem Listed.properUpTo_names {parameters : List String} {ws rest : List Terminal}
    (h : Listed SpellsName parameters ws rest) (hp : ∀ s ∈ parameters, IsName s) :
    ProperUpTo rest ws := by
  cases h with
  | none => exact .refl _
  | some h =>
    induction h with
    | one ha =>
      cases ha
      exact .cons (hp _ (by simp)) (.refl _)
    | more ha _ ih =>
      cases ha
      exact .cons (hp _ (by simp)) (.sign rfl (ih (fun s hs => hp s (by simp [hs]))))

mutual

theorem Spells.properUpTo {m : Manner} :
    ∀ {p : Position} {e : Expression} {ws rest : List Terminal},
    Spells m p e ws rest → e.Printable → ProperUpTo rest ws
  | _, _, _, _, .bare _ h, he => h.properUpTo he
  | _, _, _, _, .enclosed h, he => .sign rfl ((h.properUpTo he).across rfl (.refl _))

theorem SpellsBare.properUpTo {m : Manner} : ∀ {e : Expression} {ws rest : List Terminal},
    SpellsBare m e ws rest → e.Printable → ProperUpTo rest ws
  | _, _, _, .identifier, he => .cons he (.refl _)
  | _, _, _, .integer hd _, _ => .cons hd (.refl _)
  | _, _, _, .truth, _ => .sign rfl (.refl _)
  | _, _, _, .falsehood, _ => .sign rfl (.refl _)
  | _, _, _, .string, he => .cons he (.refl _)
  | _, _, _, .unary he', he => .sign (UnaryOperator.spelling_isEmpty _) (he'.properUpTo he)
  | _, _, _, .binary ha hb, he =>
    (ha.properUpTo he.1).across (BinaryOperator.spelling_isEmpty _) (hb.properUpTo he.2)
  | _, _, _, .conditional hc hbody, he =>
    .sign rfl (.sign rfl ((hc.properUpTo he.1).across rfl (hbody.properUpTo he.2)))
  | _, _, _, .alternative hc hbody hother, he =>
    .sign rfl (.sign rfl ((hc.properUpTo he.1).across rfl
      ((hbody.properUpTo he.2.1).across rfl (hother.properUpTo he.2.2))))
  | _, _, _, .function hp hbody, he =>
    .sign rfl (.sign rfl
      ((hp.properUpTo_names he.1).across rfl (hbody.properUpTo he.2)))
  | _, _, _, .call hf hs, he =>
    (hf.properUpTo he.1).across rfl ((listed_properUpTo hs he.2).across rfl (.refl _))
  | _, _, _, .array hs, he =>
    .sign rfl ((listed_properUpTo hs he).across rfl (.refl _))
  | _, _, _, .index hc hi, he =>
    (hc.properUpTo he.1).across rfl ((hi.properUpTo he.2).across rfl (.refl _))
  | _, _, _, .hash hs, he =>
    .sign rfl ((listedPairs_properUpTo hs he).across rfl (.refl _))

theorem listed_properUpTo {m : Manner} : ∀ {es : List Expression} {ws rest : List Terminal},
    Listed (Spells m .whole) es ws rest → PrintableExpressions es → ProperUpTo rest ws
  | _, _, _, .none, _ => .refl _
  | _, _, _, .some h, he => separated_properUpTo h he

theorem separated_properUpTo {m : Manner} : ∀ {es : List Expression} {ws rest : List Terminal},
    Separated (Spells m .whole) es ws rest → PrintableExpressions es → ProperUpTo rest ws
  | _, _, _, .one ha, he => ha.properUpTo he.1
  | _, _, _, .more ha has, he =>
    (ha.properUpTo he.1).across rfl (separated_properUpTo has he.2)

theorem listedPairs_properUpTo {m : Manner} :
    ∀ {pairs : List (Expression × Expression)} {ws rest : List Terminal},
    Listed (SpellsPair m) pairs ws rest → PrintablePairs pairs → ProperUpTo rest ws
  | _, _, _, .none, _ => .refl _
  | _, _, _, .some h, he => separatedPairs_properUpTo h he

theorem separatedPairs_properUpTo {m : Manner} :
    ∀ {pairs : List (Expression × Expression)} {ws rest : List Terminal},
    Separated (SpellsPair m) pairs ws rest → PrintablePairs pairs → ProperUpTo rest ws
  | _, _, _, .one ha, he => ha.properUpTo ⟨he.1, he.2.1⟩
  | _, _, _, .more ha has, he =>
    (ha.properUpTo ⟨he.1, he.2.1⟩).across rfl (separatedPairs_properUpTo has he.2.2)

theorem SpellsPair.properUpTo {m : Manner} :
    ∀ {pair : Expression × Expression} {ws rest : List Terminal},
    SpellsPair m pair ws rest → pair.1.Printable ∧ pair.2.Printable → ProperUpTo rest ws
  | _, _, _, .pair hk hv, he =>
    (hk.properUpTo he.1).across rfl (hv.properUpTo he.2)

theorem SpellsStatement.properUpTo {m : Manner} : ∀ {s : Statement} {ws rest : List Terminal},
    SpellsStatement m s ws rest → s.Printable → ProperUpTo rest ws
  | _, _, _, .binding he', he =>
    .sign rfl (.cons he.1 (.sign rfl (he'.properUpTo he.2)))
  | _, _, _, .return he', he => .sign rfl (he'.properUpTo he)
  | _, _, _, .expression he', he => he'.properUpTo he

theorem SpellsStatements.properUpTo {m : Manner} : ∀ {ss : Block} {ws rest : List Terminal},
    SpellsStatements m ss ws rest → PrintableStatements ss → ProperUpTo rest ws
  | _, _, _, .nil, _ => .refl _
  | _, _, _, .cons hs hend hss, he =>
    (hs.properUpTo he.1).trans (hend.properUpTo.trans (hss.properUpTo he.2))

theorem SpellsBlock.properUpTo {m : Manner} : ∀ {body : Block} {ws rest : List Terminal},
    SpellsBlock m body ws rest → PrintableStatements body → ProperUpTo rest ws
  | _, _, _, .closed h, he => .sign rfl ((h.properUpTo he).across rfl (.refl _))
  | _, _, _, .unclosed _ h, he => .sign rfl (h.properUpTo he)

end

theorem Program.Spelled.proper {m : Manner} {p : Program} {ws : List Terminal}
    (h : p.Spelled m ws) (hp : p.Printable) : ∀ w ∈ ws, w.Proper := by
  intro w hw
  rcases SpellsStatements.properUpTo h hp w hw with hn | hproper
  · simp at hn
  · exact hproper

end Treewalk
