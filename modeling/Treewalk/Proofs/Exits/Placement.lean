import Treewalk.Proofs.Run.Fitting

namespace Treewalk

mutual

/-- A `return` occurs in the expression, outside of function literals. -/
def Expression.returns : Expression → Bool
  | .unary _ e => e.returns
  | .binary _ a b => a.returns || b.returns
  | .conditional c body none => c.returns || blockReturns body
  | .conditional c body (some other) => c.returns || blockReturns body || blockReturns other
  | .call f arguments => f.returns || listReturns arguments
  | .array elements => listReturns elements
  | .index c i => c.returns || i.returns
  | .hash pairs => pairsReturn pairs
  | _ => false

def Statement.returns : Statement → Bool
  | .binding _ e => e.returns
  | .return _ => true
  | .expression e => e.returns

def blockReturns : List Statement → Bool
  | [] => false
  | s :: rest => s.returns || blockReturns rest

def listReturns : List Expression → Bool
  | [] => false
  | e :: rest => e.returns || listReturns rest

def pairsReturn : List (Expression × Expression) → Bool
  | [] => false
  | (k, e) :: rest => k.returns || e.returns || pairsReturn rest

end

mutual

/-- Every `if` in which a `return` occurs is the whole of a statement, also in function literals;
`whole` tells whether the expression itself is. An `if` may also be an operand, and a `return`
inside of that would be in the middle of a computation. -/
def Expression.placed (whole : Bool) : Expression → Bool
  | .unary _ e => e.placed false
  | .binary _ a b => a.placed false && b.placed false
  | .conditional c body none =>
    (whole || !(Expression.conditional c body none).returns) && c.placed false && blockPlaced body
  | .conditional c body (some other) =>
    (whole || !(Expression.conditional c body (some other)).returns) && c.placed false &&
      blockPlaced body && blockPlaced other
  | .function _ body => blockPlaced body
  | .call f arguments => f.placed false && listPlaced arguments
  | .array elements => listPlaced elements
  | .index c i => c.placed false && i.placed false
  | .hash pairs => pairsPlaced pairs
  | _ => true

def Statement.placed : Statement → Bool
  | .binding _ e => e.placed false
  | .return e => e.placed false
  | .expression e => e.placed true

def blockPlaced : List Statement → Bool
  | [] => true
  | s :: rest => s.placed && blockPlaced rest

def listPlaced : List Expression → Bool
  | [] => true
  | e :: rest => e.placed false && listPlaced rest

def pairsPlaced : List (Expression × Expression) → Bool
  | [] => true
  | (k, e) :: rest => k.placed false && e.placed false && pairsPlaced rest

end

mutual

/-- No `return` occurs in an operand. -/
theorem Expression.returns_of_placed : ∀ {e : Expression}, e.placed false = true →
    e.returns = false
  | .unary _ e, h => e.returns_of_placed h
  | .binary _ a b, h => by
    obtain ⟨ha, hb⟩ := Bool.and_eq_true_iff.mp h
    simp [Expression.returns, a.returns_of_placed ha, b.returns_of_placed hb]
  | .conditional c body none, h => by
    simp only [Expression.placed, Bool.and_eq_true, Bool.false_or, Bool.not_eq_true'] at h
    exact h.1.1
  | .conditional c body (some other), h => by
    simp only [Expression.placed, Bool.and_eq_true, Bool.false_or, Bool.not_eq_true'] at h
    exact h.1.1.1
  | .call f arguments, h => by
    obtain ⟨hf, ha⟩ := Bool.and_eq_true_iff.mp h
    simp [Expression.returns, f.returns_of_placed hf, listReturns_of_placed ha]
  | .array elements, h => listReturns_of_placed h
  | .index c i, h => by
    obtain ⟨hc, hi⟩ := Bool.and_eq_true_iff.mp h
    simp [Expression.returns, c.returns_of_placed hc, i.returns_of_placed hi]
  | .hash pairs, h => pairsReturn_of_placed h
  | .identifier _, _ | .integer _, _ | .boolean _, _ | .string _, _ | .function _ _, _ => rfl

theorem listReturns_of_placed : ∀ {es : List Expression}, listPlaced es = true →
    listReturns es = false
  | [], _ => rfl
  | e :: rest, h => by
    obtain ⟨he, hrest⟩ := Bool.and_eq_true_iff.mp h
    simp [listReturns, e.returns_of_placed he, listReturns_of_placed hrest]

theorem pairsReturn_of_placed : ∀ {pairs : List (Expression × Expression)},
    pairsPlaced pairs = true → pairsReturn pairs = false
  | [], _ => rfl
  | (k, e) :: rest, h => by
    obtain ⟨hke, hrest⟩ := Bool.and_eq_true_iff.mp h
    obtain ⟨hk, he⟩ := Bool.and_eq_true_iff.mp hke
    simp [pairsReturn, k.returns_of_placed hk, e.returns_of_placed he, pairsReturn_of_placed hrest]

end

/-- The value is no marker, and if it is a function its body is placed. -/
def Value.Placed : Value → Prop
  | .returned _ => False
  | .function _ _ body _ => blockPlaced body = true
  | _ => True

theorem lenient_placed : Lenient Value.Placed := by
  refine ⟨fun v hv => ?_, fun _ _ => trivial, fun _ _ => trivial⟩
  cases v with
  | returned _ | function _ _ _ _ => contradiction
  | _ => trivial

end Treewalk
