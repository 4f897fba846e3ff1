import Mathlib.Data.Int.ModEq
import Treewalk.Run.Evaluate

namespace Treewalk

open Evaluation

/-- The number from -2^63 to 2^63 - 1 that is congruent to the number given modulo 2^64. -/
def wrapped (z : Int) : Int := z.bmod (2 ^ 64)

theorem wrapped_eq_iff {z k : Int} :
    wrapped z = k ↔ -2 ^ 63 ≤ k ∧ k < 2 ^ 63 ∧ k ≡ z [ZMOD 2 ^ 64] := by
  have hmod : wrapped z ≡ z [ZMOD 2 ^ 64] := Int.bmod_emod
  constructor
  · rintro rfl
    refine ⟨?_, ?_, hmod⟩
    · have hle := Int.le_bmod (x := z) (m := 2 ^ 64) (by decide)
      rw [wrapped]
      omega
    · have hlt := Int.bmod_lt (x := z) (m := 2 ^ 64) (by decide)
      rw [wrapped]
      omega
  · rintro ⟨hle, hlt, hk⟩
    have heq : k.bmod (2 ^ 64) = z.bmod (2 ^ 64) := by
      rw [← Int.emod_bmod k, ← Int.emod_bmod z]
      exact congrArg (Int.bmod · (2 ^ 64)) hk
    rw [wrapped, ← heq, Int.bmod_eq_of_le (by omega) (by omega)]

theorem toInt_ofInt (z : Int) : (Int64.ofInt z).toInt = wrapped z := Int64.toInt_ofInt

inductive Operation where
  | add
  | subtract
  | multiply
  | divide
deriving DecidableEq

namespace Operation

def operator : Operation → BinaryOperator
  | add => .add
  | subtract => .subtract
  | multiply => .multiply
  | divide => .divide

/-- The exact result, but for a division, of which the operands are wrapped. -/
def exact : Operation → Int → Int → Int
  | add, x, y => x + y
  | subtract, x, y => x - y
  | multiply, x, y => x * y
  | divide, x, y => (wrapped x).tdiv (wrapped y)

end Operation

/-- Trees of literals, signs and operations. -/
inductive Calculation where
  | literal (n : Nat) (h : n < 2 ^ 63)
  | negated (a : Calculation)
  | combined (operation : Operation) (a b : Calculation)

namespace Calculation

def toExpression : Calculation → Expression
  | literal n _ => .integer (Int64.ofNat n)
  | negated a => .unary .negate a.toExpression
  | combined operation a b => .binary operation.operator a.toExpression b.toExpression

def height : Calculation → Nat
  | literal _ _ => 1
  | negated a => a.height + 1
  | combined _ a b => max a.height b.height + 1

/-- The exact value, as long as there is no division. -/
def value : Calculation → Int
  | literal n _ => n
  | negated a => -a.value
  | combined operation a b => operation.exact a.value b.value

/-- What is divided by, in the order of evaluation. -/
def divisors : Calculation → List Calculation
  | literal _ _ => []
  | negated a => a.divisors
  | combined .divide a b => a.divisors ++ b.divisors ++ [b]
  | combined _ a b => a.divisors ++ b.divisors

/-- No divisor is zero. -/
def Defined (c : Calculation) : Prop := ∀ d ∈ c.divisors, wrapped d.value ≠ 0

theorem defined_combined {operation : Operation} {a b : Calculation} :
    (combined operation a b).Defined ↔
      a.Defined ∧ b.Defined ∧ (operation = .divide → wrapped b.value ≠ 0) := by
  cases operation <;> simp [Defined, divisors, or_imp, forall_and]

end Calculation

/-- The operators on wrapped operands. -/
theorem Operation.applyIntegers_ofInt (o : Operation) (x y : Int) :
    o.operator.applyIntegers (Int64.ofInt x) (Int64.ofInt y) =
      if o = .divide ∧ wrapped y = 0 then .error .divisionByZero
      else .ok (.integer (Int64.ofInt (o.exact x y))) := by
  cases o with
  | add => simp [operator, BinaryOperator.applyIntegers, exact, Int64.ofInt_add]
  | subtract => simp [operator, BinaryOperator.applyIntegers, exact, Int64.ofInt_sub]
  | multiply => simp [operator, BinaryOperator.applyIntegers, exact, Int64.ofInt_mul]
  | divide =>
    have hzero : Int64.ofInt y = 0 ↔ wrapped y = 0 := by
      rw [← Int64.toInt_inj, toInt_ofInt]
      rfl
    have hquotient : Int64.ofInt x / Int64.ofInt y =
        Int64.ofInt ((wrapped x).tdiv (wrapped y)) := by
      rw [← Int64.toInt_inj, Int64.toInt_div, toInt_ofInt, toInt_ofInt, toInt_ofInt]
      rfl
    simp only [operator, BinaryOperator.applyIntegers, exact, hzero, hquotient, true_and]

namespace Calculation

variable {c : Calculation} {budget : Nat}

/-- What a calculation evaluates to; the machine stays as it is. -/
theorem evaluate_eq (h : c.height ≤ budget) (scope : ScopeId) (m : Machine) :
    (c.Defined → evaluate budget scope c.toExpression m =
      (.done (.integer (Int64.ofInt c.value)), m)) ∧
    (¬ c.Defined → evaluate budget scope c.toExpression m = (.failed .divisionByZero, m)) := by
  induction c generalizing budget with
  | literal n hn =>
    obtain ⟨n, rfl⟩ := Nat.exists_eq_succ_of_ne_zero (Nat.ne_of_gt h)
    refine ⟨fun _ => ?_, fun hnot => absurd (fun d hd => by cases hd) hnot⟩
    rw [value, Int64.ofInt_eq_ofNat]
    rfl
  | negated a ih =>
    obtain ⟨n, rfl⟩ := Nat.exists_eq_succ_of_ne_zero (Nat.ne_zero_of_lt h)
    obtain ⟨hdone, hfailed⟩ := ih (Nat.le_of_succ_le_succ h)
    refine ⟨fun hdefined => ?_, fun hnot => bind_of_failed (hfailed hnot)⟩
    rw [value, Int64.ofInt_neg]
    exact bind_of_done (hdone hdefined)
  | combined operation a b iha ihb =>
    obtain ⟨n, rfl⟩ := Nat.exists_eq_succ_of_ne_zero (Nat.ne_zero_of_lt h)
    have hle : max a.height b.height ≤ n := Nat.le_of_succ_le_succ h
    obtain ⟨hdone, hfailed⟩ := iha (Nat.le_trans (Nat.le_max_left _ _) hle)
    obtain ⟨hdone', hfailed'⟩ := ihb (Nat.le_trans (Nat.le_max_right _ _) hle)
    rw [defined_combined, toExpression, evaluate, evalNode]
    by_cases ha : a.Defined
    · rw [bind_of_done (hdone ha)]
      by_cases hb : b.Defined
      · -- Both sides have values; only the operation itself can fail now.
        rw [bind_of_done (hdone' hb), BinaryOperator.apply, operation.applyIntegers_ofInt]
        by_cases hzero : operation = .divide ∧ wrapped b.value = 0
        · rw [if_pos hzero]
          exact ⟨fun hdefined => absurd hzero.2 (hdefined.2.2 hzero.1), fun _ => rfl⟩
        · rw [if_neg hzero]
          exact ⟨fun _ => rfl, fun hnot => absurd ⟨ha, hb, not_and.mp hzero⟩ hnot⟩
      · rw [bind_of_failed (hfailed' hb)]
        exact ⟨fun hdefined => absurd hdefined.2.1 hb, fun _ => rfl⟩
    · rw [bind_of_failed (hfailed ha)]
      exact ⟨fun hdefined => absurd hdefined.1 ha, fun _ => rfl⟩

/-- The first of the divisors that is zero. -/
theorem not_defined_iff : ¬ c.Defined ↔ ∃ before d after, c.divisors = before ++ d :: after ∧
    (∀ b ∈ before, wrapped b.value ≠ 0) ∧ wrapped d.value = 0 := by
  constructor
  · intro hnot
    have hsome : (c.divisors.find? (fun d => wrapped d.value = 0)).isSome := by
      simpa [Defined] using hnot
    obtain ⟨d, hd⟩ := Option.isSome_iff_exists.mp hsome
    obtain ⟨hzero, before, after, hsplit, hbefore⟩ := List.find?_eq_some_iff_append.mp hd
    exact ⟨before, d, after, hsplit, by simpa using hbefore, by simpa using hzero⟩
  · rintro ⟨before, d, after, hsplit, _, hzero⟩ hdefined
    exact hdefined d (by simp [hsplit]) hzero

end Calculation

/-- In any machine, a calculation without divisions evaluates to the one number of 64 bits that is
congruent to its exact value; with divisions it fails exactly if one of the divisors, in the order of
evaluation, is zero itself, and else it has the number congruent to its value with quotients of
wrapped numbers. Nothing is bound, and nothing is recorded. -/
theorem calculation_wraps (c : Calculation) {budget : Nat} (h : c.height ≤ budget) (scope : ScopeId)
    (m : Machine) :
    ((∀ d ∈ c.divisors, wrapped d.value ≠ 0) → ∃ n : Int64,
      evaluate budget scope c.toExpression m = (.done (.integer n), m) ∧
      ∀ k : Int, k = n.toInt ↔ -2 ^ 63 ≤ k ∧ k < 2 ^ 63 ∧ k ≡ c.value [ZMOD 2 ^ 64]) ∧
    (evaluate budget scope c.toExpression m = (.failed .divisionByZero, m) ↔
      ∃ before d after, c.divisors = before ++ d :: after ∧
        (∀ b ∈ before, wrapped b.value ≠ 0) ∧ wrapped d.value = 0) := by
  obtain ⟨hdone, hfailed⟩ := Calculation.evaluate_eq h scope m
  refine ⟨fun hdefined => ⟨_, hdone hdefined, fun k => ?_⟩, ?_⟩
  · rw [toInt_ofInt, eq_comm]
    exact wrapped_eq_iff
  · rw [← Calculation.not_defined_iff]
    refine ⟨fun heq hdefined => ?_, hfailed⟩
    rw [hdone hdefined] at heq
    cases heq

/-- The largest literal and one more, divided by minus one: the sum wraps to -2^63, the quotient is
2^63, and wraps again. -/
def overflowing : Calculation :=
  .combined .divide (.combined .add (.literal (2 ^ 63 - 1) (by decide)) (.literal 1 (by decide)))
    (.negated (.literal 1 (by decide)))

theorem calculation_wraps_overflowing :
    overflowing.height ≤ 3 ∧ (∀ d ∈ overflowing.divisors, wrapped d.value ≠ 0) ∧
      evaluate 3 0 overflowing.toExpression (.ofMemory .empty) =
        (.done (.integer Int64.minValue), .ofMemory .empty) := by
  have hheight : overflowing.height ≤ 3 := by decide
  have hdivisors : ∀ d ∈ overflowing.divisors, wrapped d.value ≠ 0 := by
    intro d hd
    obtain rfl := List.mem_singleton.mp hd
    decide
  have hmod : Int64.minValue.toInt ≡ overflowing.value [ZMOD 2 ^ 64] := by decide
  obtain ⟨n, hdone, hn⟩ := (calculation_wraps overflowing hheight 0 (.ofMemory .empty)).1 hdivisors
  have hmin : Int64.minValue.toInt = n.toInt := (hn _).mpr ⟨by decide, by decide, hmod⟩
  exact ⟨hheight, hdivisors, by rw [hdone, Int64.toInt_inj.mp hmin]⟩

end Treewalk
