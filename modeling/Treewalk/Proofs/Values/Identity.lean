import Treewalk.Run.Operators

namespace Treewalk

namespace Value

variable {a b c : Value}

/-- The stamp of a function, an array or a hash; other values have none. -/
def stamp? : Value → Option Nat
  | function n _ _ _ => some n
  | array n _ => some n
  | hash n _ => some n
  | _ => none

/-- The value equals itself. Two strings cannot be compared, and errors and markers equal nothing. -/
def isComparable : Value → Bool
  | string _ | returned _ | error _ => false
  | _ => true

theorem identical_self (h : a.isComparable = true) : a.identical a = true := by
  cases a <;> first | contradiction | simp [identical]

theorem identical_comm (a b : Value) : a.identical b = b.identical a := by
  cases a <;> cases b <;> first | rfl | exact Bool.beq_comm

theorem identical_trans (hab : a.identical b = true) (hbc : b.identical c = true) :
    a.identical c = true := by
  cases a <;> cases b <;> first | contradiction | skip
  all_goals
    cases c <;> first | contradiction | skip
  all_goals
    simp only [identical, beq_iff_eq] at hab hbc ⊢
  all_goals
    exact hab.trans hbc

theorem tag_eq_of_identical (h : a.identical b = true) : a.tag = b.tag := by
  cases a <;> cases b <;> first | rfl | contradiction

/-- Of two functions, two arrays or two hashes the stamps decide. -/
theorem identical_iff_stamp? (htag : a.tag = b.tag) (ha : a.stamp?.isSome = true) :
    a.identical b = true ↔ a.stamp? = b.stamp? := by
  cases a <;> first | contradiction | skip
  all_goals
    cases b <;> first | contradiction | skip
  all_goals
    simp [identical, stamp?]

theorem stamp?_eq_of_identical (h : a.identical b = true) : a.stamp? = b.stamp? := by
  cases hstamp : a.stamp?.isSome with
  | true => exact (identical_iff_stamp? (tag_eq_of_identical h) hstamp).mp h
  | false => cases a <;> cases b <;> first | contradiction | rfl

end Value

namespace BinaryOperator

variable {a b : Value}

/-- The two operators on operands of which not both are strings. -/
theorem equal_apply (h : a.tag ≠ .string ∨ b.tag ≠ .string) :
    equal.apply a b = .ok (.boolean (a.identical b)) ∧
      notEqual.apply a b = .ok (.boolean (!a.identical b)) := by
  cases a <;> cases b <;> first | exact ⟨rfl, rfl⟩ | simp [Value.tag] at h

end BinaryOperator

end Treewalk
