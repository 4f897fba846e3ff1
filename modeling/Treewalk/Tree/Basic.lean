namespace Treewalk

inductive UnaryOperator where
  | not
  | negate
deriving DecidableEq

inductive BinaryOperator where
  | add
  | subtract
  | multiply
  | divide
  | less
  | greater
  | equal
  | notEqual
deriving DecidableEq

def UnaryOperator.symbol : UnaryOperator → String
  | .not => "!"
  | .negate => "-"

def BinaryOperator.symbol : BinaryOperator → String
  | .add => "+"
  | .subtract => "-"
  | .multiply => "*"
  | .divide => "/"
  | .less => "<"
  | .greater => ">"
  | .equal => "=="
  | .notEqual => "!="

mutual

inductive Expression where
  | identifier (name : String)
  | integer (value : Int64)
  | boolean (value : Bool)
  | string (value : String)
  | unary (operator : UnaryOperator) (operand : Expression)
  | binary (operator : BinaryOperator) (left right : Expression)
  | conditional (condition : Expression) (consequence : List Statement)
      (alternative : Option (List Statement))
  | function (parameters : List String) (body : List Statement)
  | call (callee : Expression) (arguments : List Expression)
  | array (elements : List Expression)
  | index (collection index : Expression)
  | hash (pairs : List (Expression × Expression))

inductive Statement where
  | binding (name : String) (value : Expression)
  | return (value : Expression)
  | expression (value : Expression)

end

/-- The statements between two braces. -/
abbrev Block := List Statement

structure Program where
  statements : List Statement

mutual

/-- Equality of trees, which `same_iff` ties to `=`. -/
def Expression.same : Expression → Expression → Bool
  | .identifier a, .identifier b => a == b
  | .integer a, .integer b => a == b
  | .boolean a, .boolean b => a == b
  | .string a, .string b => a == b
  | .unary p a, .unary q b => p == q && a.same b
  | .binary p a b, .binary q c d => p == q && a.same c && b.same d
  | .conditional a b none, .conditional c d none => a.same c && sameStatements b d
  | .conditional a b (some x), .conditional c d (some y) =>
    a.same c && sameStatements b d && sameStatements x y
  | .function ps a, .function qs b => ps == qs && sameStatements a b
  | .call a xs, .call b ys => a.same b && sameExpressions xs ys
  | .array xs, .array ys => sameExpressions xs ys
  | .index a b, .index c d => a.same c && b.same d
  | .hash xs, .hash ys => samePairs xs ys
  | _, _ => false

def Statement.same : Statement → Statement → Bool
  | .binding x a, .binding y b => x == y && a.same b
  | .return a, .return b => a.same b
  | .expression a, .expression b => a.same b
  | _, _ => false

def sameStatements : List Statement → List Statement → Bool
  | [], [] => true
  | a :: xs, b :: ys => a.same b && sameStatements xs ys
  | _, _ => false

def sameExpressions : List Expression → List Expression → Bool
  | [], [] => true
  | a :: xs, b :: ys => a.same b && sameExpressions xs ys
  | _, _ => false

def samePairs : List (Expression × Expression) → List (Expression × Expression) → Bool
  | [], [] => true
  | (a, b) :: xs, (c, d) :: ys => a.same c && b.same d && samePairs xs ys
  | _, _ => false

end

mutual

theorem Expression.same_iff : ∀ a b : Expression, a.same b = true ↔ a = b
  | .identifier _, b => by cases b <;> simp [Expression.same]
  | .integer _, b => by cases b <;> simp [Expression.same]
  | .boolean _, b => by cases b <;> simp [Expression.same]
  | .string _, b => by cases b <;> simp [Expression.same]
  | .unary _ x, b => by cases b <;> simp [Expression.same, x.same_iff]
  | .binary _ x y, b => by cases b <;> simp [Expression.same, x.same_iff, y.same_iff, and_assoc]
  | .conditional x s none, b => by
    cases b with
    | conditional y t alternative =>
      cases alternative <;> simp [Expression.same, x.same_iff, sameStatements_iff s]
    | _ => simp [Expression.same]
  | .conditional x s (some r), b => by
    cases b with
    | conditional y t alternative =>
      cases alternative <;>
        simp [Expression.same, x.same_iff, sameStatements_iff s, sameStatements_iff r, and_assoc]
    | _ => simp [Expression.same]
  | .function _ s, b => by cases b <;> simp [Expression.same, sameStatements_iff s]
  | .call x xs, b => by cases b <;> simp [Expression.same, x.same_iff, sameExpressions_iff xs]
  | .array xs, b => by cases b <;> simp [Expression.same, sameExpressions_iff xs]
  | .index x y, b => by cases b <;> simp [Expression.same, x.same_iff, y.same_iff]
  | .hash xs, b => by cases b <;> simp [Expression.same, samePairs_iff xs]

theorem Statement.same_iff : ∀ a b : Statement, a.same b = true ↔ a = b
  | .binding _ x, b => by cases b <;> simp [Statement.same, x.same_iff]
  | .return x, b => by cases b <;> simp [Statement.same, x.same_iff]
  | .expression x, b => by cases b <;> simp [Statement.same, x.same_iff]

theorem sameStatements_iff : ∀ xs ys : List Statement, sameStatements xs ys = true ↔ xs = ys
  | [], ys => by cases ys <;> simp [sameStatements]
  | x :: xs, ys => by cases ys <;> simp [sameStatements, x.same_iff, sameStatements_iff xs]

theorem sameExpressions_iff : ∀ xs ys : List Expression, sameExpressions xs ys = true ↔ xs = ys
  | [], ys => by cases ys <;> simp [sameExpressions]
  | x :: xs, ys => by cases ys <;> simp [sameExpressions, x.same_iff, sameExpressions_iff xs]

theorem samePairs_iff :
    ∀ xs ys : List (Expression × Expression), samePairs xs ys = true ↔ xs = ys
  | [], ys => by cases ys <;> simp [samePairs]
  | (x, y) :: xs, [] => by simp [samePairs]
  | (x, y) :: xs, (z, w) :: ys => by
    simp [samePairs, x.same_iff, y.same_iff, samePairs_iff xs]

end

instance : DecidableEq Expression := fun a b => decidable_of_iff _ (a.same_iff b)

instance : DecidableEq Statement := fun a b => decidable_of_iff _ (a.same_iff b)

instance : DecidableEq Program := fun ⟨a⟩ ⟨b⟩ =>
  decidable_of_iff (a = b) (by simp)

instance : Inhabited Expression := ⟨.array []⟩

instance : Inhabited Statement := ⟨.expression default⟩

end Treewalk
