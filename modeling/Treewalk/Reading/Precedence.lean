import Treewalk.Token.Basic

namespace Treewalk

/-- How tightly operators bind their operands. -/
inductive Precedence where
  | lowest
  | equals
  | lessGreater
  | sum
  | product
  | unary
  | call
  | index
deriving DecidableEq

namespace Precedence

def rank : Precedence → Nat
  | lowest => 0
  | equals => 1
  | lessGreater => 2
  | sum => 3
  | product => 4
  | unary => 5
  | call => 6
  | index => 7

def name : Precedence → String
  | lowest => "Lowest"
  | equals => "Equals"
  | lessGreater => "LessGreater"
  | sum => "Sum"
  | product => "Product"
  | unary => "Prefix"
  | call => "Call"
  | index => "Index"

instance : LT Precedence := ⟨fun p q => p.rank < q.rank⟩

instance (p q : Precedence) : Decidable (p < q) := inferInstanceAs (Decidable (p.rank < q.rank))

theorem lt_iff_rank {p q : Precedence} : p < q ↔ p.rank < q.rank := Iff.rfl

/-- How tightly a token binds the operand before it. A token that continues no expression binds
lowest. -/
def of : TokenKind → Precedence
  | .equal | .notEqual => equals
  | .less | .greater => lessGreater
  | .plus | .minus => sum
  | .asterisk | .slash => product
  | .leftParen => call
  | .leftBracket => index
  | _ => lowest

end Precedence

end Treewalk
