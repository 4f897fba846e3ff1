import Treewalk.Proofs.Run.Sight

namespace Treewalk

/-- What can be asked for from outside. -/
inductive Request where
  | program (p : Program) (scope : ScopeId)
  | call (callee : Value) (arguments : List Value)

namespace Request

def run : Request → Nat → Evaluation Value
  | program p scope, budget => p.run budget scope
  | call callee arguments, budget => callee.call budget arguments

/-- The values that the request brings along. -/
def given : Request → List Value
  | program _ _ => []
  | call callee arguments => callee :: arguments

/-- The scopes that the request itself refers to. -/
def roots : Request → ScopeId → Prop
  | program _ scope, s => s = scope
  | call callee arguments, s => ∃ v ∈ callee :: arguments, v.Refers s

end Request

end Treewalk
