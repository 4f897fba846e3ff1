import Treewalk.Run.Evaluate

namespace Treewalk

inductive Ty where
  | integer
  | boolean
  | string
  | function (parameters : List Ty) (result : Ty)

/-- The type of what the operator makes of an operand of a type. -/
def UnaryOperator.type? : UnaryOperator → Ty → Option Ty
  | .not, _ => some .boolean
  | .negate, .integer => some .integer
  | .negate, _ => none

def BinaryOperator.type? : BinaryOperator → Ty → Ty → Option Ty
  | .add, .integer, .integer => some .integer
  | .add, .string, .string => some .string
  | .subtract, .integer, .integer => some .integer
  | .multiply, .integer, .integer => some .integer
  | .divide, .integer, .integer => some .integer
  | .less, .integer, .integer => some .boolean
  | .greater, .integer, .integer => some .boolean
  | .equal, .integer, .integer => some .boolean
  | .equal, .boolean, .boolean => some .boolean
  | .notEqual, .integer, .integer => some .boolean
  | .notEqual, .boolean, .boolean => some .boolean
  | _, _, _ => none

mutual

/-- The expression has the type where the known names have been bound. `T` is the type of each name.
A built-in function has none, and there is no rule for collections, for an `if` without an `else`
and for a `return`. -/
inductive Expression.HasType (T : String → Ty) : List String → Expression → Ty → Prop where
  | identifier {known : List String} {name : String} (h : name ∈ known) :
    Expression.HasType T known (.identifier name) (T name)
  | integer {known : List String} (n : Int64) : Expression.HasType T known (.integer n) .integer
  | boolean {known : List String} (b : Bool) : Expression.HasType T known (.boolean b) .boolean
  | string {known : List String} (s : String) : Expression.HasType T known (.string s) .string
  | unary {known : List String} {o : UnaryOperator} {e : Expression} {σ τ : Ty}
      (he : Expression.HasType T known e σ) (ho : o.type? σ = some τ) :
    Expression.HasType T known (.unary o e) τ
  | binary {known : List String} {o : BinaryOperator} {a b : Expression} {σ ρ τ : Ty}
      (ha : Expression.HasType T known a σ) (hb : Expression.HasType T known b ρ)
      (ho : o.type? σ ρ = some τ) : Expression.HasType T known (.binary o a b) τ
  | conditional {known : List String} {c : Expression} {body other : Block} {σ τ : Ty}
      (hc : Expression.HasType T known c σ) (hbody : StatementsHaveType T known body (some τ))
      (hother : StatementsHaveType T known other (some τ)) :
    Expression.HasType T known (.conditional c body (some other)) τ
  | function {known parameters : List String} {body : Block} {τ : Ty}
      (hbody : StatementsHaveType T (parameters ++ known) body (some τ)) :
    Expression.HasType T known (.function parameters body) (.function (parameters.map T) τ)
  | call {known : List String} {f : Expression} {arguments : List Expression} {σs : List Ty}
      {τ : Ty} (hf : Expression.HasType T known f (.function σs τ))
      (ha : ArgumentsHaveType T known arguments σs) :
    Expression.HasType T known (.call f arguments) τ

inductive ArgumentsHaveType (T : String → Ty) :
    List String → List Expression → List Ty → Prop where
  | nil {known : List String} : ArgumentsHaveType T known [] []
  | cons {known : List String} {e : Expression} {es : List Expression} {σ : Ty} {σs : List Ty}
      (he : Expression.HasType T known e σ) (hes : ArgumentsHaveType T known es σs) :
    ArgumentsHaveType T known (e :: es) (σ :: σs)

/-- The statements are well typed, and end in an expression of the type if there is one. A `let`
makes its name known to the statements after it, and to those only. -/
inductive StatementsHaveType (T : String → Ty) :
    List String → List Statement → Option Ty → Prop where
  | nil {known : List String} : StatementsHaveType T known [] none
  | last {known : List String} {e : Expression} {τ : Ty} (he : Expression.HasType T known e τ) :
    StatementsHaveType T known [.expression e] (some τ)
  | binding {known : List String} {name : String} {e : Expression} {rest : List Statement}
      {τ : Option Ty} (he : Expression.HasType T known e (T name))
      (hrest : StatementsHaveType T (name :: known) rest τ) :
    StatementsHaveType T known (.binding name e :: rest) τ
  | expression {known : List String} {e : Expression} {rest : List Statement} {σ : Ty}
      {τ : Option Ty} (he : Expression.HasType T known e σ) (hne : rest ≠ [])
      (hrest : StatementsHaveType T known rest τ) :
    StatementsHaveType T known (.expression e :: rest) τ

end

end Treewalk
