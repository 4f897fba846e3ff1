import Treewalk.Proofs.Grammar.Terminals
import Treewalk.Reading.Precedence
import Treewalk.Tree.Basic

namespace Treewalk

def UnaryOperator.kind : UnaryOperator → TokenKind
  | .not => .bang
  | .negate => .minus

def BinaryOperator.kind : BinaryOperator → TokenKind
  | .add => .plus
  | .subtract => .minus
  | .multiply => .asterisk
  | .divide => .slash
  | .less => .less
  | .greater => .greater
  | .equal => .equal
  | .notEqual => .notEqual

def BinaryOperator.precedence (o : BinaryOperator) : Precedence := .of o.kind

theorem BinaryOperator.precedence_lt_unary (o : BinaryOperator) : o.precedence < .unary := by
  cases o <;> decide

theorem UnaryOperator.spelling_isEmpty (o : UnaryOperator) :
    o.kind.spelling.isEmpty = false := by
  cases o <;> rfl

theorem BinaryOperator.spelling_isEmpty (o : BinaryOperator) :
    o.kind.spelling.isEmpty = false := by
  cases o <;> rfl

/-- Where an expression stands: between delimiters, beside a binary operator, behind a unary one, or
before the bracket of a call or an index. -/
inductive Position where
  | whole
  | leftOf (o : BinaryOperator)
  | rightOf (o : BinaryOperator)
  | operand
  | applied

/-- Whether an expression may stand there without parentheses around it. -/
def Position.Admits : Position → Expression → Prop
  | leftOf o, .binary p _ _ => ¬ p.precedence < o.precedence
  | rightOf o, .binary p _ _ => o.precedence < p.precedence
  | operand, .binary .. => False
  | applied, .binary .. => False
  | applied, .unary .. => False
  | _, _ => True

/-- How a text ends its statements and blocks. A tidy one leaves out a semicolon only before a
closing brace or at the very end. A loose one may leave out any semicolon, and at the very end the
braces of the blocks that are still open. -/
inductive Manner where
  | tidy
  | loose

/-- What follows a statement. -/
inductive StatementEnd (m : Manner) : List Terminal → List Terminal → Prop where
  | semicolon {rest : List Terminal} : StatementEnd m (.sign .semicolon :: rest) rest
  | last {rest : List Terminal} (h : rest = [] ∨ leadingKind rest = .rightBrace) :
    StatementEnd m rest rest
  | omitted {rest : List Terminal} (h : m = .loose) : StatementEnd m rest rest

section
variable {α : Type} (item : α → List Terminal → List Terminal → Prop)

/-- One or more items with commas between them. -/
inductive Separated : List α → List Terminal → List Terminal → Prop where
  | one {a : α} {ws rest : List Terminal} (ha : item a ws rest) : Separated [a] ws rest
  | more {a : α} {as : List α} {ws ws' rest : List Terminal} (ha : item a ws (.sign .comma :: ws'))
      (has : Separated as ws' rest) : Separated (a :: as) ws rest

inductive Listed : List α → List Terminal → List Terminal → Prop where
  | none {rest : List Terminal} : Listed [] rest rest
  | some {as : List α} {ws rest : List Terminal} (h : Separated item as ws rest) : Listed as ws rest

end

inductive SpellsName : String → List Terminal → List Terminal → Prop where
  | name {s : String} {rest : List Terminal} : SpellsName s (.name s :: rest) rest

/-- The number that decimal digits stand for. -/
def numeralValue (digits : String) : Nat := Nat.ofDigitChars 10 digits.toList 0

mutual

/-- `Spells m p e ws rest` says that `ws` spells `e` at the position `p` and then goes on with
`rest`. Parentheses may enclose any expression; without them, it must be admitted there. -/
inductive Spells (m : Manner) : Position → Expression → List Terminal → List Terminal → Prop where
  | bare {p : Position} {e : Expression} {ws rest : List Terminal} (hp : p.Admits e)
      (h : SpellsBare m e ws rest) : Spells m p e ws rest
  | enclosed {p : Position} {e : Expression} {ws rest : List Terminal}
      (h : Spells m .whole e ws (.sign .rightParen :: rest)) :
    Spells m p e (.sign .leftParen :: ws) rest

/-- Without parentheses around the whole. -/
inductive SpellsBare (m : Manner) : Expression → List Terminal → List Terminal → Prop where
  | identifier {s : String} {rest : List Terminal} :
    SpellsBare m (.identifier s) (.name s :: rest) rest
  | integer {n : Int64} {digits : String} {rest : List Terminal} (hd : IsNumeral digits)
      (hn : n.toInt = numeralValue digits) :
    SpellsBare m (.integer n) (.number digits :: rest) rest
  | truth {rest : List Terminal} : SpellsBare m (.boolean true) (.sign .trueWord :: rest) rest
  | falsehood {rest : List Terminal} : SpellsBare m (.boolean false) (.sign .falseWord :: rest) rest
  | string {s : String} {rest : List Terminal} :
    SpellsBare m (.string s) (.quoted s :: rest) rest
  | unary {o : UnaryOperator} {e : Expression} {ws rest : List Terminal}
      (he : Spells m .operand e ws rest) :
    SpellsBare m (.unary o e) (.sign o.kind :: ws) rest
  | binary {o : BinaryOperator} {a b : Expression} {ws ws' rest : List Terminal}
      (ha : Spells m (.leftOf o) a ws (.sign o.kind :: ws'))
      (hb : Spells m (.rightOf o) b ws' rest) :
    SpellsBare m (.binary o a b) ws rest
  | conditional {c : Expression} {body : Block} {ws ws' rest : List Terminal}
      (hc : Spells m .whole c ws (.sign .rightParen :: ws')) (hbody : SpellsBlock m body ws' rest) :
    SpellsBare m (.conditional c body none) (.sign .ifWord :: .sign .leftParen :: ws) rest
  | alternative {c : Expression} {body other : Block} {ws ws' ws'' rest : List Terminal}
      (hc : Spells m .whole c ws (.sign .rightParen :: ws'))
      (hbody : SpellsBlock m body ws' (.sign .elseWord :: ws''))
      (hother : SpellsBlock m other ws'' rest) :
    SpellsBare m (.conditional c body (some other)) (.sign .ifWord :: .sign .leftParen :: ws) rest
  | function {parameters : List String} {body : Block} {ws ws' rest : List Terminal}
      (hp : Listed SpellsName parameters ws (.sign .rightParen :: ws'))
      (hbody : SpellsBlock m body ws' rest) :
    SpellsBare m (.function parameters body) (.sign .functionWord :: .sign .leftParen :: ws) rest
  | call {f : Expression} {arguments : List Expression} {ws ws' rest : List Terminal}
      (hf : Spells m .applied f ws (.sign .leftParen :: ws'))
      (hs : Listed (Spells m .whole) arguments ws' (.sign .rightParen :: rest)) :
    SpellsBare m (.call f arguments) ws rest
  | array {elements : List Expression} {ws rest : List Terminal}
      (hs : Listed (Spells m .whole) elements ws (.sign .rightBracket :: rest)) :
    SpellsBare m (.array elements) (.sign .leftBracket :: ws) rest
  | index {c i : Expression} {ws ws' rest : List Terminal}
      (hc : Spells m .applied c ws (.sign .leftBracket :: ws'))
      (hi : Spells m .whole i ws' (.sign .rightBracket :: rest)) :
    SpellsBare m (.index c i) ws rest
  | hash {pairs : List (Expression × Expression)} {ws rest : List Terminal}
      (hs : Listed (SpellsPair m) pairs ws (.sign .rightBrace :: rest)) :
    SpellsBare m (.hash pairs) (.sign .leftBrace :: ws) rest

inductive SpellsPair (m : Manner) :
    Expression × Expression → List Terminal → List Terminal → Prop where
  | pair {key value : Expression} {ws ws' rest : List Terminal}
      (hk : Spells m .whole key ws (.sign .colon :: ws')) (hv : Spells m .whole value ws' rest) :
    SpellsPair m (key, value) ws rest

/-- Without the semicolon behind it. -/
inductive SpellsStatement (m : Manner) : Statement → List Terminal → List Terminal → Prop where
  | binding {s : String} {e : Expression} {ws rest : List Terminal}
      (he : Spells m .whole e ws rest) :
    SpellsStatement m (.binding s e) (.sign .letWord :: .name s :: .sign .assign :: ws) rest
  | return {e : Expression} {ws rest : List Terminal} (he : Spells m .whole e ws rest) :
    SpellsStatement m (.return e) (.sign .returnWord :: ws) rest
  | expression {e : Expression} {ws rest : List Terminal} (he : Spells m .whole e ws rest) :
    SpellsStatement m (.expression e) ws rest

inductive SpellsStatements (m : Manner) : Block → List Terminal → List Terminal → Prop where
  | nil {rest : List Terminal} : SpellsStatements m [] rest rest
  | cons {s : Statement} {ss : Block} {ws ws' ws'' rest : List Terminal}
      (hs : SpellsStatement m s ws ws') (hend : StatementEnd m ws' ws'')
      (hss : SpellsStatements m ss ws'' rest) : SpellsStatements m (s :: ss) ws rest

inductive SpellsBlock (m : Manner) : Block → List Terminal → List Terminal → Prop where
  | closed {body : Block} {ws rest : List Terminal}
      (h : SpellsStatements m body ws (.sign .rightBrace :: rest)) :
    SpellsBlock m body (.sign .leftBrace :: ws) rest
  | unclosed {body : Block} {ws : List Terminal} (hm : m = .loose)
      (h : SpellsStatements m body ws []) : SpellsBlock m body (.sign .leftBrace :: ws) []

end

/-- The terminals spell the whole program. -/
def Program.Spelled (m : Manner) (p : Program) (ws : List Terminal) : Prop :=
  SpellsStatements m p.statements ws []

end Treewalk
