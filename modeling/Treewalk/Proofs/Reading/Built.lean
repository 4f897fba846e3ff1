import Treewalk.Reading.Basic

namespace Treewalk

/-- Actions, one after the other, and routines made of them. What these keep, every rule of the
grammar keeps. -/
inductive Reader.Built : {α : Type} → Reader α → Prop
  | pure {α : Type} (a : α) : Built (Pure.pure a)
  | fail {α : Type} : Built (Reader.fail : Reader α)
  | raise {α : Type} (d : Diagnostic) : Built (Reader.raise d : Reader α)
  | current : Built Reader.current
  | upcoming : Built Reader.upcoming
  | advance : Built Reader.advance
  | expect (kind : TokenKind) : Built (Reader.expect kind)
  | skip (kind : TokenKind) : Built (Reader.skip kind)
  | bind {α β : Type} {p : Reader α} {f : α → Reader β} (hp : Built p) (hf : ∀ a, Built (f a)) :
      Built (p >>= f)
  | orNone {α : Type} {p : Reader α} (hp : Built p) : Built (Reader.orNone p)
  | within {α : Type} {p : Reader α} (routine : Routine) (hp : Built p) :
      Built (Reader.within routine p)

namespace Reader.Built

section
variable {α : Type} {item : Reader α} (hitem : Built item)
include hitem

theorem itemsAfterCommas (rounds : Nat) : Built (itemsAfterCommas item rounds) := by
  induction rounds with
  | zero => exact .pure []
  | succ rounds ih =>
    apply upcoming.bind
    intro next
    split
    · exact advance.bind (fun _ => advance.bind (fun _ => hitem.bind (fun first =>
        ih.bind (fun rest => .pure _))))
    · exact .pure []

theorem delimited (close : TokenKind) (rounds : Nat) : Built (delimited close item rounds) := by
  apply within
  apply upcoming.bind
  intro next
  split
  · exact advance.bind (fun _ => .pure [])
  · apply advance.bind
    intro _
    apply hitem.bind
    intro first
    apply (itemsAfterCommas hitem rounds).bind
    intro rest
    exact (expect close).bind (fun _ => .pure _)

end

theorem parameter : Built parameter := by
  apply current.bind
  intro token
  split
  · exact .pure _
  · exact .raise _

section
variable {e : ExpressionReader} (he : ∀ p, Built (e p))
include he

theorem hashPair : Built (hashPair e) := by
  apply (he .lowest).bind
  intro key
  apply (expect .colon).bind
  intro _
  exact advance.bind (fun _ => (he .lowest).bind (fun value => .pure _))

theorem letStatement : Built (letStatement e) := by
  apply within
  apply (expect .identifier).bind
  intro _
  apply current.bind
  intro name
  apply (expect .assign).bind
  intro _
  apply advance.bind
  intro _
  exact (he .lowest).bind (fun value => (skip .semicolon).bind (fun _ => .pure _))

theorem statement : Built (statement e) := by
  apply within
  apply current.bind
  intro token
  split
  · exact letStatement he
  · apply within
    apply advance.bind
    intro _
    exact (he .lowest).bind (fun value => (skip .semicolon).bind (fun _ => .pure _))
  · exact within _ ((he .lowest).bind (fun value => (skip .semicolon).bind (fun _ => .pure _)))

theorem statementsUntil (stops : TokenKind → Bool) (rounds : Nat) :
    Built (statementsUntil stops e rounds) := by
  induction rounds with
  | zero => exact .pure []
  | succ rounds ih =>
    apply current.bind
    intro token
    split
    · exact .pure []
    · apply (statement he).orNone.bind
      intro first
      exact advance.bind (fun _ => ih.bind (fun rest => .pure _))

theorem block (rounds : Nat) : Built (block e rounds) :=
  within _ (advance.bind (fun _ => statementsUntil he endsBlock rounds))

theorem conditional (rounds : Nat) : Built (conditional e rounds) := by
  apply within
  apply (expect .leftParen).bind
  intro _
  apply advance.bind
  intro _
  apply (he .lowest).bind
  intro condition
  apply (expect .rightParen).bind
  intro _
  apply (expect .leftBrace).bind
  intro _
  apply (block he rounds).bind
  intro consequence
  apply upcoming.bind
  intro next
  split
  · exact advance.bind (fun _ => (expect .leftBrace).bind (fun _ => (block he rounds).bind
      (fun alternative => .pure _)))
  · exact .pure _

theorem functionLiteral (rounds : Nat) : Built (functionLiteral e rounds) := by
  apply within
  apply (expect .leftParen).bind
  intro _
  apply (delimited parameter .rightParen rounds).bind
  intro parameters
  exact (expect .leftBrace).bind (fun _ => (block he rounds).bind (fun body => .pure _))

theorem unaryExpression (o : UnaryOperator) : Built (unaryExpression e o) :=
  within _ (advance.bind (fun _ => (he .unary).bind (fun _ => .pure _)))

theorem groupedExpression : Built (groupedExpression e) :=
  within _ (advance.bind (fun _ => (he .lowest).bind (fun _ =>
    (expect .rightParen).bind (fun _ => .pure _))))

theorem operand (rounds : Nat) (t : Token) : Built (operand e rounds t) := by
  unfold Treewalk.operand
  split
  · exact .pure _
  · simp only [integerLiteral]
    split
    · exact .pure _
    · exact .raise _
  · exact .pure _
  · exact .pure _
  · exact .pure _
  · exact unaryExpression he .not
  · exact unaryExpression he .negate
  · exact groupedExpression he
  · exact conditional he rounds
  · exact functionLiteral he rounds
  · exact within _ ((delimited (he .lowest) _ rounds).bind (fun elements => .pure _))
  · exact within _ ((delimited (hashPair he) _ rounds).bind (fun pairs => .pure _))
  · exact .raise _

/-- However a token goes on with an operand. -/
theorem goOn {rounds : Nat} {kind : TokenKind} {goOn : Expression → Reader Expression}
    (h : continuation? e rounds kind = some goOn) (left : Expression) : Built (goOn left) := by
  unfold continuation? at h
  split at h
  · obtain rfl := Option.some.inj h
    exact within _ ((delimited (he .lowest) _ rounds).bind (fun arguments => .pure _))
  · obtain rfl := Option.some.inj h
    exact within _ (advance.bind (fun _ => (he .lowest).bind (fun index =>
      (expect .rightBracket).bind (fun _ => .pure _))))
  · obtain ⟨o, _, rfl⟩ := Option.map_eq_some_iff.mp h
    exact within _ (current.bind (fun token => advance.bind (fun _ =>
      (he _).bind (fun right => .pure _))))

theorem operatorsAbove (p : Precedence) (n rounds : Nat) (left : Expression) :
    Built (operatorsAbove p e n rounds left) := by
  induction rounds generalizing left with
  | zero => exact .pure left
  | succ rounds ih =>
    apply upcoming.bind
    intro next
    split
    · cases h : continuation? e n next.kind with
      | none => exact .pure left
      | some goOn => exact advance.bind (fun _ => (Built.goOn he h left).bind (fun extended => ih _))
    · exact .pure left

end

theorem readExpression (n : Nat) (p : Precedence) : Built (readExpression n p) := by
  induction n generalizing p with
  | zero => exact .fail
  | succ n ih =>
    apply within
    apply current.bind
    intro token
    exact (operand ih n token).bind (fun first => operatorsAbove ih p n n first)

theorem program (n rounds : Nat) :
    Built (Treewalk.statementsUntil endsProgram (Treewalk.readExpression n) rounds) :=
  statementsUntil (readExpression n) endsProgram rounds

end Reader.Built

end Treewalk
