import Treewalk.Log
import Treewalk.Reading.Diagnostic

namespace Treewalk

/-- The routines whose begin and end are recorded. -/
inductive Routine where
  | statement
  | letStatement
  | returnStatement
  | expressionStatement
  | block
  | expression
  | unary
  | binary
  | group
  | conditional
  | function
  | call
  | list
  | array
  | index
  | hash
deriving DecidableEq

def Routine.name : Routine → String
  | statement => "parse_statement"
  | letStatement => "parse_let_statement"
  | returnStatement => "parse_return_statement"
  | expressionStatement => "parse_expression_statement"
  | block => "parse_block_statement"
  | expression => "parse_expression"
  | unary => "parse_prefix_expression"
  | binary => "parse_infix_expression"
  | group => "parse_grouped_expression"
  | conditional => "parse_if_expression"
  | function => "parse_function_literal"
  | call => "parse_call_expression"
  | list => "parse_delimited"
  | array => "parse_array_literal"
  | index => "parse_index_expression"
  | hash => "parse_hash_literal"

/-- What happens while reading. The depth is the number of routines that are open around the one
entered or left; `current` is the token at which it is entered, or the diagnostic raised. -/
inductive ReadingStep where
  | enter (routine : Routine) (depth : Nat) (current : Token)
  | leave (routine : Routine) (depth : Nat)
  | raise (diagnostic : Diagnostic) (current : Token)
deriving DecidableEq

namespace ReadingStep

def diagnostic? : ReadingStep → Option Diagnostic
  | raise d _ => some d
  | _ => none

def indentation (depth : Nat) : String := String.ofList (List.replicate (4 * depth) ' ')

/-- The records of the steps, of which `budget` diagnostics are reported. -/
def log : Nat → List ReadingStep → List LogRecord
  | _, [] => []
  | budget, enter routine depth _ :: rest =>
    ⟨.trace, "monkey_parser::parser::tracing", indentation depth ++ "BEGIN " ++ routine.name⟩ ::
      log budget rest
  | budget, leave routine depth :: rest =>
    ⟨.trace, "monkey_parser::parser::tracing", indentation depth ++ "END " ++ routine.name⟩ ::
      log budget rest
  | 0, raise _ _ :: rest => log 0 rest
  | budget + 1, raise d _ :: rest =>
    ⟨.debug, "monkey_parser::diagnostics", "parse diagnostic: " ++ d.message⟩ :: log budget rest

end ReadingStep

/-- The tokens from the current one on, the token behind all of them, the number of open routines,
and the steps so far, the last one first. -/
structure Cursor where
  pending : List Token
  finish : Token
  depth : Nat
  trail : List ReadingStep
deriving DecidableEq

namespace Cursor

def current (c : Cursor) : Token := c.pending.headD c.finish

/-- The token after the current one. -/
def upcoming (c : Cursor) : Token := c.pending.tail.headD c.finish

def advance (c : Cursor) : Cursor := { c with pending := c.pending.tail }

def raise (d : Diagnostic) (c : Cursor) : Cursor := { c with trail := .raise d c.current :: c.trail }

def enter (routine : Routine) (c : Cursor) : Cursor :=
  { c with depth := c.depth + 1, trail := .enter routine c.depth c.current :: c.trail }

def leave (routine : Routine) (c : Cursor) : Cursor :=
  { c with depth := c.depth - 1, trail := .leave routine (c.depth - 1) :: c.trail }

/-- The cursor as if more had been recorded before, the last step first. -/
def withPast (past : List ReadingStep) (c : Cursor) : Cursor := { c with trail := c.trail ++ past }

/-- The diagnostics raised so far, the last one first. -/
def raised (c : Cursor) : List Diagnostic := c.trail.filterMap ReadingStep.diagnostic?

/-- Nothing is read twice and no step is taken back. -/
structure Onward (c c' : Cursor) : Prop where
  pending : c'.pending <:+ c.pending
  finish : c'.finish = c.finish
  trail : c.trail <:+ c'.trail

theorem Onward.refl (c : Cursor) : c.Onward c :=
  ⟨List.suffix_refl _, rfl, List.suffix_refl _⟩

theorem Onward.trans {c d e : Cursor} (h : c.Onward d) (h' : d.Onward e) : c.Onward e :=
  ⟨h'.pending.trans h.pending, h'.finish.trans h.finish, h.trail.trans h'.trail⟩

theorem onward_advance (c : Cursor) : c.Onward c.advance :=
  ⟨List.tail_suffix _, rfl, List.suffix_refl _⟩

theorem onward_raise (d : Diagnostic) (c : Cursor) : c.Onward (c.raise d) :=
  ⟨List.suffix_refl _, rfl, List.suffix_cons _ _⟩

theorem onward_enter (routine : Routine) (c : Cursor) : c.Onward (c.enter routine) :=
  ⟨List.suffix_refl _, rfl, List.suffix_cons _ _⟩

theorem onward_leave (routine : Routine) (c : Cursor) : c.Onward (c.leave routine) :=
  ⟨List.suffix_refl _, rfl, List.suffix_cons _ _⟩

end Cursor

/-- An action that moves a cursor onward. Its result is `none` if it gives up. It adds to the trail,
but does not look at it. -/
structure Reader (α : Type) where
  run : Cursor → Option α × Cursor
  onward (c : Cursor) : c.Onward (run c).2
  blind (past : List ReadingStep) (c : Cursor) :
    run (c.withPast past) = ((run c).1, (run c).2.withPast past)

namespace Reader

instance {α : Type} : CoeFun (Reader α) (fun _ => Cursor → Option α × Cursor) := ⟨Reader.run⟩

def done {α : Type} (a : α) : Reader α :=
  ⟨fun c => (some a, c), Cursor.Onward.refl, fun _ _ => rfl⟩

def andThen {α β : Type} (p : Reader α) (f : α → Reader β) : Reader β where
  run c :=
    match p c with
    | (some a, c') => f a c'
    | (none, c') => (none, c')
  onward c := by
    have hp := p.onward c
    cases h : p.run c with
    | mk result c' =>
      rw [h] at hp
      cases result with
      | none => exact hp
      | some a => exact hp.trans ((f a).onward c')
  blind past c := by
    rw [p.blind]
    cases p.run c with
    | mk result c' =>
      cases result with
      | none => rfl
      | some a => exact (f a).blind past c'

instance : Monad Reader where
  pure := done
  bind := andThen

@[simp] theorem pure_apply {α : Type} (a : α) (c : Cursor) :
    (pure a : Reader α) c = (some a, c) := rfl

theorem bind_apply {α β : Type} (p : Reader α) (f : α → Reader β) (c : Cursor) :
    (p >>= f) c = match p c with
      | (some a, c') => f a c'
      | (none, c') => (none, c') := rfl

@[simp] theorem bind_of_some {α β : Type} {p : Reader α} {f : α → Reader β} {c c' : Cursor}
    {a : α} (h : p c = (some a, c')) : (p >>= f) c = f a c' := by
  rw [bind_apply, h]

@[simp] theorem bind_of_none {α β : Type} {p : Reader α} {f : α → Reader β} {c c' : Cursor}
    (h : p c = (none, c')) : (p >>= f) c = (none, c') := by
  rw [bind_apply, h]

def fail {α : Type} : Reader α := ⟨fun c => (none, c), Cursor.Onward.refl, fun _ _ => rfl⟩

def raise {α : Type} (d : Diagnostic) : Reader α :=
  ⟨fun c => (none, c.raise d), Cursor.onward_raise d, fun _ _ => rfl⟩

def current : Reader Token :=
  ⟨fun c => (some c.current, c), Cursor.Onward.refl, fun _ _ => rfl⟩

def upcoming : Reader Token :=
  ⟨fun c => (some c.upcoming, c), Cursor.Onward.refl, fun _ _ => rfl⟩

def advance : Reader Unit :=
  ⟨fun c => (some (), c.advance), Cursor.onward_advance, fun _ _ => rfl⟩

/-- Moves on if the next token is of the given kind; otherwise says so and stays. -/
def expect (kind : TokenKind) : Reader Unit where
  run c :=
    if c.upcoming.kind = kind then (some (), c.advance)
    else (none, c.raise (.unexpected kind c.upcoming.kind c.upcoming.span))
  onward c := by
    split
    · exact c.onward_advance
    · exact c.onward_raise _
  blind past c := by
    have hupcoming : (c.withPast past).upcoming = c.upcoming := rfl
    rw [hupcoming]
    split <;> rfl

/-- Moves on if the next token is of the given kind. -/
def skip (kind : TokenKind) : Reader Unit where
  run c := (some (), if c.upcoming.kind = kind then c.advance else c)
  onward c := by
    split
    · exact c.onward_advance
    · exact .refl c
  blind past c := by
    have hupcoming : (c.withPast past).upcoming = c.upcoming := rfl
    rw [hupcoming]
    split <;> rfl

/-- Goes on where an action that gave up has left the cursor. -/
def orNone {α : Type} (p : Reader α) : Reader (Option α) where
  run c :=
    let (result, c') := p c
    (some result, c')
  onward c := p.onward c
  blind past c := by rw [p.blind]

/-- Records where an action begins and ends, however it ends. -/
def within {α : Type} (routine : Routine) (p : Reader α) : Reader α where
  run c :=
    let (result, c') := p (c.enter routine)
    (result, c'.leave routine)
  onward c :=
    ((c.onward_enter routine).trans (p.onward _)).trans (Cursor.onward_leave routine _)
  blind past c := by
    have henter : (c.withPast past).enter routine = (c.enter routine).withPast past := rfl
    rw [henter, p.blind]
    rfl

@[simp] theorem fail_apply {α : Type} (c : Cursor) : (fail : Reader α) c = (none, c) := rfl

@[simp] theorem raise_apply {α : Type} (d : Diagnostic) (c : Cursor) :
    (raise d : Reader α) c = (none, c.raise d) := rfl

@[simp] theorem current_apply (c : Cursor) : Reader.current c = (some c.current, c) := rfl

@[simp] theorem upcoming_apply (c : Cursor) : Reader.upcoming c = (some c.upcoming, c) := rfl

@[simp] theorem advance_apply (c : Cursor) : Reader.advance c = (some (), c.advance) := rfl

theorem expect_apply_of_eq {kind : TokenKind} {c : Cursor} (h : c.upcoming.kind = kind) :
    expect kind c = (some (), c.advance) := if_pos h

theorem expect_apply_of_ne {kind : TokenKind} {c : Cursor} (h : c.upcoming.kind ≠ kind) :
    expect kind c = (none, c.raise (.unexpected kind c.upcoming.kind c.upcoming.span)) := if_neg h

@[simp] theorem skip_apply (kind : TokenKind) (c : Cursor) :
    skip kind c = (some (), if c.upcoming.kind = kind then c.advance else c) := rfl

@[simp] theorem orNone_apply {α : Type} (p : Reader α) (c : Cursor) :
    orNone p c = (some (p c).1, (p c).2) := rfl

theorem within_apply {α : Type} (routine : Routine) (p : Reader α) (c : Cursor) :
    within routine p c = ((p (c.enter routine)).1, (p (c.enter routine)).2.leave routine) := rfl

end Reader

end Treewalk
