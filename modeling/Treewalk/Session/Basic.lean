import Treewalk.Reading.Basic
import Treewalk.Run.Evaluate
import Treewalk.Value.Outline

namespace Treewalk

/-- Why a source text has no value. -/
inductive SourceError where
  | rejected (failure : ParseFailure)
  | fault (fault : Fault)
  | exhausted
deriving DecidableEq

namespace SourceError

def message : SourceError → String
  | rejected failure => failure.message
  | fault f => f.message
  | exhausted => "recursion too deep"

end SourceError

def Outcome.toExcept {α : Type} : Outcome α → Except SourceError α
  | .done a => .ok a
  | .failed f => .error (.fault f)
  | .exhausted => .error .exhausted

/-- Reads a source text and evaluates it in a scope, unless something is wrong with the text. -/
def runSource (budget : Nat) (scope : ScopeId) (source : String) (m : Machine) :
    Except SourceError Value × Machine :=
  match parse source with
  | .error failure => (.error (.rejected failure), m)
  | .ok p =>
    let (outcome, m') := p.run budget scope m
    (outcome.toExcept, m')

/-- The outcome of a check. -/
inductive Verdict where
  | held
  | unmet (expected actual : String)
  | error (e : SourceError)
deriving DecidableEq

namespace Verdict

def unmetMessage (expected actual : String) : String :=
  "Assertion failed: expected " ++ expected ++ ", but got " ++ actual

def unmetCode : String := "monkey::session::assertion_failed"

end Verdict

/-- Source texts are evaluated one after the other in one scope, so that what one binds the next can
use. -/
structure Session where
  memory : Memory
  scope : ScopeId

namespace Session

/-- A session with a scope of its own in a memory. -/
def inMemory (memory : Memory) : Session :=
  let (scope, memory) := memory.newScope
  ⟨memory, scope⟩

def new : Session := inMemory .empty

/-- Forgets every binding. Functions that were handed out keep the scopes they were made in. -/
def reset (s : Session) : Session := inMemory s.memory

def define (s : Session) (name : String) (value : Value) : Session :=
  { s with memory := s.memory.define s.scope name value }

def get? (s : Session) (name : String) : Option Value := s.memory.get? s.scope name

def ownBindings (s : Session) : Bindings := s.memory.ownBindings s.scope

def outline (s : Session) : String :=
  Text.record "InterpreterSession" [("env", s.memory.outlineScope s.scope)]

/-- Evaluates a source text; the events are those of this evaluation. -/
def evaluate (budget : Nat) (source : String) (s : Session) :
    Except SourceError Value × List Event × Session :=
  let (result, m) := runSource budget s.scope source (.ofMemory s.memory)
  (result, m.events, { s with memory := m.memory })

/-- Whether a value is the one expected. -/
def verdictOn (s : Session) (expected : Value) : Except SourceError Value → Verdict
  | .ok v =>
    if v.same expected then .held else .unmet (expected.outline s.memory) (v.outline s.memory)
  | .error e => .error e

/-- Whether an evaluation fails with the message expected. A text that is rejected, or runs out of
budget, leaves the question open. -/
def verdictOnFault (message : String) : Except SourceError Value → Verdict
  | .error (.fault f) =>
    if f.message = message then .held else .unmet message f.message
  | .error e => .error e
  | .ok v => .unmet ("error `" ++ message ++ "`") v.inspect

def check (budget : Nat) (source : String) (expected : Value) (s : Session) :
    Verdict × List Event × Session :=
  let (result, events, s') := s.evaluate budget source
  (s'.verdictOn expected result, events, s')

def checkFault (budget : Nat) (source message : String) (s : Session) :
    Verdict × List Event × Session :=
  let (result, events, s') := s.evaluate budget source
  (verdictOnFault message result, events, s')

end Session

end Treewalk
