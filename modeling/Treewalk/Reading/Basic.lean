import Treewalk.Reading.Rules
import Treewalk.Token.Scan

namespace Treewalk

/-- The program that was read from a source text, what happened meanwhile, and the number of
routines left open. -/
structure Reading where
  source : String
  program : Program
  steps : List ReadingStep
  depth : Nat
deriving DecidableEq

/-- Reads the tokens before `finish`, with `depth` routines open around the reading. -/
def readTokens (pending : List Token) (finish : Token) (depth : Nat) : Option Block × Cursor :=
  let n := pending.length + 1
  statementsUntil endsProgram (readExpression n) n ⟨pending, finish, depth, []⟩

/-- Reads what a scanner of the source text has left. -/
def Reading.ofScanner (source : String) (scanner : Scanner) (depth : Nat) : Reading :=
  let ts := scanner.toList
  let (statements, cursor) := readTokens ts.dropLast (ts.getLastD default) depth
  ⟨source, ⟨statements.getD []⟩, cursor.trail.reverse, cursor.depth⟩

/-- Reads a source text. -/
def read (source : String) : Reading := .ofScanner source (.ofText source) 0

namespace Reading

/-- Every diagnostic raised, in order. -/
def raised (r : Reading) : List Diagnostic := r.steps.filterMap ReadingStep.diagnostic?

/-- The diagnostics that are kept. -/
def diagnostics (r : Reading) : DiagnosticList :=
  r.raised.foldl DiagnosticList.add (.empty r.source DiagnosticList.defaultLimit)

def log (r : Reading) : List LogRecord := ReadingStep.log DiagnosticList.defaultLimit r.steps

/-- The program, unless a diagnostic was raised. -/
def program? (r : Reading) : Except ParseFailure Program :=
  if r.diagnostics.isEmpty then .ok r.program
  else .error ⟨r.source, r.diagnostics.kept⟩

end Reading

/-- The program of a source text, unless something is wrong with it. -/
def parse (source : String) : Except ParseFailure Program := (read source).program?

end Treewalk
