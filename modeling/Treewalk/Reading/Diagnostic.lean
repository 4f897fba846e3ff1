import Treewalk.Token.Basic

namespace Treewalk

/-- What can be wrong with a source text. -/
inductive Diagnostic where
  | unexpected (expected found : TokenKind) (span : Span)
  | noRule (found : TokenKind) (span : Span)
  | integerTooLarge (literal : String) (span : Span)
deriving DecidableEq

namespace Diagnostic

def span : Diagnostic → Span
  | unexpected _ _ span => span
  | noRule _ span => span
  | integerTooLarge _ span => span

def message : Diagnostic → String
  | unexpected expected found _ =>
    "expected next token to be " ++ expected.name ++ ", got " ++ found.name ++ " instead"
  | noRule found _ => "no parse rule for " ++ found.name
  | integerTooLarge literal _ => "could not parse " ++ literal ++ " as integer"

def code : Diagnostic → String
  | unexpected .. => "monkey::parse::unexpected_token"
  | noRule .. => "monkey::parse::no_parse_rule"
  | integerTooLarge .. => "monkey::parse::invalid_integer"

def help : Diagnostic → String
  | unexpected expected _ _ => "insert `" ++ expected.name ++ "` here"
  | noRule .. => "an expression cannot start with this token"
  | integerTooLarge .. => "integer literals must fit in a signed 64-bit integer"

/-- The remark that is put at the span. -/
def label : Diagnostic → String
  | unexpected _ found _ => "unexpected " ++ found.name
  | noRule .. => "not the start of an expression"
  | integerTooLarge .. => "integer out of range"

def shift (n : Nat) : Diagnostic → Diagnostic
  | unexpected expected found span => unexpected expected found (span.shift n)
  | noRule found span => noRule found (span.shift n)
  | integerTooLarge literal span => integerTooLarge literal (span.shift n)

end Diagnostic

/-- The diagnostics of a source text in the order of their discovery. Those beyond the limit are
dropped. -/
structure DiagnosticList where
  source : String
  limit : Nat
  kept : List Diagnostic
deriving DecidableEq

namespace DiagnosticList

def defaultLimit : Nat := 100

def empty (source : String) (limit : Nat) : DiagnosticList := ⟨source, limit, []⟩

def add (list : DiagnosticList) (d : Diagnostic) : DiagnosticList :=
  if list.kept.length < list.limit then { list with kept := list.kept ++ [d] } else list

def count (list : DiagnosticList) : Nat := list.kept.length

def isEmpty (list : DiagnosticList) : Bool := list.kept.isEmpty

def messages (list : DiagnosticList) : List String := list.kept.map Diagnostic.message

/-- One message per line. -/
def text (list : DiagnosticList) : String := "\n".intercalate list.messages

/-- Adding one after the other keeps as many of the first as fit. -/
theorem kept_foldl_add (list : DiagnosticList) (ds : List Diagnostic) :
    (ds.foldl add list).kept = list.kept ++ ds.take (list.limit - list.kept.length) := by
  induction ds generalizing list with
  | nil => simp
  | cons d ds ih =>
    rw [List.foldl_cons, ih]
    by_cases h : list.kept.length < list.limit
    · have hs : list.limit - list.kept.length = (list.limit - (list.kept.length + 1)) + 1 := by
        omega
      simp [add, h, hs]
    · have hz : list.limit - list.kept.length = 0 := by omega
      simp [add, h, hz]

end DiagnosticList

/-- A source text was rejected: it had at least one diagnostic. -/
structure ParseFailure where
  source : String
  diagnostics : List Diagnostic
deriving DecidableEq

namespace ParseFailure

def message (f : ParseFailure) : String :=
  "parsing failed with " ++ toString f.diagnostics.length ++ " error(s)"

def code : String := "monkey::parse::failed"

def help : String := "fix the reported problems and try again"

def messages (f : ParseFailure) : List String := f.diagnostics.map Diagnostic.message

end ParseFailure

end Treewalk
