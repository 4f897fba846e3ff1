import Treewalk.Session.Basic
import Treewalk.Text.Blank

namespace Treewalk

open Text

structure Stats where
  evaluated : Nat
  rejected : Nat
  failed : Nat
  commands : Nat
deriving DecidableEq

inductive Command where
  | help
  | environment
  | reset
  | stats
  | quit
deriving DecidableEq

def Command.ofWord? (word : String) : Option Command :=
  if word = ":help" ∨ word = ":h" then some help
  else if word = ":env" ∨ word = ":vars" then some environment
  else if word = ":reset" ∨ word = ":clear" then some reset
  else if word = ":stats" then some stats
  else if word = ":quit" ∨ word = ":q" ∨ word = ":exit" then some quit
  else none

/-- The answer to an input. An input that ends with a `let` is answered by the name alone. -/
inductive Answer where
  | value (v : Value)
  | binding (name : String)
  | rejected (messages : List String)
  | told (message : String)
  | unknownCommand (word : String)
  | empty
  | exit
  | exhausted

def Answer.unknownCommandMessage (word : String) : String :=
  "REPL command error: Unknown command: " ++ word ++ ". Type :help for available commands."

def Answer.unknownCommandCode : String := "monkey::repl::command"

def Answer.unknownCommandHelp : String := "type :help for available commands"

/-- An answer with what could be watched while it was found. -/
structure Reply where
  answer : Answer
  readingLog : List LogRecord
  events : List Event

/-- A session with a person. Lines that begin with a colon are commands; all others are programs,
which are evaluated in one scope. -/
structure Console where
  session : Session
  stats : Stats

def face : String :=
  "            __,__\n" ++
  "   .--.  .-\"     \"-.  .--.\n" ++
  "  / .. \\/  .-. .-.  \\/ .. \\\n" ++
  " | |  '|  /   Y   \\  |'  | |\n" ++
  " | \\   \\  \\ 0 | 0 /  /   / |\n" ++
  "  \\ '- ,\\.-\"\"\"\"\"\"\"-./, -' /\n" ++
  "   ''-' /_   ^ ^   _\\ '-''\n" ++
  "       |  \\._   _./  |\n" ++
  "       \\   \\ '~' /   /\n" ++
  "        '._ '-=-' _.'\n" ++
  "           '-----'\n"

/-- What is shown for an input with the given diagnostics. -/
def rejectionText (messages : List String) : String :=
  face ++ "Woops! We ran into some monkey business here!\n parser errors:\n" ++
    String.join (messages.map (fun message => "\t" ++ message ++ "\n"))

def helpText : String :=
  "Monkey REPL Commands:\n" ++
  "  :help, :h           Show this help message\n" ++
  "  :env, :vars         List the bindings of this session\n" ++
  "  :reset, :clear      Forget every binding\n" ++
  "  :stats              Show session statistics\n" ++
  "  :quit, :q, :exit    Exit the REPL\n\n" ++
  "Built-in functions: " ++ commaSeparated (Builtin.all.map Builtin.name) ++ "\n\n" ++
  "Multi-line input:\n" ++
  "  let add = fn(a, b) \x7b   # an open bracket continues the input\n" ++
  "      a + b\n" ++
  "  \x7d;                     # closing it evaluates everything\n" ++
  "  An empty line submits the input as it stands.\n\n" ++
  "Use Ctrl+C to abandon an input, Ctrl+D to exit."

def environmentText (bindings : Bindings) : String :=
  if bindings.isEmpty then "No bindings defined"
  else "\n".intercalate
    ("Bindings:" :: bindings.map (fun b =>
      "  " ++ b.1 ++ ": " ++ b.2.tag.name ++ " = " ++ b.2.inspect))

def Stats.text (s : Stats) : String :=
  "Session Statistics:\n" ++
  "  Inputs evaluated: " ++ toString s.evaluated ++ "\n" ++
  "  Parse failures: " ++ toString s.rejected ++ "\n" ++
  "  Runtime errors: " ++ toString s.failed ++ "\n" ++
  "  Commands executed: " ++ toString s.commands

/-- The name that a program ends with binding. -/
def Program.lastBinding? (p : Program) : Option String :=
  match p.statements.getLast? with
  | some (.binding name _) => some name
  | _ => none

/-- How an input is answered that was evaluated. -/
def answerTo (p : Program) : Outcome Value → Answer
  | .failed f => .value (.error f.message)
  | .exhausted => .exhausted
  | .done v =>
    if v.isError then .value v
    else match p.lastBinding? with
      | some name => .binding name
      | none => .value v

/-- Whether an evaluation counts as failed. -/
def Outcome.isFailure : Outcome Value → Bool
  | .failed _ => true
  | .done v => v.isError
  | .exhausted => false

namespace Console

def new : Console := ⟨.new, ⟨0, 0, 0, 0⟩⟩

/-- Does what a command asks for. A reset leaves what is in memory to the values that were handed
out. -/
def obey (word : String) (c : Console) : Answer × Console :=
  match Command.ofWord? word with
  | some .help => (.told helpText, c)
  | some .environment => (.told (environmentText c.session.ownBindings), c)
  | some .reset => (.told "Environment reset", { c with session := c.session.reset })
  | some .stats => (.told c.stats.text, c)
  | some .quit => (.exit, c)
  | none => (.unknownCommand word, c)

def countCommand (c : Console) : Console :=
  { c with stats := { c.stats with commands := c.stats.commands + 1 } }

def countRejection (c : Console) : Console :=
  { c with stats := { c.stats with rejected := c.stats.rejected + 1 } }

def countEvaluation (failed : Bool) (c : Console) : Console :=
  let s := c.stats
  let failures := if failed then s.failed + 1 else s.failed
  { c with stats := { s with evaluated := s.evaluated + 1, failed := failures } }

/-- Reads a program and evaluates it, unless something is wrong with it. -/
def answerProgram (budget : Nat) (text : String) (c : Console) : Reply × Console :=
  let reading := read text
  if reading.diagnostics.isEmpty then
    let program := reading.program
    let (outcome, m) :=
      program.run budget c.session.scope (.ofMemory c.session.memory)
    let c' := { c with session := { c.session with memory := m.memory } }
    (⟨answerTo program outcome, reading.log, m.events⟩, c'.countEvaluation outcome.isFailure)
  else (⟨.rejected reading.diagnostics.messages, reading.log, []⟩, c.countRejection)

/-- Answers one input. Blanks around a command do not matter. -/
def answer (budget : Nat) (line : String) (c : Console) : Reply × Console :=
  let trimmed := trim line
  if trimmed.isEmpty then (⟨.empty, [], []⟩, c)
  else if trimmed.toList.head? = some ':' then
    let (answer, c') := c.countCommand.obey (firstWord trimmed)
    (⟨answer, [], []⟩, c')
  else c.answerProgram budget line

end Console

end Treewalk
