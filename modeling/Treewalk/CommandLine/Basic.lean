import Treewalk.CommandLine.Arguments
import Treewalk.CommandLine.Files
import Treewalk.Session.Dialogue
import Treewalk.Text.Erasure
import Treewalk.Text.Terminal

namespace Treewalk

/-- What the command line can see: its input, the user's name, the texts of files and whether a file
can be made. -/
structure Surroundings where
  input : String
  user : Option String
  read : String → Except FileTrouble String
  create : String → Except FileTrouble Unit

/-- A machine on which the command line starts in a directory with the given files. -/
def Surroundings.ofFiles (input : String) (user : Option String)
    (files : List (String × String)) : Surroundings :=
  let disk := Disk.mk (.ofNames files) (.system input)
  ⟨input, user, disk.read, disk.create⟩

/-- What has been written, and the exit code. -/
structure Written where
  output : String
  complaints : String
  code : Nat
deriving DecidableEq

namespace Watching

def shows (w : Watching) (r : LogRecord) : Bool :=
  (w.reader && r.topic.startsWith "monkey_parser::parser") || (w.verbose && r.level == .debug)

/-- A text with every line but its first set in, so that it stands apart from the next record. -/
def setIn (s : String) : String :=
  String.ofList (s.toList.flatMap fun c => if c = '\n' then "\n    ".toList else [c])

/-- A record is written for readers without a terminal. A sequence that its message leaves open
takes the end of the line with it. -/
def lineOf (r : LogRecord) : String :=
  Text.withoutControls ("[" ++ r.level.name ++ " " ++ r.topic ++ "] " ++ setIn r.message ++ "\n")

/-- The lines of the records that are watched. -/
def lines (w : Watching) (records : List LogRecord) : String :=
  String.join ((records.filter w.shows).map lineOf)

end Watching

def padLeft (width : Nat) (s : String) : String :=
  String.ofList (List.replicate (width - s.length) ' ') ++ s

def padRight (width : Nat) (s : String) : String :=
  s ++ String.ofList (List.replicate (width - s.length) ' ')

/-- A token with its place in the text. -/
def Token.line (t : Token) : String :=
  padLeft 5 (toString t.span.start) ++ ".." ++ padRight 5 (toString t.span.stop) ++ " " ++
    t.describe ++ "\n"

def tokensText (source : String) : String := String.join ((tokens source).map Token.line)

/-- What is said about a text that was rejected. -/
def rejectionReport (name : String) (list : DiagnosticList) : String :=
  String.join (list.messages.map (fun message => message ++ "\n")) ++
    name ++ ": parsing failed with " ++ toString list.count ++ " error(s)\n"

def runText (budget : Nat) (w : Watching) (name source : String) : Written :=
  let reading := read source
  let watched := w.lines reading.log
  if reading.diagnostics.isEmpty then
    let (scope, memory) := Memory.empty.newScope
    let (outcome, m) := reading.program.run budget scope (.ofMemory memory)
    let output := Event.output m.events
    let watched := watched ++ w.lines (Event.log m.events)
    match outcome.toValue? with
    | none => ⟨output, watched ++ SourceError.exhausted.message ++ "\n", 1⟩
    | some v =>
      if v.isError then ⟨output, watched ++ v.inspect ++ "\n", 1⟩
      else
        let finished := LogRecord.mk .debug "monkey" (name ++ " finished with " ++ v.inspect)
        ⟨output, watched ++ w.lines [finished], 0⟩
  else ⟨"", watched ++ rejectionReport name reading.diagnostics, 1⟩

def parseText (w : Watching) (name source : String) : Written :=
  let reading := read source
  let watched := w.lines reading.log
  if reading.diagnostics.isEmpty then ⟨reading.program.render ++ "\n", watched, 0⟩
  else ⟨"", watched ++ rejectionReport name reading.diagnostics, 1⟩

namespace Watching

/-- Said whenever a line is awaited that no person types. -/
def awaited (w : Watching) : String := w.lines [⟨.debug, "rustyline", "stdin is not a tty"⟩]

def linesOfReply (w : Watching) (r : Reply) : String :=
  w.lines r.readingLog ++ w.lines (Event.log r.events) ++ r.answer.complaintText

/-- What is said about a history that cannot be read, which is no reason to stop. -/
def linesOfHistory (w : Watching) (s : Surroundings) (history : Option String) : String :=
  match history with
  | none => ""
  | some path =>
    match s.read path with
    | .ok _ => ""
    | .error trouble =>
      w.lines [⟨.debug, "monkey::repl",
        "no history loaded from " ++ path ++ ": " ++ trouble.message⟩]

end Watching

/-- Why a conversation could not be remembered. One without inputs need not be. -/
def historyTrouble? (s : Surroundings) (history : Option String) (replies : List Reply) :
    Option FileTrouble :=
  match history, replies with
  | some path, _ :: _ =>
    match s.create path with
    | .ok _ => none
    | .error trouble => some trouble
  | _, _ => none

def historyComplaint (trouble : FileTrouble) : Complaint :=
  ⟨some "monkey::repl::readline", "Readline error: " ++ trouble.message, [trouble.message], none⟩

/-- Answers the input line by line, up to its end, to an answer that ends the conversation or to a
line in which a character would be erased by halves, which ends the program. -/
def converse (budget : Nat) (w : Watching) (s : Surroundings) (history : Option String) : Written :=
  let typed := (Text.lines s.input).map Text.afterErasing?
  let lines := (typed.takeWhile Option.isSome).filterMap id
  let heard := Dialogue.new.hearAll budget lines
  let replies := heard.filterMap id
  let left := replies.any (fun reply => reply.answer.isExit)
  let broken := !left && lines.length != typed.length
  let output := greeting s.user ++ String.join (replies.map Reply.text)
  let watched := w.linesOfHistory s history ++
    String.join (heard.map (fun reply => w.awaited ++ (reply.map w.linesOfReply).getD "")) ++
    (if left then "" else w.awaited)
  if broken then ⟨output, watched, 101⟩
  else match historyTrouble? s history replies with
    | none => ⟨output, watched, 0⟩
    | some trouble => ⟨output, watched ++ (historyComplaint trouble).text, 1⟩

/-- Works on the text of a file, under the name by which messages call it. -/
def Surroundings.withText (s : Surroundings) (file : String)
    (work : String → String → Written) : Written :=
  if file = "-" then work "<stdin>" s.input
  else
    match s.read file with
    | .ok source => work file source
    | .error .isDirectory => ⟨"", (Complaint.ofMessage FileTrouble.isDirectory.message).text, 1⟩
    | .error _ => ⟨"", (Complaint.ofMessage ("File not found: " ++ file)).text, 1⟩

def usage : String :=
  "Usage: monkey [OPTIONS] [COMMAND]\n\n" ++
  "Commands:\n" ++
  "  repl    Start an interactive session (the default)\n" ++
  "  run     Parse and evaluate a program\n" ++
  "  tokens  Print the tokens of a program\n" ++
  "  parse   Print the canonical form of a program\n\n" ++
  "Options:\n" ++
  "  -v, --verbose       Log what the evaluator does\n" ++
  "      --trace-parser  Log what the parser does\n" ++
  "  -h, --help          Print help\n" ++
  "  -V, --version       Print version\n"

def Subcommand.perform (budget : Nat) (w : Watching) (s : Surroundings) : Subcommand → Written
  | .converse history => Treewalk.converse budget w s history
  | .run file => s.withText file (runText budget w)
  | .tokens file => s.withText file (fun _ source => ⟨tokensText source, "", 0⟩)
  | .parse file => s.withText file (parseText w)

def Ending.written : Ending → Written
  | .help => ⟨usage, "", 0⟩
  | .version => ⟨"monkey 0.1.0\n", "", 0⟩
  | .misuse e => ⟨"", e.message ++ "\n\n" ++ usage, 2⟩

/-- What the command line writes for the words given. -/
def execute (budget : Nat) (words : List String) (s : Surroundings) : Written :=
  match parseArguments words with
  | .ok invocation => invocation.task.perform budget invocation.watching s
  | .error e => e.written

end Treewalk
