namespace Treewalk

/-- What is asked for. A file name of `-` stands for the standard input; a conversation is
remembered in its history, if it has one. -/
inductive Subcommand where
  | converse (history : Option String)
  | run (file : String)
  | tokens (file : String)
  | parse (file : String)
deriving DecidableEq

/-- What is to be watched. -/
structure Watching where
  verbose : Bool
  reader : Bool
deriving DecidableEq

structure Invocation where
  task : Subcommand
  watching : Watching
deriving DecidableEq

inductive UsageError where
  | unexpected (word : String)
  | unneeded (option value : String)
  | repeated (option : String)
  | missing (what : String)
  | conflict (one other : String)
  | unknownSubcommand (word : String)
deriving DecidableEq

def UsageError.message : UsageError → String
  | unexpected word => "error: unexpected argument '" ++ word ++ "' found"
  | unneeded option value =>
    "error: unexpected value '" ++ value ++ "' for '" ++ option ++ "' found; no more were expected"
  | repeated option => "error: the argument '" ++ option ++ "' cannot be used multiple times"
  | missing what => "error: a value is required for '" ++ what ++ "' but none was supplied"
  | conflict one other =>
    "error: the argument '" ++ one ++ "' cannot be used with '" ++ other ++ "'"
  | unknownSubcommand word => "error: unrecognized subcommand '" ++ word ++ "'"

/-- What a command line comes to that asks for no task. -/
inductive Ending where
  | help
  | version
  | misuse (e : UsageError)
deriving DecidableEq

/-- A word by its form. After the word `--` all words are plain. -/
inductive Word where
  | plain (text : String)
  | optionsEnd
  | long (name : String) (value : Option String)
  | letters (cs : List Char)
deriving DecidableEq

def Word.ofString (s : String) : Word :=
  match s.toList with
  | ['-', '-'] => .optionsEnd
  | '-' :: '-' :: cs =>
    let name := String.ofList (cs.takeWhile (· != '='))
    match cs.dropWhile (· != '=') with
    | [] => .long name none
    | _ :: value => .long name (some (String.ofList value))
  | '-' :: c :: cs => .letters (c :: cs)
  | _ => .plain s

/-- A word where the options may have ended. -/
def Word.read (optionsEnded : Bool) (s : String) : Word :=
  if optionsEnded then .plain s else .ofString s

/-- An option without a value. -/
inductive Flag where
  | verbose
  | reader
  | forgetful
  | help
  | version
deriving DecidableEq

namespace Flag

def name : Flag → String
  | verbose => "verbose"
  | reader => "trace-parser"
  | forgetful => "no-history"
  | help => "help"
  | version => "version"

def letter? : Flag → Option Char
  | verbose => some 'v'
  | help => some 'h'
  | version => some 'V'
  | _ => none

end Flag

/-- The flags that have been given, each at most once. -/
abbrev Flags := List Flag

namespace Flags

def watching (given : Flags) : Watching := ⟨given.contains .verbose, given.contains .reader⟩

def give (given : Flags) : Flag → Except Ending Flags
  | .help => .error .help
  | .version => .error .version
  | f =>
    if given.contains f then .error (.misuse (.repeated ("--" ++ f.name))) else .ok (f :: given)

def giveLong (accepted given : Flags) (name : String) (value : Option String) :
    Except Ending Flags :=
  match accepted.find? (fun f => f.name == name), value with
  | none, _ => .error (.misuse (.unexpected ("--" ++ name)))
  | some _, some value => .error (.misuse (.unneeded ("--" ++ name) value))
  | some f, none => given.give f

def giveLetters (accepted : Flags) : Flags → List Char → Except Ending Flags
  | given, [] => .ok given
  | given, c :: cs =>
    match accepted.find? (fun f => f.letter? == some c) with
    | none => .error (.misuse (.unexpected (String.ofList ['-', c])))
    | some f => do
      let given ← given.give f
      giveLetters accepted given cs

/-- The flags that every task takes. -/
def common : Flags := [.verbose, .reader, .help]

end Flags

def Watching.merge (a b : Watching) : Watching := ⟨a.verbose || b.verbose, a.reader || b.reader⟩

open Flags

/-- Takes a word for the file, which can be neither empty nor given twice. -/
def fileOfWord (file : Option String) (word : String) : Except Ending String :=
  match file with
  | some _ => .error (.misuse (.unexpected word))
  | none => if word.isEmpty then .error (.misuse (.missing "<FILE>")) else .ok word

/-- What the words after a task that works on one file have said so far. -/
structure FileWords where
  given : Flags
  file : Option String
  optionsEnded : Bool

namespace FileWords

def start : FileWords := ⟨[], none, false⟩

def take (w : FileWords) (word : String) : Except Ending FileWords :=
  match Word.read w.optionsEnded word with
  | .optionsEnd => .ok { w with optionsEnded := true }
  | .long name value => do
    let given ← giveLong common w.given name value
    return { w with given }
  | .letters cs => do
    let given ← giveLetters common w.given cs
    return { w with given }
  | .plain text => do
    let file ← fileOfWord w.file text
    return { w with file := some file }

def finish (w : FileWords) : Except Ending (String × Watching) :=
  match w.file with
  | some file => .ok (file, w.given.watching)
  | none => .error (.misuse (.missing "<FILE>"))

end FileWords

def historyOption : String := "--history <PATH>"

/-- The file in which conversations are remembered if nothing else is said. -/
def usualHistory : String := ".monkey_history"

/-- What the words after the task to converse have said so far. The path of the history may still
be awaited. -/
structure ConverseWords where
  given : Flags
  history : Option String
  awaiting : Bool
  optionsEnded : Bool

namespace ConverseWords

def start : ConverseWords := ⟨[], none, false, false⟩

def nameHistory (w : ConverseWords) (path : String) : Except Ending ConverseWords :=
  if w.history.isSome then .error (.misuse (.repeated historyOption))
  else if path.isEmpty then .error (.misuse (.missing historyOption))
  else .ok { w with history := some path, awaiting := false }

def takeFlag (w : ConverseWords) : Word → Except Ending ConverseWords
  | .optionsEnd => .ok { w with optionsEnded := true }
  | .long name value => do
    let given ← giveLong (.forgetful :: common) w.given name value
    return { w with given }
  | .letters cs => do
    let given ← giveLetters common w.given cs
    return { w with given }
  | .plain text => .error (.misuse (.unexpected text))

/-- The path that is awaited cannot look like an option. -/
def take (w : ConverseWords) (word : String) : Except Ending ConverseWords :=
  match w.awaiting, Word.read w.optionsEnded word with
  | true, .plain text => w.nameHistory text
  | true, _ => .error (.misuse (.missing historyOption))
  | false, .long "history" none => .ok { w with awaiting := true }
  | false, .long "history" (some path) => w.nameHistory path
  | false, word => w.takeFlag word

/-- The history that the options ask for, which cannot both name one and want none. -/
def finish (w : ConverseWords) : Except Ending (Option String × Watching) :=
  if w.awaiting then .error (.misuse (.missing historyOption))
  else match w.given.contains .forgetful, w.history with
    | true, some _ => .error (.misuse (.conflict historyOption "--no-history"))
    | true, none => .ok (none, w.given.watching)
    | false, history => .ok (some (history.getD usualHistory), w.given.watching)

end ConverseWords

def subcommandNames : List String := ["repl", "run", "tokens", "parse", "help"]

/-- The words after `help`: at most one subcommand, as none has subcommands of its own. -/
def helpArguments : List String → Ending
  | [] => .help
  | word :: rest =>
    if subcommandNames.contains word then
      match rest with
      | [] => .help
      | next :: _ => .misuse (.unknownSubcommand next)
    else .misuse (.unknownSubcommand word)

def withFile (w : Watching) (task : String → Subcommand) (words : List String) :
    Except Ending Invocation := do
  let read ← words.foldlM FileWords.take .start
  let (file, further) ← read.finish
  return ⟨task file, w.merge further⟩

def converseWith (w : Watching) (words : List String) : Except Ending Invocation := do
  let read ← words.foldlM ConverseWords.take .start
  let (history, further) ← read.finish
  return ⟨.converse history, w.merge further⟩

/-- Reads the words from the first on; the flags before the task hold for every task. -/
def argumentsAfter (given : Flags) : List String → Except Ending Invocation
  | [] => converseWith given.watching []
  | word :: rest =>
    match word, Word.ofString word, rest with
    | "run", _, _ => withFile given.watching .run rest
    | "tokens", _, _ => withFile given.watching .tokens rest
    | "parse", _, _ => withFile given.watching .parse rest
    | "repl", _, _ => converseWith given.watching rest
    | "help", _, _ => .error (helpArguments rest)
    | _, .plain text, _ => .error (.misuse (.unknownSubcommand text))
    | _, .optionsEnd, [] => converseWith given.watching []
    | _, .optionsEnd, next :: _ => .error (.misuse (.unexpected next))
    | _, .long name value, _ => do
      let given ← giveLong (.version :: common) given name value
      argumentsAfter given rest
    | _, .letters cs, _ => do
      let given ← giveLetters (.version :: common) given cs
      argumentsAfter given rest

/-- Words are taken one after the other, and the first that asks for help or the version, or that
cannot be meant, decides. -/
def parseArguments (words : List String) : Except Ending Invocation := argumentsAfter [] words

end Treewalk
