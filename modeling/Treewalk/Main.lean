import Treewalk.CommandLine.Basic

namespace Treewalk

def Dialogue.prompt (d : Dialogue) : String := if d.pending.isEmpty then ">> " else ".. "

/-- Hears a person's lines up to the end of the input or a reply that ends the dialogue. -/
partial def Dialogue.talk (d : Dialogue) (w : Watching) : IO Unit := do
  let stdin ← IO.getStdin
  let stdout ← IO.getStdout
  stdout.putStr d.prompt
  stdout.flush
  let line ← stdin.getLine
  if line.isEmpty then return
  match d.hear recursionBudget ((Text.lines line).headD "") with
  | (none, next) => next.talk w
  | (some reply, next) =>
    IO.eprint (w.linesOfReply reply)
    IO.print reply.text
    if reply.answer.isExit then return else next.talk w

def Written.write (written : Written) : IO UInt32 := do
  IO.print written.output
  IO.eprint written.complaints
  return written.code.toUInt32

def FileTrouble.ofError : IO.Error → FileTrouble
  | .inappropriateType .. => .isDirectory
  | _ => .missing

def attempt {α : Type} (work : IO α) : IO (Except FileTrouble α) := do
  try
    let a ← work
    return .ok a
  catch e => return .error (.ofError e)

/-- What can be seen of the one file that is worked on. Histories are read and left as they are. -/
def surroundingsOf (user : Option String) : Subcommand → IO Surroundings
  | .run file | .tokens file | .parse file => do
    if file = "-" then
      let stdin ← IO.getStdin
      let input ← stdin.readToEnd
      return ⟨input, user, fun _ => .error .missing, fun _ => .ok ()⟩
    else
      let text ← attempt (IO.FS.readFile file)
      return ⟨"", user, fun _ => text, fun _ => .ok ()⟩
  | .converse history => do
    let stdin ← IO.getStdin
    let input ← stdin.readToEnd
    let text ← attempt (history.elim (pure "") (fun path => IO.FS.readFile path))
    return ⟨input, user, fun _ => text, fun _ => .ok ()⟩

end Treewalk

open Treewalk

/-- Hands words, input, user and files to the command line and writes what that says. A person is
answered line by line. -/
def main (words : List String) : IO UInt32 := do
  let user ← IO.getEnv "USER"
  match parseArguments words with
  | .ok ⟨task, w⟩ => do
    let stdin ← IO.getStdin
    let interactive ← stdin.isTty
    if interactive && task matches .converse _ then
      IO.print (greeting user)
      Dialogue.new.talk w
      return 0
    else
      let s ← surroundingsOf user task
      (execute recursionBudget words s).write
  | .error e => e.written.write
