import Treewalk.Complaint
import Treewalk.Session.Console
import Treewalk.Session.Input

namespace Treewalk

open Text

/-- A console that hears one line after the other. -/
structure Dialogue where
  console : Console
  pending : String

namespace Dialogue

def new : Dialogue := ⟨.new, ""⟩

/-- The reply to a line, if the line completes an input. -/
def hear (budget : Nat) (line : String) (d : Dialogue) : Option Reply × Dialogue :=
  if d.pending.isEmpty && (trim line).isEmpty then (none, d)
  else
    let (pending, complete) := extendInput d.pending line
    if complete then
      let (reply, console) := d.console.answer budget pending
      (some reply, ⟨console, ""⟩)
    else (none, { d with pending })

/-- What each line is answered, up to the line that ends the dialogue. What is pending at the end
is dropped. -/
def hearAll (budget : Nat) : List String → Dialogue → List (Option Reply)
  | [], _ => []
  | line :: rest, d =>
    match d.hear budget line with
    | (none, d') => none :: hearAll budget rest d'
    | (some reply, d') =>
      match reply.answer with
      | .exit => [some reply]
      | _ => some reply :: hearAll budget rest d'

end Dialogue

/-- What is shown for an answer. -/
def Answer.text : Answer → String
  | .value v => v.inspect ++ "\n"
  | .rejected messages => rejectionText messages
  | .told message => message ++ "\n"
  | .binding _ => ""
  | .unknownCommand _ => ""
  | .empty => ""
  | .exit => ""
  | .exhausted => ""

/-- What the program prints, and then the answer. -/
def Reply.text (r : Reply) : String := Event.output r.events ++ r.answer.text

/-- What an answer says to those who watch for complaints. -/
def Answer.complaintText : Answer → String
  | .unknownCommand word =>
    let message := unknownCommandMessage word
    Complaint.text ⟨some unknownCommandCode, message, [], some unknownCommandHelp⟩
  | .exhausted => SourceError.exhausted.message ++ "\n"
  | _ => ""

def Answer.isExit : Answer → Bool
  | .exit => true
  | _ => false

def greeting (user : Option String) : String :=
  let name := match user with
    | some name => if name.isEmpty then "there" else name
    | none => "there"
  "Hello " ++ name ++ "! This is the Monkey programming language!\n" ++
    "Feel free to type in commands (:help for help, :quit to exit)\n"

end Treewalk
