import Treewalk.Proofs.Run.Built

namespace Treewalk

open Evaluation

namespace Event

/-- The event as it is recorded inside of so many more calls. -/
def deeper (k : Nat) : Event → Event
  | callStarted arity depth => callStarted arity (depth + k)
  | e => e

/-- What is seen of the event from outside: of a printed value it is the text. -/
def seen : Event → Event
  | printed v => printed (.string v.inspect)
  | e => e

@[simp] theorem deeper_callStarted (k arity depth : Nat) :
    (callStarted arity depth).deeper k = callStarted arity (depth + k) := rfl

@[simp] theorem deeper_callEnded (k : Nat) : callEnded.deeper k = callEnded := rfl

@[simp] theorem seen_callStarted (arity depth : Nat) :
    (callStarted arity depth).seen = callStarted arity depth := rfl

@[simp] theorem seen_callEnded : callEnded.seen = callEnded := rfl

@[simp] theorem deeper_zero (e : Event) : e.deeper 0 = e := by cases e <;> rfl

@[simp] theorem deeper_deeper (i k : Nat) (e : Event) : (e.deeper i).deeper k = e.deeper (i + k) := by
  cases e with
  | callStarted arity depth => exact congrArg (callStarted arity) (Nat.add_assoc depth i k)
  | _ => rfl

theorem output_append (es fs : List Event) : output (es ++ fs) = output es ++ output fs := by
  induction es with
  | nil => simp [output]
  | cons e es ih =>
    cases e with
    | printed v => simp [output, ih, String.append_assoc]
    | _ => exact ih

/-- What is seen is enough to tell the output. -/
@[simp] theorem output_map_seen (es : List Event) : output (es.map seen) = output es := by
  induction es with
  | nil => rfl
  | cons e es ih =>
    cases e with
    | printed v => exact congrArg (v.inspect ++ "\n" ++ ·) ih
    | _ => exact ih

@[simp] theorem output_map_deeper (k : Nat) (es : List Event) :
    output (es.map (deeper k)) = output es := by
  induction es with
  | nil => rfl
  | cons e es ih =>
    cases e with
    | printed v => exact congrArg (v.inspect ++ "\n" ++ ·) ih
    | _ => exact ih

end Event

namespace Machine

/-- What is seen of all that has happened. -/
def seen (m : Machine) : List Event := m.events.map Event.seen

/-- The machine after it has done what the other one did by itself. -/
def followedBy (m m' : Machine) : Machine :=
  ⟨m'.memory, m.callDepth, m'.journal.map (Event.deeper m.callDepth) ++ m.journal⟩

variable {m m' m'' : Machine}

theorem seen_followedBy : (m.followedBy m').seen =
    m.seen ++ (m'.events.map (Event.deeper m.callDepth)).map Event.seen := by
  simp [seen, followedBy, events]

theorem followedBy_followedBy (h : m'.callDepth = 0) :
    (m.followedBy m').followedBy m'' = m.followedBy (m'.followedBy m'') := by
  simp [followedBy, h]

theorem endCall_followedBy (arity : Nat) :
    ((m.startCall arity).followedBy m').endCall =
      m.followedBy ((((Machine.ofMemory m.memory).startCall arity).followedBy m').endCall) := by
  simp [followedBy, endCall, startCall, ofMemory, Nat.add_comm]

end Machine

/-- An evaluation does what it does by itself. -/
theorem Evaluation.Built.alone {α : Type} {p : Evaluation α} (h : Built p) (m : Machine) :
    p m = ((p (.ofMemory m.memory)).1, m.followedBy (p (.ofMemory m.memory)).2) := by
  induction h generalizing m with
  | @bind α β p f hp hf ihp ihf =>
    have hdepth := hp.callDepth_eq (.ofMemory m.memory)
    have hfirst := ihp m
    cases hr : p (.ofMemory m.memory) with
    | mk outcome m' =>
      rw [hr] at hfirst hdepth
      cases outcome with
      | done a =>
        rw [bind_of_done hfirst, bind_of_done hr, ihf a m', ihf a (m.followedBy m'),
          Machine.followedBy_followedBy hdepth]
        rfl
      | failed fault => rw [bind_of_failed hfirst, bind_of_failed hr]
      | exhausted => rw [bind_of_exhausted hfirst, bind_of_exhausted hr]
  | @asCall α p arity hp ih =>
    rw [asCall_apply, asCall_apply, ih (m.startCall arity),
      ih ((Machine.ofMemory m.memory).startCall arity)]
    exact congrArg (Prod.mk _) (Machine.endCall_followedBy arity)
  | _ => rfl

end Treewalk
