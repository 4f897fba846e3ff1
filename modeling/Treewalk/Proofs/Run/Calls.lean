import Mathlib.Data.Int.ModEq
import Treewalk.Proofs.Run.Built
import Treewalk.Proofs.Run.Request

namespace Treewalk

open Evaluation

namespace Event

/-- By how much the event changes the number of running calls. -/
def change : Event → Int
  | callStarted _ _ => 1
  | callEnded => -1
  | _ => 0

/-- The calls that were started in the course of the events and have not ended, less those that ended
without having been started. -/
def running (events : List Event) : Int := (events.map change).sum

@[simp] theorem running_nil : running [] = 0 := rfl

@[simp] theorem running_cons (e : Event) (events : List Event) :
    running (e :: events) = e.change + running events := by
  simp [running]

@[simp] theorem running_append (es fs : List Event) :
    running (es ++ fs) = running es + running fs := by
  simp [running]

/-- Events in the course of which, inside of so many running calls, calls are nested in one another,
and every start tells the depth of the call that it starts. -/
inductive Nested : Nat → List Event → Prop where
  | nil {depth : Nat} : Nested depth []
  | aside {depth : Nat} {e : Event} {rest : List Event} (he : e.change = 0)
      (hrest : Nested depth rest) : Nested depth (e :: rest)
  | call {depth : Nat} {arity : Nat} {inner rest : List Event} (hinner : Nested (depth + 1) inner)
      (hrest : Nested depth rest) :
      Nested depth (.callStarted arity (depth + 1) :: (inner ++ .callEnded :: rest))

namespace Nested

variable {depth : Nat} {es fs : List Event}

theorem append (h : Nested depth es) (h' : Nested depth fs) : Nested depth (es ++ fs) := by
  induction h with
  | nil => exact h'
  | aside he _ ih => exact .aside he (ih h')
  | call hinner _ _ ih =>
    rw [List.cons_append, List.append_assoc, List.cons_append]
    exact .call hinner (ih h')

/-- All that were started have ended. -/
theorem running_eq (h : Nested depth es) : running es = 0 := by
  induction h with
  | nil => rfl
  | aside he _ ih => simp [he, ih]
  | call _ _ ihinner ihrest => simp [change, ihinner, ihrest]

end Nested

/-- What holds between what is recorded before a moment and what is recorded after it: no more calls
have ended than were started, and a call that starts now tells how many are running. -/
structure Moment (depth : Nat) (before after : List Event) : Prop where
  le : 0 ≤ running before
  start : ∀ arity d rest, after = .callStarted arity d :: rest →
    (d : Int) = depth + running before + 1

namespace Moment

variable {depth : Nat} {before before' after rest : List Event}

theorem first (h : ∀ arity d rest, after = .callStarted arity d :: rest → d = depth + 1) :
    Moment depth [] after := by
  refine ⟨Int.le_refl 0, ?_⟩
  intro arity d rest hafter
  obtain rfl := h arity d rest hafter
  simp

/-- All that counts of what was recorded before is how many calls are running. -/
theorem of_running_eq (h : Moment depth before after) (hb : running before' = running before) :
    Moment depth before' after := by
  constructor
  · rw [hb]
    exact h.le
  · rw [hb]
    exact h.start

/-- A moment in the course of a call is one of those around it. -/
theorem inside (h : Moment (depth + 1) before after) (arity : Nat) :
    Moment depth (.callStarted arity (depth + 1) :: before) (after ++ .callEnded :: rest) := by
  have hle := h.le
  have hrunning : running (.callStarted arity (depth + 1) :: before) = 1 + running before := by
    rw [running_cons, change]
  constructor
  · omega
  · intro arity' d rest' hafter
    cases after with
    | nil => cases hafter
    | cons e after =>
      obtain ⟨rfl, -⟩ := List.cons.inj hafter
      have hd := h.start arity' d after rfl
      omega

end Moment

theorem Nested.moment {depth : Nat} {es before after : List Event} (h : Nested depth es)
    (hes : es = before ++ after) : Moment depth before after := by
  induction h generalizing before after with
  | nil =>
    obtain ⟨rfl, rfl⟩ := List.append_eq_nil_iff.mp hes.symm
    exact .first nofun
  | aside he hrest ih =>
    cases before with
    | nil =>
      apply Moment.first
      rintro arity d rest rfl
      obtain ⟨rfl, -⟩ := List.cons.inj hes
      cases he
    | cons e before =>
      obtain ⟨rfl, hrest⟩ := List.cons.inj hes
      apply (ih hrest).of_running_eq
      rw [running_cons, he, Int.zero_add]
  | @call depth arity inner others hinner hrest ihinner ihrest =>
    cases before with
    | nil =>
      apply Moment.first
      rintro arity d rest rfl
      obtain ⟨hstart, -⟩ := List.cons.inj hes
      exact (Event.callStarted.inj hstart).2.symm
    | cons e before =>
      obtain ⟨rfl, hinside⟩ := List.cons.inj hes
      -- The moment is in the course of the call, or the call has ended by then.
      rcases List.append_eq_append_iff.mp hinside with ⟨ended, rfl, hended⟩ | ⟨inside, rfl, rfl⟩
      · cases ended with
        | nil =>
          obtain rfl : _ = after := hended
          rw [List.append_nil]
          simpa using (ihinner (List.append_nil inner).symm).inside arity
        | cons e ended =>
          obtain ⟨rfl, hothers⟩ := List.cons.inj hended
          apply (ihrest hothers).of_running_eq
          simp only [running_cons, running_append, hinner.running_eq, change]
          omega
      · exact (ihinner rfl).inside arity

end Event

/-- Whatever an evaluation does, it records calls that are nested in those that are running. -/
theorem Evaluation.Built.nested {α : Type} {p : Evaluation α} (h : Built p) (m : Machine) :
    ∃ es, (p m).2.journal = es.reverse ++ m.journal ∧ Event.Nested m.callDepth es := by
  induction h generalizing m with
  | printed v => exact ⟨[.printed v], rfl, .aside rfl .nil⟩
  | builtinCalled b count => exact ⟨[.builtinCalled b count], rfl, .aside rfl .nil⟩
  | @bind α β p f hp hf ihp ihf =>
    obtain ⟨es, hes, hnested⟩ := ihp m
    have hdepth := hp.callDepth_eq m
    rw [bind_apply]
    cases hr : p m with
    | mk outcome m' =>
      rw [hr] at hes hdepth
      cases outcome with
      | done a =>
        obtain ⟨fs, hfs, hnested'⟩ := ihf a m'
        refine ⟨es ++ fs, ?_, hnested.append (hdepth ▸ hnested')⟩
        rw [hfs, hes, List.reverse_append, List.append_assoc]
      | failed fault => exact ⟨es, hes, hnested⟩
      | exhausted => exact ⟨es, hes, hnested⟩
  | @asCall α p arity hp ih =>
    obtain ⟨es, hes, hnested⟩ := ih (m.startCall arity)
    refine ⟨.callStarted arity (m.callDepth + 1) :: (es ++ [.callEnded]), ?_, .call hnested .nil⟩
    rw [asCall_apply, Machine.endCall, hes]
    simp [Machine.startCall]
  | _ => exact ⟨[], rfl, .nil⟩

/-- What an evaluator is used for. -/
inductive Task where
  | request (r : Request)
  | expression (e : Expression) (scope : ScopeId)

namespace Task

def run : Task → Nat → Evaluation Value
  | request r, budget => r.run budget
  | expression e scope, budget => evaluate budget scope e

theorem built (t : Task) (budget : Nat) : Built (t.run budget) := by
  cases t with
  | expression e scope => exact .evaluate budget scope e
  | request r =>
    cases r with
    | program p scope => exact .run p budget scope
    | call callee arguments => exact .callValue (.evaluate budget) callee arguments

/-- The machine after the tasks, however they end. Each one has a budget and finds a memory of its
own, for the memory may be changed by others in between. -/
def runEach : List (Task × Nat × Memory) → Machine → Machine
  | [], m => m
  | (t, budget, memory) :: rest, m => runEach rest (t.run budget { m with memory }).2

theorem nested_runEach (ts : List (Task × Nat × Memory)) (m : Machine) :
    (runEach ts m).callDepth = m.callDepth ∧
      ∃ es, (runEach ts m).events = m.events ++ es ∧ Event.Nested m.callDepth es := by
  induction ts generalizing m with
  | nil => exact ⟨rfl, [], by simp [runEach], .nil⟩
  | cons task rest ih =>
    obtain ⟨t, budget, memory⟩ := task
    have hdepth := (t.built budget).callDepth_eq { m with memory }
    obtain ⟨es, hes, hnested⟩ := (t.built budget).nested { m with memory }
    obtain ⟨hlast, fs, hfs, hnested'⟩ := ih (t.run budget { m with memory }).2
    refine ⟨hlast.trans hdepth, es ++ fs, ?_, hnested.append (hdepth ▸ hnested')⟩
    rw [runEach, hfs, Machine.events, hes, List.reverse_append, List.reverse_reverse,
      List.append_assoc]
    rfl

end Task

/-- Only starts of calls are logged for debugging. -/
theorem Event.eq_callStarted_of_record? {e : Event} {record : LogRecord}
    (h : e.record? = some record) (hlevel : record.level = .debug) :
    ∃ arity depth, e = .callStarted arity depth := by
  cases e with
  | callStarted arity depth => exact ⟨arity, depth, rfl⟩
  | builtinCalled callee count =>
    obtain rfl := Option.some.inj h
    contradiction
  | _ => contradiction

/-- However the programs, expressions and calls end that are run with one evaluator, the depth is
afterwards what it was before. At no moment have more calls ended than were started, and the depth
that is logged for a call is the number of those that are running, itself among them. -/
theorem call_depth_exact (ts : List (Task × Nat × Memory)) (m : Machine) :
    (Task.runEach ts m).callDepth = m.callDepth ∧
      ∃ es, (Task.runEach ts m).events = m.events ++ es ∧
        ∀ before after, es = before ++ after →
          0 ≤ Event.running before ∧
          ∀ e rest record, after = e :: rest → e.record? = some record → record.level = .debug →
            ∃ arity depth : Nat, (depth : Int) = m.callDepth + Event.running before + 1 ∧
              record.message =
                "calling fn(" ++ toString arity ++ ") at depth " ++ toString depth := by
  obtain ⟨hdepth, es, hes, hnested⟩ := Task.nested_runEach ts m
  refine ⟨hdepth, es, hes, ?_⟩
  intro before after hsplit
  obtain ⟨hle, hstart⟩ := hnested.moment hsplit
  refine ⟨hle, ?_⟩
  intro e rest record hafter hrecord hlevel
  obtain ⟨arity, depth, rfl⟩ := Event.eq_callStarted_of_record? hrecord hlevel
  obtain rfl := Option.some.inj hrecord
  exact ⟨arity, depth, hstart arity depth rest hafter, rfl⟩

end Treewalk
