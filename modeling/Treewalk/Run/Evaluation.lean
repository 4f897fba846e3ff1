import Treewalk.Log
import Treewalk.Run.Fault
import Treewalk.Value.Inspect
import Treewalk.Value.Memory

namespace Treewalk

/-- What can be seen of an evaluation from outside. -/
inductive Event where
  | printed (v : Value)
  | callStarted (arity depth : Nat)
  | callEnded
  | builtinCalled (callee : Builtin) (count : Nat)

namespace Event

def printed? : Event → Option Value
  | printed v => some v
  | _ => none

def record? : Event → Option LogRecord
  | printed _ => none
  | callEnded => none
  | callStarted arity depth =>
    some ⟨.debug, "monkey_interpreter::evaluator",
      "calling fn(" ++ toString arity ++ ") at depth " ++ toString depth⟩
  | builtinCalled callee count =>
    some ⟨.trace, "monkey_interpreter::evaluator",
      "calling builtin `" ++ callee.name ++ "` with " ++ toString count ++ " argument(s)"⟩

/-- What the printed values look like, one line each. -/
def output : List Event → String
  | [] => ""
  | printed v :: rest => v.inspect ++ "\n" ++ output rest
  | _ :: rest => output rest

def log (events : List Event) : List LogRecord := events.filterMap record?

end Event

/-- The memory, the number of function calls that are running, and the journal, its last event
first. -/
structure Machine where
  memory : Memory
  callDepth : Nat
  journal : List Event

namespace Machine

def ofMemory (memory : Memory) : Machine := ⟨memory, 0, []⟩

/-- The journal in the order of its events. -/
def events (m : Machine) : List Event := m.journal.reverse

def record (e : Event) (m : Machine) : Machine := { m with journal := e :: m.journal }

def startCall (arity : Nat) (m : Machine) : Machine :=
  let depth := m.callDepth + 1
  { m with callDepth := depth, journal := .callStarted arity depth :: m.journal }

def endCall (m : Machine) : Machine :=
  { m with callDepth := m.callDepth - 1, journal := .callEnded :: m.journal }

end Machine

/-- How a step ends: with a result, with a fault, or with neither within the recursion budget. -/
inductive Outcome (α : Type) where
  | done (result : α)
  | failed (fault : Fault)
  | exhausted

def Evaluation (α : Type) : Type := Machine → Outcome α × Machine

namespace Evaluation

@[always_inline, inline]
def finish {α : Type} (a : α) : Evaluation α := fun m => (.done a, m)

@[always_inline, inline]
def andThen {α β : Type} (p : Evaluation α) (f : α → Evaluation β) : Evaluation β := fun m =>
  match p m with
  | (.done a, m') => f a m'
  | (.failed fault, m') => (.failed fault, m')
  | (.exhausted, m') => (.exhausted, m')

@[always_inline]
instance : Monad Evaluation where
  pure := finish
  bind := andThen

@[simp] theorem pure_apply {α : Type} (a : α) (m : Machine) :
    (pure a : Evaluation α) m = (.done a, m) := rfl

theorem bind_apply {α β : Type} (p : Evaluation α) (f : α → Evaluation β) (m : Machine) :
    (p >>= f) m = match p m with
      | (.done a, m') => f a m'
      | (.failed fault, m') => (.failed fault, m')
      | (.exhausted, m') => (.exhausted, m') := rfl

@[simp] theorem bind_of_done {α β : Type} {p : Evaluation α} {f : α → Evaluation β}
    {m m' : Machine} {a : α} (h : p m = (.done a, m')) : (p >>= f) m = f a m' := by
  rw [bind_apply, h]

@[simp] theorem bind_of_failed {α β : Type} {p : Evaluation α} {f : α → Evaluation β}
    {m m' : Machine} {fault : Fault} (h : p m = (.failed fault, m')) :
    (p >>= f) m = (.failed fault, m') := by
  rw [bind_apply, h]

@[simp] theorem bind_of_exhausted {α β : Type} {p : Evaluation α} {f : α → Evaluation β}
    {m m' : Machine} (h : p m = (.exhausted, m')) : (p >>= f) m = (.exhausted, m') := by
  rw [bind_apply, h]

def fail {α : Type} (fault : Fault) : Evaluation α := fun m => (.failed fault, m)

def giveUp {α : Type} : Evaluation α := fun m => (.exhausted, m)

def record (e : Event) : Evaluation Unit := fun m => (.done (), m.record e)

/-- The value of a name in a scope or those around it. -/
def look (scope : ScopeId) (name : String) : Evaluation (Option Value) := fun m =>
  (.done (m.memory.get? scope name), m)

def define (scope : ScopeId) (name : String) (value : Value) : Evaluation Unit := fun m =>
  (.done (), { m with memory := m.memory.define scope name value })

/-- A new scope inside another. -/
def innerScope (outer : ScopeId) : Evaluation ScopeId := fun m =>
  let (scope, memory) := m.memory.innerScope outer
  (.done scope, { m with memory })

def stamp : Evaluation Nat := fun m =>
  let (stamp, memory) := m.memory.stamp
  (.done stamp, { m with memory })

def newArray (elements : List Value) : Evaluation Value := do
  let stamp ← stamp
  return .array stamp elements

def newHash (entries : List (Key × Value)) : Evaluation Value := do
  let stamp ← stamp
  return .hash stamp entries

def newFunction (parameters : List String) (body : Block) (scope : ScopeId) : Evaluation Value := do
  let stamp ← stamp
  return .function stamp parameters body scope

/-- Counts the step as one more running call, however it ends. -/
@[inline]
def asCall {α : Type} (arity : Nat) (p : Evaluation α) : Evaluation α := fun m =>
  let (outcome, m') := p (m.startCall arity)
  (outcome, m'.endCall)

@[simp] theorem fail_apply {α : Type} (fault : Fault) (m : Machine) :
    (fail fault : Evaluation α) m = (.failed fault, m) := rfl

@[simp] theorem giveUp_apply {α : Type} (m : Machine) :
    (giveUp : Evaluation α) m = (.exhausted, m) := rfl

@[simp] theorem record_apply (e : Event) (m : Machine) :
    Evaluation.record e m = (.done (), m.record e) := rfl

@[simp] theorem look_apply (scope : ScopeId) (name : String) (m : Machine) :
    look scope name m = (.done (m.memory.get? scope name), m) := rfl

@[simp] theorem define_apply (scope : ScopeId) (name : String) (value : Value) (m : Machine) :
    Evaluation.define scope name value m =
      (.done (), { m with memory := m.memory.define scope name value }) := rfl

theorem innerScope_apply (outer : ScopeId) (m : Machine) :
    Evaluation.innerScope outer m =
      (.done m.memory.scopes.size, { m with memory := (m.memory.innerScope outer).2 }) := rfl

theorem asCall_apply {α : Type} (arity : Nat) (p : Evaluation α) (m : Machine) :
    asCall arity p m = ((p (m.startCall arity)).1, (p (m.startCall arity)).2.endCall) := rfl

theorem newArray_apply (elements : List Value) (m : Machine) :
    newArray elements m =
      (.done (.array m.memory.nextStamp elements), { m with memory := m.memory.stamp.2 }) := rfl

theorem newHash_apply (entries : List (Key × Value)) (m : Machine) :
    newHash entries m =
      (.done (.hash m.memory.nextStamp entries), { m with memory := m.memory.stamp.2 }) := rfl

theorem newFunction_apply (parameters : List String) (body : Block) (scope : ScopeId)
    (m : Machine) :
    newFunction parameters body scope m =
      (.done (.function m.memory.nextStamp parameters body scope),
        { m with memory := m.memory.stamp.2 }) := rfl

end Evaluation

end Treewalk
