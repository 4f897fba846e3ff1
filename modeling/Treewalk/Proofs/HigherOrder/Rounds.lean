import Mathlib.Data.Int.ModEq
import Treewalk.Proofs.HigherOrder.Loops
import Treewalk.Proofs.Run.Alone

namespace Treewalk

open Evaluation

namespace Machine

variable (M : Machine)

/-- The machine after a stamp was taken. -/
def stamped : Machine := { M with memory := M.memory.stamp.2 }

/-- The machine in which the body of a function is evaluated. -/
def entered (parameters : List String) (outer : ScopeId) (arguments : List Value) : Machine :=
  ({ M with memory := M.memory.entered outer (parameters.zip arguments) }).startCall
    parameters.length

@[simp] theorem callDepth_record (e : Event) : (M.record e).callDepth = M.callDepth := rfl

@[simp] theorem seen_record (e : Event) : (M.record e).seen = M.seen ++ [e.seen] := by
  simp [seen, events, record]

@[simp] theorem seen_stamped : M.stamped.seen = M.seen := rfl

@[simp] theorem seen_endCall : M.endCall.seen = M.seen ++ [.callEnded] := by
  simp [seen, events, endCall]

@[simp] theorem seen_entered (parameters : List String) (outer : ScopeId)
    (arguments : List Value) : (M.entered parameters outer arguments).seen =
      M.seen ++ [.callStarted parameters.length (M.callDepth + 1)] := by
  simp [seen, events, entered, startCall]

end Machine

/-- What a call records that is one of so many running calls. -/
def Event.ofCall (arity depth : Nat) (inner : List Event) : List Event :=
  .callStarted arity depth :: (inner ++ [.callEnded])

/-- In the machine the evaluation ends as told, and what is seen of it are the events. -/
def Evaluation.Concludes (p : Evaluation Value) (M : Machine) (Z : Outcome Value → Memory → Prop)
    (es : List Event) : Prop :=
  ∃ outcome M', p M = (outcome, M') ∧ Z outcome M'.memory ∧ M'.seen = M.seen ++ es.map Event.seen

namespace Evaluation.Concludes

variable {p q : Evaluation Value} {M M' : Machine} {Z : Outcome Value → Memory → Prop}
  {es fs : List Event}

/-- The evaluation goes on as another one, after events of its own. -/
theorem after (h : p M = q M') (hseen : M'.seen = M.seen ++ es.map Event.seen)
    (hq : q.Concludes M' Z fs) : p.Concludes M Z (es ++ fs) := by
  obtain ⟨outcome, M'', hend, hz, hseen'⟩ := hq
  refine ⟨outcome, M'', h.trans hend, hz, ?_⟩
  rw [hseen', hseen, List.map_append, List.append_assoc]

/-- A call ends as the body of the function does, if this comes to no marker. -/
theorem callValue {eval : Eval} {k : Nat} {parameters : List String} {body : Block}
    {outer : ScopeId} {arguments : List Value} (hlength : parameters.length = arguments.length)
    (hz : ∀ v μ, Z (.done v) μ → v.isReturned = false)
    (h : (runBlock eval M.memory.scopes.size body).Concludes (M.entered parameters outer arguments)
      Z es) :
    (callValue eval (.function k parameters body outer) arguments).Concludes M Z
      (Event.ofCall parameters.length (M.callDepth + 1) es) := by
  obtain ⟨outcome, M', hbody, hend, hseen⟩ := h
  have hcall : asCall parameters.length (runBlock eval M.memory.scopes.size body)
      { M with memory := M.memory.entered outer (parameters.zip arguments) } =
        (outcome, M'.endCall) := by
    rw [asCall_apply]
    exact congrArg (fun r => (r.1, r.2.endCall)) hbody
  have hscope : callScope parameters outer arguments M = (.done M.memory.scopes.size,
      { M with memory := M.memory.entered outer (parameters.zip arguments) }) :=
    callScope_apply parameters outer arguments M
  refine ⟨outcome, M'.endCall, ?_, hend, ?_⟩
  · rw [Treewalk.callValue, enterFunction, if_pos hlength, bind_of_done hscope]
    cases outcome with
    | done v =>
      rw [bind_of_done hcall]
      have hv := hz v _ hend
      cases v with
      | returned w => contradiction
      | _ => rfl
    | failed fault => exact bind_of_failed hcall
    | exhausted => exact bind_of_exhausted hcall
  · simp [hseen, Event.ofCall]

end Evaluation.Concludes

theorem runBlock_expression {eval : Eval} {s : ScopeId} {e : Expression} {M : Machine} :
    runBlock eval s [.expression e] M = eval s e M := by
  rw [runBlock, runStatements, runStatement, bind_apply]
  cases eval s e M with
  | mk outcome M' =>
    cases outcome with
    | done v => cases v <;> rfl
    | _ => rfl

section
variable {n : Nat} {s : ScopeId} {M M' : Machine}

theorem evaluate_builtinName {b : Builtin} (h : M.memory.get? s b.name = none) :
    evaluate (n + 1) s (.identifier b.name) M = (.done (.builtin b), M) := by
  rw [evaluate, evalNode, nameValue, bind_of_done (look_apply s b.name M), h]
  cases b <;> rfl

theorem evalAll_cons {eval : Expression → Evaluation Value} {e : Expression}
    {es : List Expression} {v : Value} {vs : List Value} {M'' : Machine}
    (h : eval e M = (.done v, M')) (hes : evalAll eval es M' = (.done vs, M'')) :
    evalAll eval (e :: es) M = (.done (v :: vs), M'') := by
  rw [evalAll, bind_of_done h, bind_of_done hes]
  rfl

/-- Two expressions, the first of which has a value. -/
theorem evalAll_pair_bind {β : Type} {eval : Expression → Evaluation Value} {e e' : Expression}
    {v : Value} {g : List Value → Evaluation β} (h : eval e M = (.done v, M')) :
    (evalAll eval [e, e'] >>= g) M = (eval e' >>= fun w => g [v, w]) M' := by
  rw [bind_apply, evalAll, bind_of_done h, bind_apply, evalAll, bind_apply, bind_apply]
  cases eval e' M' with
  | mk outcome M'' => cases outcome <;> rfl

/-- A built-in function is called if nothing stands in the way of its name. -/
theorem evaluate_builtin {b : Builtin} {es : List Expression} {vs : List Value}
    (h : M.memory.get? s b.name = none)
    (hes : evalAll (evaluate (n + 1) s) es M = (.done vs, M')) :
    evaluate (n + 2) s (.call (.identifier b.name) es) M =
      b.apply vs (M'.record (.builtinCalled b vs.length)) := by
  rw [evaluate, evalNode, bind_of_done (evaluate_builtinName h), bind_of_done hes, callValue,
    bind_of_done (record_apply _ _)]

end

theorem ofNat_beq_zero {n : Nat} (h : n < 2 ^ 64) (hn : n ≠ 0) : (Int64.ofNat n == 0) = false := by
  apply beq_false_of_ne
  intro heq
  have hbits := congrArg (fun i => i.toBitVec.toNat) heq
  simp at hbits
  omega

namespace Loop

variable (l : Loop)

/-- What the names stand for in a call of `iter`. -/
def bindings (array accumulated iter f : Value) : List (String × Value) :=
  [("arr", array), (l.accumulator, accumulated), ("iter", iter), ("f", f)]

variable {l} {n : Nat} {s : ScopeId} {M : Machine} {k : Nat} {a : Value} {as : List Value}
  {y i f : Value}

section
variable {bs : List (String × Value)} (h : M.memory.Offers s bs)
  (harr : ("arr", .array k as) ∈ bs)
include h harr

theorem evalAll_arr :
    evalAll (evaluate (n + 1) s) [.identifier "arr"] M = (.done [.array k as], M) :=
  evalAll_cons (evaluate_name (h.bound _ harr)) rfl

theorem evaluate_len :
    evaluate (n + 2) s (.call (.identifier "len") [.identifier "arr"]) M =
      (.done (.integer (Int64.ofNat as.length)), M.record (.builtinCalled .len 1)) :=
  evaluate_builtin (b := .len) (h.free _ (by decide)) (evalAll_arr h harr)

end

theorem evaluate_rest {bs : List (String × Value)} (h : M.memory.Offers s bs)
    (harr : ("arr", .array k (a :: as)) ∈ bs) :
    evaluate (n + 2) s (.call (.identifier "rest") [.identifier "arr"]) M =
      (.done (.array M.memory.nextStamp as), (M.record (.builtinCalled .rest 1)).stamped) :=
  evaluate_builtin (b := .rest) (h.free _ (by decide)) (evalAll_arr h harr)

theorem evaluate_first {bs : List (String × Value)} (h : M.memory.Offers s bs)
    (harr : ("arr", .array k (a :: as)) ∈ bs) :
    evaluate (n + 2) s (.call (.identifier "first") [.identifier "arr"]) M =
      (.done a, M.record (.builtinCalled .first 1)) :=
  evaluate_builtin (b := .first) (h.free _ (by decide)) (evalAll_arr h harr)

theorem evaluate_isEmpty {bs : List (String × Value)} (h : M.memory.Offers s bs)
    (harr : ("arr", .array k as) ∈ bs) :
    evaluate (n + 3) s
        (.binary .equal (.call (.identifier "len") [.identifier "arr"]) (.integer 0)) M =
      (.done (.boolean (Int64.ofNat as.length == 0)), M.record (.builtinCalled .len 1)) := by
  rw [evaluate, evalNode, bind_of_done (evaluate_len h harr)]
  rfl

/-- With an empty array `iter` comes to what has been accumulated. -/
theorem evaluate_round_nil (h : M.memory.Offers s (l.bindings (.array k []) y i f)) :
    evaluate (n + 4) s l.round M = (.done y, M.record (.builtinCalled .len 1)) := by
  have hname : evaluate (n + 3) s (.identifier l.accumulator) (M.record (.builtinCalled .len 1)) =
      (.done y, M.record (.builtinCalled .len 1)) :=
    evaluate_name (h.bound (l.accumulator, y) (by simp [bindings]))
  rw [evaluate, round, evalNode, bind_of_done (evaluate_isEmpty h List.mem_cons_self)]
  exact runBlock_expression.trans hname

/-- With an array that is not empty `iter` calls itself with the rest of it. -/
theorem evaluate_round_cons (h : M.memory.Offers s (l.bindings (.array k (a :: as)) y i f))
    (hlength : (a :: as).length < 2 ^ 64) :
    evaluate (n + 4) s l.round M =
      (evaluate (n + 2) s l.step >>= fun v =>
          callValue (evaluate (n + 2)) i [.array M.memory.nextStamp as, v])
        ((M.record (.builtinCalled .len 1)).record (.builtinCalled .rest 1)).stamped := by
  have hnonempty : (Int64.ofNat (a :: as).length == 0) = false :=
    ofNat_beq_zero hlength (Nat.succ_ne_zero _)
  have h' : (M.record (.builtinCalled .len 1)).memory.Offers s
      (l.bindings (.array k (a :: as)) y i f) := h
  have hiter : evaluate (n + 2) s (.identifier "iter") (M.record (.builtinCalled .len 1)) =
      (.done i, M.record (.builtinCalled .len 1)) :=
    evaluate_name (h'.bound ("iter", i) (by simp [bindings]))
  have hrest := evaluate_rest (n := n) h' List.mem_cons_self
  rw [evaluate, round, evalNode, bind_of_done (evaluate_isEmpty h List.mem_cons_self), hnonempty]
  refine runBlock_expression.trans ?_
  rw [evaluate, evalNode, bind_of_done hiter, evalAll_pair_bind hrest]
  rfl

end Loop

end Treewalk
