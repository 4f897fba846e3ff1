import Treewalk.Proofs.Exits.Escaping
import Treewalk.Proofs.Exits.Placement
import Treewalk.Session.Basic

namespace Treewalk

open Evaluation

variable {forgotten : ScopeId → Prop}

namespace Evaluation

variable {α β γ : Type} {p : Evaluation α} {m : Machine}

theorem bind_bind (p : Evaluation α) (f : α → Evaluation β) (k : β → Evaluation γ) (m : Machine) :
    ((p >>= f) >>= k) m = (p >>= fun a => f a >>= k) m := by
  simp only [bind_apply]
  cases p m with
  | mk outcome m' => cases outcome <;> rfl

theorem bind_congr {f g : α → Evaluation β} (h : ∀ a m', p m = (.done a, m') → f a m' = g a m') :
    (p >>= f) m = (p >>= g) m := by
  cases hp : p m with
  | mk outcome m' =>
    cases outcome with
    | done a => rw [bind_of_done hp, bind_of_done hp, h a m' hp]
    | failed fault => rw [bind_of_failed hp, bind_of_failed hp]
    | exhausted => rw [bind_of_exhausted hp, bind_of_exhausted hp]

theorem asCall_bind {arity : Nat} {f : α → β} :
    asCall arity (p >>= fun a => pure (f a)) m = (asCall arity p >>= fun a => pure (f a)) m := by
  rw [asCall_apply, bind_apply, bind_apply, asCall_apply]
  cases p (m.startCall arity) with
  | mk outcome m' => cases outcome <;> rfl

end Evaluation

/-- What a statement makes of its value: it goes on, unless the value marks a `return`. -/
def Value.exit : Value → Except Value Value
  | .returned v => .error v
  | v => .ok v

/-- The value fits, or marks that a value that fits is returned, if that is possible. -/
def Value.Leaves (forgotten : ScopeId → Prop) (returns : Bool) : Value → Prop
  | .returned v => returns = true ∧ v.Fits forgotten Value.Placed
  | v => v.Fits forgotten Value.Placed

/-- In the machine both steps do the same, if `out` tells how the one ends where the other has a
value. What is in sight fits afterwards. As no value in sight is a marker, operands never are. -/
structure Agree {α β : Type} (forgotten : ScopeId → Prop) (out : α → Except Value β)
    (p : Evaluation α) (q : Escaping β) (m : Machine) (P : α → Prop) : Prop where
  same : q.run m = (p >>= fun a => pure (out a)) m
  fit : Fit forgotten Value.Placed p m P

namespace Value

variable {v : Value} {returns : Bool}

theorem Fits.exit (h : v.Fits forgotten Placed) : v.exit = .ok v := by
  cases v with
  | returned w => exact h.here.elim
  | _ => rfl

theorem Fits.leaves (h : v.Fits forgotten Placed) : v.Leaves forgotten returns := by
  cases v with
  | returned w => exact h.here.elim
  | _ => exact h

theorem Leaves.fits (h : v.Leaves forgotten false) : v.Fits forgotten Placed := by
  cases v with
  | returned w => cases h.1
  | _ => exact h

theorem Leaves.mono (h : v.Leaves forgotten returns) {more : Bool}
    (hr : returns = true → more = true) : v.Leaves forgotten more := by
  cases v with
  | returned w => exact ⟨hr h.1, h.2⟩
  | _ => exact h

theorem Leaves.unwrapped (h : v.Leaves forgotten returns) : v.unwrapped.Fits forgotten Placed := by
  cases v with
  | returned w => exact h.2
  | _ => exact h

end Value

namespace Escaping

variable {α β γ : Type} {out : α → Except Value β} {p : Evaluation α} {q : Escaping β} {m : Machine}

theorem run_bind (h : q.run m = (p >>= fun a => pure (out a)) m) (g : β → Escaping γ) :
    (q >>= g).run m = (p >>= fun a =>
      match out a with
      | .ok b => (g b).run
      | .error v => pure (.error v)) m := by
  rw [ExceptT.run_bind, bind_apply, h, ← bind_apply, bind_bind]
  refine bind_congr ?_
  intro a m' _
  rw [bind_of_done (pure_apply _ _)]
  cases out a <;> rfl

theorem caught_apply {q : Escaping Value} {p : Evaluation Value}
    (h : q.run m = (p >>= fun v => pure v.exit) m) :
    q.caught m = (p >>= fun v => pure v.unwrapped) m := by
  rw [caught, bind_apply, h, ← bind_apply, bind_bind]
  refine bind_congr ?_
  intro v m' _
  cases v <;> rfl

end Escaping

namespace Agree

variable {α β γ : Type} {m : Machine} {P : α → Prop}

theorem lift_of_eq {p p' : Evaluation α} (h : p' m = p m) (hp : Fit forgotten Value.Placed p m P) :
    Agree forgotten .ok p (Escaping.lift p') m P := by
  refine ⟨?_, hp⟩
  have hlift : (Escaping.lift p').run m = (p' >>= fun a => Pure.pure (.ok a)) m := rfl
  rw [hlift, bind_apply, h, ← bind_apply]

theorem lift {p : Evaluation α} (h : Fit forgotten Value.Placed p m P) :
    Agree forgotten .ok p (Escaping.lift p) m P :=
  lift_of_eq rfl h

theorem pure {a : α} (hm : m.memory.Fits forgotten Value.Placed) (ha : P a) :
    Agree forgotten .ok (Pure.pure a) (Pure.pure a) m P :=
  ⟨rfl, .pure hm ha⟩

theorem imp {out : α → Except Value β} {p : Evaluation α} {q : Escaping β}
    (h : Agree forgotten out p q m P) {P' : α → Prop} (hP : ∀ a, P a → P' a) :
    Agree forgotten out p q m P' :=
  ⟨h.same, h.fit.imp hP⟩

theorem after {out : α → Except Value β} {p : Evaluation α} {q : Escaping β}
    (h : Agree forgotten out p q m P) {a : α} {m' : Machine} (hrun : p m = (.done a, m')) :
    P a ∧ m'.memory.Fits forgotten Value.Placed := by
  obtain ⟨hm', -, ha⟩ := h.fit
  rw [hrun] at hm' ha
  exact ⟨ha a rfl, hm'⟩

/-- An operand is never a marker, so the step after it takes place in both evaluations. -/
theorem bind {p : Evaluation α} {q : Escaping α} {f : α → Evaluation β} {out : β → Except Value γ}
    {g : α → Escaping γ} {R : β → Prop} (h : Agree forgotten .ok p q m P)
    (hf : ∀ a m', P a → m'.memory.Fits forgotten Value.Placed →
      Agree forgotten out (f a) (g a) m' R) : Agree forgotten out (p >>= f) (q >>= g) m R := by
  refine ⟨?_, h.fit.bind (fun a m' ha hm' => (hf a m' ha hm').fit)⟩
  rw [Escaping.run_bind h.same, bind_bind]
  refine bind_congr ?_
  intro a m' hrun
  obtain ⟨ha, hm'⟩ := h.after hrun
  exact (hf a m' ha hm').same

section
variable {p : Evaluation Value} {q : Escaping Value} {returns : Bool}

/-- A statement may be left; then neither evaluation goes on. -/
theorem seq {f : Value → Evaluation Value} {g : Value → Escaping Value}
    (h : Agree forgotten Value.exit p q m (Value.Leaves forgotten returns))
    (hf : ∀ v m', v.Fits forgotten Value.Placed → m'.memory.Fits forgotten Value.Placed →
      Agree forgotten Value.exit (f v) (g v) m' (Value.Leaves forgotten returns)) :
    Agree forgotten Value.exit (p >>= fun v => if v.isReturned then Pure.pure v else f v) (q >>= g) m
      (Value.Leaves forgotten returns) := by
  refine ⟨?_, h.fit.bind (fun v m' hv hm' => ?_)⟩
  · rw [Escaping.run_bind h.same, bind_bind]
    refine bind_congr ?_
    intro v m' hrun
    obtain ⟨hv, hm'⟩ := h.after hrun
    cases v with
    | returned w => rfl
    | _ => exact (hf _ m' hv hm').same
  · cases v with
    | returned w => exact .pure hm' hv
    | _ => exact (hf _ m' hv hm').fit

theorem leaves (h : Agree forgotten .ok p q m (Value.Fits forgotten Value.Placed)) :
    Agree forgotten Value.exit p q m (Value.Leaves forgotten returns) := by
  refine ⟨h.same.trans (bind_congr (fun v m' hrun => ?_)), h.fit.imp (fun v hv => hv.leaves)⟩
  rw [(h.after hrun).1.exit]

theorem operand (h : Agree forgotten Value.exit p q m (Value.Leaves forgotten false)) :
    Agree forgotten .ok p q m (Value.Fits forgotten Value.Placed) := by
  refine ⟨h.same.trans (bind_congr (fun v m' hrun => ?_)), h.fit.imp (fun v hv => hv.fits)⟩
  rw [(h.after hrun).1.fits.exit]

end

end Agree

/-- Expressions that are placed are evaluated alike. -/
def AgreeEval (forgotten : ScopeId → Prop) (eval : Eval) (eval' : Escaping.Eval) : Prop :=
  ∀ {scope whole e m}, Expression.placed whole e = true → ¬ forgotten scope →
    m.memory.Fits forgotten Value.Placed →
      Agree forgotten Value.exit (eval scope e) (eval' scope e) m (Value.Leaves forgotten e.returns)

section
variable {eval : Eval} {eval' : Escaping.Eval} (he : AgreeEval forgotten eval eval')
  {scope : ScopeId} (hs : ¬ forgotten scope) {m : Machine}
  (hm : m.memory.Fits forgotten Value.Placed)
include he hs hm

theorem agree_operand {e : Expression} (h : e.placed false = true) :
    Agree forgotten .ok (eval scope e) (eval' scope e) m (Value.Fits forgotten Value.Placed) := by
  have hagree := he h hs hm
  -- No `return` occurs in the operand, so what it leaves cannot be a marker.
  rw [Expression.returns_of_placed h] at hagree
  exact hagree.operand

theorem agree_statement {s : Statement} (h : s.placed = true) :
    Agree forgotten Value.exit (runStatement eval scope s) (Escaping.statement eval' scope s) m
      (Value.Leaves forgotten s.returns) := by
  cases s with
  | binding name e =>
    refine (agree_operand he hs hm h).bind ?_
    intro v m' hv hm'
    have hdefine : Fit forgotten Value.Placed (define scope name v) m' (fun _ => True) :=
      .done (define_apply scope name v m') (hm'.define hv) trivial
    exact (Agree.lift hdefine).bind (fun _ m'' _ hm'' =>
      (Agree.pure hm'' (lenient_placed.fits rfl)).leaves)
  | «return» e =>
    refine (agree_operand he hs hm h).bind ?_
    intro v m' hv hm'
    exact ⟨rfl, .pure hm' ⟨rfl, hv⟩⟩
  | expression e => exact he h hs hm

theorem agree_statements {ss : List Statement} {v : Value} (h : blockPlaced ss = true)
    (hv : v.Fits forgotten Value.Placed) :
    Agree forgotten Value.exit (runStatements eval scope ss v)
      (Escaping.statements eval' scope ss v) m (Value.Leaves forgotten (blockReturns ss)) := by
  induction ss generalizing m v with
  | nil => exact (Agree.pure hm hv).leaves
  | cons s rest ih =>
    obtain ⟨hs', hrest⟩ := Bool.and_eq_true_iff.mp h
    -- Whatever can leave the first statement or the rest can leave the whole.
    have hfirst : Agree forgotten Value.exit (runStatement eval scope s)
        (Escaping.statement eval' scope s) m
        (Value.Leaves forgotten (blockReturns (s :: rest))) :=
      (agree_statement he hs hm hs').imp (fun w hw =>
        hw.mono (fun hr => by simp [blockReturns, hr]))
    refine hfirst.seq ?_
    intro w m' hw hm'
    exact (ih hm' hrest hw).imp (fun u hu => hu.mono (fun hr => by simp [blockReturns, hr]))

theorem agree_block {body : Block} (h : blockPlaced body = true) :
    Agree forgotten Value.exit (runBlock eval scope body) (Escaping.block eval' scope body) m
      (Value.Leaves forgotten (blockReturns body)) :=
  agree_statements he hs hm h (lenient_placed.fits rfl)

theorem agree_evalAll {es : List Expression} (h : listPlaced es = true) :
    Agree forgotten .ok (evalAll (eval scope) es) (Escaping.all (eval' scope) es) m
      (fun vs => ∀ v ∈ vs, v.Fits forgotten Value.Placed) := by
  induction es generalizing m with
  | nil => exact .pure hm (by simp)
  | cons e rest ih =>
    obtain ⟨hplaced, hrest⟩ := Bool.and_eq_true_iff.mp h
    refine (agree_operand he hs hm hplaced).bind ?_
    intro v m' hv hm'
    refine (ih hm' hrest).bind ?_
    intro vs m'' hvs hm''
    exact .pure hm'' (List.forall_mem_cons.mpr ⟨hv, hvs⟩)

theorem agree_evalPairs {pairs : List (Expression × Expression)} {entries : Entries Value}
    (h : pairsPlaced pairs = true)
    (hentries : ∀ entry ∈ entries, entry.2.Fits forgotten Value.Placed) :
    Agree forgotten .ok (evalPairs (eval scope) pairs entries)
      (Escaping.pairs (eval' scope) pairs entries) m
      (fun es => ∀ entry ∈ es, entry.2.Fits forgotten Value.Placed) := by
  induction pairs generalizing m entries with
  | nil => exact .pure hm hentries
  | cons pair rest ih =>
    obtain ⟨k, e⟩ := pair
    obtain ⟨hke, hrest⟩ := Bool.and_eq_true_iff.mp h
    obtain ⟨hk, hplaced⟩ := Bool.and_eq_true_iff.mp hke
    refine (agree_operand he hs hm hk).bind ?_
    intro v m' _ hm'
    have hkey : Fit forgotten Value.Placed (ofExcept v.toKey) m' (fun _ => True) :=
      .ofExcept hm' (fun _ _ => trivial)
    refine (Agree.lift hkey).bind ?_
    intro key m'' _ hm''
    refine (agree_operand he hs hm'' hplaced).bind ?_
    intro w m₃ hw hm₃
    refine ih hm₃ hrest ?_
    intro entry hentry
    rcases Entries.mem_insert hentry with rfl | hentry
    · exact hw
    · exact hentries entry hentry

end

section
variable {eval : Eval} {eval' : Escaping.Eval} (he : AgreeEval forgotten eval eval')
include he

/-- A call ends where its body is left. -/
theorem agree_body {inner : ScopeId} (hinner : ¬ forgotten inner) {m : Machine}
    (hm : m.memory.Fits forgotten Value.Placed) {body : Block} (h : blockPlaced body = true)
    (arity : Nat) :
    Agree forgotten .ok (asCall arity (runBlock eval inner body) >>= fun v => pure v.unwrapped)
      (Escaping.lift (asCall arity (Escaping.block eval' inner body).caught)) m
      (Value.Fits forgotten Value.Placed) := by
  have hblock := agree_block he hinner (m := m.startCall arity) hm h
  -- Unwrapping commutes with counting the call, so it may be done inside, where `caught` does it.
  refine .lift_of_eq ?_ ?_
  · rw [← asCall_bind, asCall_apply, asCall_apply, Escaping.caught_apply hblock.same]
  · refine (hblock.fit.asCall (fun _ hm' => hm') (fun _ _ hv => hv)).bind ?_
    intro v m' _ hm' hv
    exact .pure hm' hv.unwrapped

theorem agree_call {callee : Value} {arguments : List Value} {m : Machine}
    (hm : m.memory.Fits forgotten Value.Placed) (hc : callee.Fits forgotten Value.Placed)
    (ha : ∀ v ∈ arguments, v.Fits forgotten Value.Placed) :
    Agree forgotten .ok (callValue eval callee arguments) (Escaping.call eval' callee arguments) m
      (Value.Fits forgotten Value.Placed) := by
  cases callee with
  | function n parameters body outer =>
    obtain ⟨hbody, ho⟩ := Value.fits_function.mp hc
    simp only [callValue, enterFunction, Escaping.call]
    split
    · refine (Agree.lift (fit_callScope lenient_placed hm ho ha)).bind ?_
      intro inner m' hinner hm'
      exact agree_body he hinner hm' hbody parameters.length
    · exact .lift (.fail hm _)
  | builtin b =>
    have hrecord : Fit forgotten Value.Placed (record (.builtinCalled b arguments.length)) m
        (fun _ => True) :=
      .done (record_apply _ m) hm trivial
    exact (Agree.lift hrecord).bind
      (fun _ m' _ hm' => .lift (fit_apply lenient_placed hm' ha))
  | _ => exact .lift (.fail hm _)

theorem agree_node {scope : ScopeId} (hs : ¬ forgotten scope) {whole : Bool} {e : Expression}
    (h : e.placed whole = true) {m : Machine} (hm : m.memory.Fits forgotten Value.Placed) :
    Agree forgotten Value.exit (evalNode eval scope e) (Escaping.node eval' scope e) m
      (Value.Leaves forgotten e.returns) := by
  cases e with
  | identifier name => exact (Agree.lift (fit_nameValue lenient_placed hm hs)).leaves
  | integer n => exact (Agree.pure hm (lenient_placed.fits rfl)).leaves
  | boolean b => exact (Agree.pure hm (lenient_placed.fits rfl)).leaves
  | string s => exact (Agree.pure hm (lenient_placed.fits rfl)).leaves
  | unary o e =>
    refine (agree_operand he hs hm h).bind (fun v m' _ hm' => (Agree.lift ?_).leaves)
    exact .ofExcept hm' (fun w hw => lenient_placed.fits (o.isAtom_of_apply hw))
  | binary o a b =>
    obtain ⟨ha, hb⟩ := Bool.and_eq_true_iff.mp h
    refine (agree_operand he hs hm ha).bind ?_
    intro v m' _ hm'
    refine (agree_operand he hs hm' hb).bind (fun w m'' _ hm'' => (Agree.lift ?_).leaves)
    exact .ofExcept hm'' (fun u hu => lenient_placed.fits (o.isAtom_of_apply hu))
  | conditional c body alternative =>
    cases alternative with
    | none =>
      obtain ⟨hif, hbody⟩ := Bool.and_eq_true_iff.mp h
      have hc := (Bool.and_eq_true_iff.mp hif).2
      refine (agree_operand he hs hm hc).bind ?_
      intro v m' _ hm'
      split
      · exact (agree_block he hs hm' hbody).imp (fun w hw =>
          hw.mono (fun hr => by simp [Expression.returns, hr]))
      · exact (Agree.pure hm' (lenient_placed.fits rfl)).leaves
    | some other =>
      obtain ⟨hifbody, hother⟩ := Bool.and_eq_true_iff.mp h
      obtain ⟨hif, hbody⟩ := Bool.and_eq_true_iff.mp hifbody
      have hc := (Bool.and_eq_true_iff.mp hif).2
      refine (agree_operand he hs hm hc).bind ?_
      intro v m' _ hm'
      split
      · exact (agree_block he hs hm' hbody).imp (fun w hw =>
          hw.mono (fun hr => by simp [Expression.returns, hr]))
      · exact (agree_block he hs hm' hother).imp (fun w hw =>
          hw.mono (fun hr => by simp [Expression.returns, hr]))
  | function parameters body =>
    exact (Agree.lift (fit_newFunction hm (fun _ => h) hs)).leaves
  | call f arguments =>
    obtain ⟨hf, ha⟩ := Bool.and_eq_true_iff.mp h
    refine (agree_operand he hs hm hf).bind ?_
    intro v m' hv hm'
    refine (agree_evalAll he hs hm' ha).bind ?_
    intro vs m'' hvs hm''
    exact (agree_call he hm'' hv hvs).leaves
  | array elements =>
    refine (agree_evalAll he hs hm h).bind ?_
    intro vs m' hvs hm'
    exact (Agree.lift (fit_newArray lenient_placed hm' hvs)).leaves
  | index c i =>
    obtain ⟨hc, hi⟩ := Bool.and_eq_true_iff.mp h
    refine (agree_operand he hs hm hc).bind ?_
    intro v m' hv hm'
    refine (agree_operand he hs hm' hi).bind (fun w m'' _ hm'' => (Agree.lift ?_).leaves)
    exact .ofExcept hm'' (fun u hu => Value.fits_at lenient_placed hv hu)
  | hash pairs =>
    refine (agree_evalPairs he hs hm h (by simp)).bind ?_
    intro es m' hes hm'
    exact (Agree.lift (fit_newHash lenient_placed hm' hes)).leaves

end

theorem agreeEval_evaluate (n : Nat) :
    AgreeEval forgotten (evaluate n) (Escaping.evaluate n) := by
  induction n with
  | zero => exact fun _ _ hm => ⟨rfl, .of_exhausted rfl hm⟩
  | succ n ih => exact fun h hs hm => agree_node ih hs h hm

section
variable {p : Program} (hp : blockPlaced p.statements = true) (budget : Nat) {scope : ScopeId}
  {m : Machine} (hm : m.memory.Shows (fun s => s = scope) Value.Placed)
include hp hm

theorem agree_program :
    Agree (m.memory.Forgotten (fun s => s = scope)) Value.exit
      (runBlock (evaluate budget) scope p.statements)
      (Escaping.block (Escaping.evaluate budget) scope p.statements) m
      (Value.Leaves (m.memory.Forgotten (fun s => s = scope)) (blockReturns p.statements)) := by
  have hscope : m.memory.Reachable (fun s => s = scope) scope := .root rfl
  exact agree_block (agreeEval_evaluate budget) hscope.not_forgotten hm.fits hp

/-- The program that was run leaves everything in its scope such that others can be run there. -/
theorem shows_placed_run :
    (p.run budget scope m).2.memory.Shows (fun s => s = scope) Value.Placed := by
  have hfit := (agree_program hp budget hm).fit.bind (fun v _ hv hm' =>
    Fit.pure (P := Value.Fits _ Value.Placed) hm' hv.unwrapped)
  refine hfit.machine.shows ?_
  intro s hs
  have hreach : m.memory.Reachable (fun s => s = scope) s := .root hs
  exact hreach.not_forgotten

end

/-- A program is run as if every `return` in it left at once for the call or the program around it,
if each `if` with a `return` in it is the whole of a statement, in the program and in all functions
that are in sight, and no marker is in sight. Outcome, journal and memory are the same. -/
theorem run_eq_runEscaping {p : Program} (hp : blockPlaced p.statements = true) (budget : Nat)
    {scope : ScopeId} {m : Machine}
    (hm : m.memory.Shows (fun s => s = scope) Value.Placed) :
    p.run budget scope m = p.runEscaping budget scope m := by
  have hagree := agree_program hp budget hm
  -- The program unwraps the marker that leaves its statements just as `caught` ends an escape.
  exact (Escaping.caught_apply hagree.same).symm

/-- Prints and returns from inside two blocks of a function, and from a block of the program. -/
def leaving : Program :=
  ⟨[.binding "f" (.function ["x"]
      [.expression (.conditional (.binary .greater (.identifier "x") (.integer 0))
        [.expression (.conditional (.binary .greater (.identifier "x") (.integer 1))
          [.return (.integer 10)] none),
          .expression (.call (.identifier "puts") [.identifier "x"])] none),
        .expression (.integer 5)]),
    .expression (.conditional (.boolean true)
      [.return (.binary .add (.call (.identifier "f") [.integer 2])
        (.call (.identifier "f") [.integer 1])),
        .expression (.identifier "y")] none),
    .expression (.identifier "z")]⟩

theorem leaving_run :
    blockPlaced leaving.statements = true ∧
      Session.new.memory.Shows (fun s => s = Session.new.scope) Value.Placed ∧
      leaving.run 20 Session.new.scope (.ofMemory Session.new.memory) =
        leaving.runEscaping 20 Session.new.scope (.ofMemory Session.new.memory) ∧
      (leaving.runEscaping 20 Session.new.scope (.ofMemory Session.new.memory)).1 =
        .done (.integer 15) := by
  have hplaced : blockPlaced leaving.statements = true := rfl
  have hshows : Session.new.memory.Shows (fun s => s = Session.new.scope) Value.Placed :=
    fun _ _ _ hb => absurd hb Memory.not_mem_empty_newScope
  exact ⟨hplaced, hshows, run_eq_runEscaping hplaced 20 (m := .ofMemory Session.new.memory) hshows,
    by cbv⟩

end Treewalk
