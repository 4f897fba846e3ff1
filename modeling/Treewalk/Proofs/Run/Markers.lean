import Treewalk.Proofs.Run.Containment
import Treewalk.Proofs.Run.Request
import Treewalk.Reading.Basic

namespace Treewalk

open Evaluation

variable {forgotten : ScopeId → Prop}

/-- If no value that is kept is a marker, evaluation is contained. -/
def Guards (forgotten : ScopeId → Prop) (eval : Eval) (keeps : Keeping) : Prop :=
  ∀ scope e m, ¬ forgotten scope → m.memory.Plain forgotten →
    (∀ v, keeps scope e m v → v.isReturned = false) →
    Contained forgotten (eval scope e) m (keeps scope e m) (Value.Flows forgotten)

section
variable {eval : Eval} {keeps : Keeping} (hg : Guards forgotten eval keeps) {scope : ScopeId}
  (hs : ¬ forgotten scope) {m : Machine} (hm : m.memory.Plain forgotten)
include hg hs hm

theorem contained_held {e : Expression}
    (h : ∀ v, Held eval keeps scope e m v → v.isReturned = false) :
    Contained forgotten (eval scope e) m (Held eval keeps scope e m) (Value.Plain forgotten) := by
  obtain ⟨hmemory, hresult, hkept⟩ := hg scope e m hs hm (fun v hv => h v (.inl hv))
  have hplain : ∀ v, (eval scope e m).1 = .done v → v.Plain forgotten := by
    intro v hv
    exact (hresult v hv).plain (h v (.inr ⟨_, Prod.ext hv rfl⟩))
  refine ⟨hmemory, hplain, ?_⟩
  intro v hv
  rcases hv with hv | ⟨m', hv⟩
  · exact hkept v hv
  · exact hplain v (by rw [hv])

theorem contained_statement {s : Statement}
    (h : ∀ v, StatementKeeps eval keeps scope s m v → v.isReturned = false) :
    Contained forgotten (runStatement eval scope s) m (StatementKeeps eval keeps scope s m)
      (Value.Flows forgotten) := by
  cases s with
  | binding name e =>
    refine (contained_held hg hs hm h).bind_quiet (fun v m' _ hv hm' => ?_)
    refine ⟨hm'.define hv, ?_, fun _ h => h.elim⟩
    intro a ha
    cases ha
    exact Value.plain_of_isSimple rfl
  | «return» e =>
    exact (contained_held hg hs hm h).bind_quiet
      (fun v m' _ hv hm' => .pure (a := Value.returned v) hm' hv)
  | expression e => exact hg scope e m hs hm h

/-- The invariant of the statements is that the value so far can flow out. -/
theorem contained_statements {ss : List Statement} {v : Value} (hv : v.Flows forgotten)
    (h : ∀ v, StatementsKeep eval keeps scope ss m v → v.isReturned = false) :
    Contained forgotten (runStatements eval scope ss v) m (StatementsKeep eval keeps scope ss m)
      (Value.Flows forgotten) := by
  induction ss generalizing m v with
  | nil => exact .pure hm hv
  | cons s rest ih =>
    refine Contained.bind (contained_statement hg hs hm (fun w hw => h w (.inl hw)))
      (fun w m' hr hw hm' => ?_)
    cases hret : w.isReturned with
    | true =>
      rw [if_pos rfl]
      exact (Contained.pure hm' hw).mono (fun _ hk => by simp at hk) (fun _ hw => hw)
    | false =>
      rw [if_neg (by simp)]
      have hrest := ih hm' hw (fun u hu => h u (.inr ⟨w, m', hr, hret, hu⟩))
      exact hrest.mono (fun _ hk => hk.2) (fun _ hu => hu)

theorem contained_evalAll {es : List Expression}
    (h : ∀ v, ExpressionsKeep eval keeps scope es m v → v.isReturned = false) :
    Contained forgotten (evalAll (eval scope) es) m (ExpressionsKeep eval keeps scope es m)
      (fun vs => ∀ v ∈ vs, v.Plain forgotten) := by
  induction es generalizing m with
  | nil => exact .pure hm (by simp)
  | cons e rest ih =>
    refine Contained.bind (contained_held hg hs hm (fun w hw => h w (.inl hw)))
      (fun w m' hr hw hm' => ?_)
    exact (ih hm' (fun u hu => h u (.inr ⟨w, m', hr, hu⟩))).bind_quiet
      (fun ws m'' _ hws hm'' => .pure hm'' (List.forall_mem_cons.mpr ⟨hw, hws⟩))

theorem contained_evalPairs {pairs : List (Expression × Expression)} {entries : Entries Value}
    (he : ∀ entry ∈ entries, entry.2.Plain forgotten)
    (h : ∀ v, PairsKeep eval keeps scope pairs m v → v.isReturned = false) :
    Contained forgotten (evalPairs (eval scope) pairs entries) m
      (PairsKeep eval keeps scope pairs m) (fun es => ∀ entry ∈ es, entry.2.Plain forgotten) := by
  induction pairs generalizing m entries with
  | nil => exact .pure hm he
  | cons pair rest ih =>
    obtain ⟨k, e⟩ := pair
    refine Contained.bind (hg scope k m hs hm (fun w hw => h w (.inl hw)))
      (fun w m' hr _ hm' => ?_)
    cases hkey : w.key? with
    | none =>
      have hfail : w.toKey = .error (.unusableKey w.tag) := by rw [Value.toKey, hkey]
      rw [hfail]
      exact (Contained.fail_bind hm' _ _).mono (fun _ hk => by simp at hk) (fun _ hu => hu)
    | some key =>
      have hok : w.toKey = .ok key := by rw [Value.toKey, hkey]
      rw [hok]
      have hsome : w.key?.isSome = true := by rw [hkey]; rfl
      have hvalue := contained_held hg hs hm' (fun v hv => h v (.inr ⟨w, m', hr, hsome, .inl hv⟩))
      refine (Contained.bind hvalue (fun u m'' hr' hu hm'' => ?_)).mono (fun _ hk => hk.2)
        (fun _ hes => hes)
      refine ih hm'' ?_ (fun v hv => h v (.inr ⟨w, m', hr, hsome, .inr ⟨u, m'', hr', hv⟩⟩))
      intro entry hentry
      rcases Entries.mem_insert hentry with rfl | hentry
      · exact hu
      · exact he entry hentry

theorem contained_block {body : Block}
    (h : ∀ v, StatementsKeep eval keeps scope body m v → v.isReturned = false) :
    Contained forgotten (runBlock eval scope body) m (StatementsKeep eval keeps scope body m)
      (Value.Flows forgotten) :=
  contained_statements hg hs hm (Value.plain_of_isSimple rfl).flows h

end

theorem contained_callScope {parameters : List String} {outer : ScopeId} {arguments : List Value}
    {m : Machine} (ho : ¬ forgotten outer) (hm : m.memory.Plain forgotten)
    (ha : ∀ v ∈ arguments, v.Plain forgotten) :
    Contained forgotten (callScope parameters outer arguments) m (fun _ => False)
      (fun inner => ¬ forgotten inner) :=
  (fit_callScope lenient_unmarked (Memory.plain_iff.mp hm) ho
    (fun v hv => Value.plain_iff.mp (ha v hv))).quiet

theorem Evaluation.Contained.asCall {α : Type} {p : Evaluation α} {m : Machine} {arity : Nat}
    {K : Value → Prop} {P : α → Prop} (h : Contained forgotten p (m.startCall arity) K P) :
    Contained forgotten (asCall arity p) m K P :=
  ⟨h.memory, h.result, h.kept⟩

section
variable {eval : Eval} {keeps : Keeping} (hg : Guards forgotten eval keeps)
include hg

theorem contained_enterFunction {parameters : List String} {body : Block} {outer : ScopeId}
    {arguments : List Value} {m : Machine} {n : Nat} (ho : ¬ forgotten outer)
    (hm : m.memory.Plain forgotten) (ha : ∀ v ∈ arguments, v.Plain forgotten)
    (h : ∀ v, CallKeeps eval keeps (.function n parameters body outer) arguments m v →
      v.isReturned = false) :
    Contained forgotten (enterFunction eval parameters body outer arguments) m
      (CallKeeps eval keeps (.function n parameters body outer) arguments m)
      (Value.Plain forgotten) := by
  unfold enterFunction
  split
  · next harity =>
    refine ((contained_callScope ho hm ha).quiet_bind (fun inner m' hr hinner hm' => ?_)).mono
      (fun _ hk => hk.2) (fun _ hv => hv)
    have hbody := contained_block hg hinner (m := m'.startCall parameters.length) hm'
      (fun v hv => h v ⟨harity, inner, m', hr, hv⟩)
    exact hbody.asCall.bind_quiet (fun v m'' _ hv hm'' => .pure hm'' hv.unwrapped)
  · next harity => exact (Contained.fail hm _).mono (fun _ hk => harity hk.1) (fun _ hu => hu)

theorem contained_callValue {callee : Value} {arguments : List Value} {m : Machine}
    (hc : callee.Flows forgotten) (hm : m.memory.Plain forgotten)
    (ha : ∀ v ∈ arguments, v.Plain forgotten)
    (h : ∀ v, CallKeeps eval keeps callee arguments m v → v.isReturned = false) :
    Contained forgotten (callValue eval callee arguments) m
      (CallKeeps eval keeps callee arguments m) (Value.Plain forgotten) := by
  unfold callValue
  split
  · next n parameters body outer =>
    exact contained_enterFunction hg (Value.plain_function.mp hc) hm ha h
  · next b =>
    have hrecord : Quiet forgotten (record (.builtinCalled b arguments.length)) m (fun _ => True) :=
      ⟨hm, fun _ _ => trivial, fun _ h => h.elim⟩
    exact hrecord.bind_quiet (fun _ m' _ _ hm' => quiet_apply hm' ha)
  · next hfunction hbuiltin =>
    refine (Contained.fail hm _).mono (fun _ hk => ?_) (fun _ hv => hv)
    cases callee with
    | function n parameters body outer => exact hfunction n parameters body outer rfl
    | _ => exact hk

theorem contained_node {scope : ScopeId} (hs : ¬ forgotten scope) {m : Machine}
    (hm : m.memory.Plain forgotten) {e : Expression}
    (h : ∀ v, NodeKeeps eval keeps scope e m v → v.isReturned = false) :
    Contained forgotten (evalNode eval scope e) m (NodeKeeps eval keeps scope e m)
      (Value.Flows forgotten) := by
  cases e with
  | identifier name => exact (quiet_nameValue hm hs).mono (fun _ hk => hk) (fun _ hv => hv.flows)
  | integer n => exact .pure hm (Value.plain_of_isSimple rfl).flows
  | boolean b => exact .pure hm (Value.plain_of_isSimple rfl).flows
  | string s => exact .pure hm (Value.plain_of_isSimple rfl).flows
  | unary o e =>
    refine (hg scope e m hs hm h).bind_quiet (fun v m' _ _ hm' => quiet_ofExcept hm' ?_)
    intro w hw
    exact (Value.plain_of_isSimple (o.isSimple_of_apply hw)).flows
  | binary o a b =>
    refine Contained.bind (hg scope a m hs hm (fun v hv => h v (.inl hv))) (fun v m' hr _ hm' => ?_)
    refine (hg scope b m' hs hm' (fun u hu => h u (.inr ⟨v, m', hr, hu⟩))).bind_quiet
      (fun w m'' _ _ hm'' => quiet_ofExcept hm'' ?_)
    intro u hu
    exact (Value.plain_of_isSimple (o.isSimple_of_apply hu)).flows
  | conditional c body alternative =>
    cases alternative with
    | none =>
      refine Contained.bind (hg scope c m hs hm (fun v hv => h v (.inl hv)))
        (fun v m' hr _ hm' => ?_)
      cases htruthy : v.isTruthy with
      | true =>
        rw [if_pos rfl]
        have hbody := contained_block hg hs hm' (fun u hu => h u (.inr ⟨v, m', hr, htruthy, hu⟩))
        exact hbody.mono (fun _ hk => hk.2) (fun _ hv => hv)
      | false =>
        rw [if_neg (by simp)]
        have hnull : Quiet forgotten (pure Value.null) m' (Value.Flows forgotten) :=
          .pure hm' (Value.plain_of_isSimple rfl).flows
        exact hnull.mono (fun _ hk => by simp at hk) (fun _ hv => hv)
    | some other =>
      refine Contained.bind (hg scope c m hs hm (fun v hv => h v (.inl hv)))
        (fun v m' hr _ hm' => ?_)
      have hbody := contained_block hg hs hm' (fun u hu => h u (.inr ⟨v, m', hr, hu⟩))
      cases htruthy : v.isTruthy with
      | true =>
        rw [htruthy] at hbody
        exact hbody
      | false =>
        rw [htruthy] at hbody
        exact hbody
  | function parameters body =>
    exact (quiet_newFunction hm hs).mono (fun _ hk => hk) (fun _ hv => hv.flows)
  | call f arguments =>
    refine Contained.bind (hg scope f m hs hm (fun v hv => h v (.inl hv)))
      (fun v m' hr hv hm' => ?_)
    have harguments :=
      contained_evalAll hg hs hm' (fun u hu => h u (.inr ⟨v, m', hr, .inl hu⟩))
    refine Contained.bind harguments (fun vs m'' hr' hvs hm'' => ?_)
    have hcall := contained_callValue hg hv hm'' hvs
      (fun u hu => h u (.inr ⟨v, m', hr, .inr ⟨vs, m'', hr', hu⟩⟩))
    exact hcall.mono (fun _ hk => hk) (fun _ hv => hv.flows)
  | array elements =>
    refine (contained_evalAll hg hs hm h).bind_quiet (fun vs m' _ hvs hm' => ?_)
    exact (quiet_newArray hm' hvs).mono (fun _ hk => hk) (fun _ hv => hv.flows)
  | index c i =>
    refine Contained.bind (hg scope c m hs hm (fun v hv => h v (.inl hv)))
      (fun v m' hr hv hm' => ?_)
    refine (hg scope i m' hs hm' (fun u hu => h u (.inr ⟨v, m', hr, hu⟩))).bind_quiet
      (fun w m'' _ _ hm'' => quiet_ofExcept hm'' ?_)
    intro u hu
    exact (Value.plain_at hv hu).flows
  | hash pairs =>
    refine (contained_evalPairs hg hs hm (by simp) h).bind_quiet (fun es m' _ hes hm' => ?_)
    exact (quiet_newHash hm' hes).mono (fun _ hk => hk) (fun _ hv => hv.flows)

end

theorem guards_evaluate (forgotten : ScopeId → Prop) (n : Nat) :
    Guards forgotten (evaluate n) (Keeps n) := by
  induction n with
  | zero =>
    intro scope e m _ hm _
    refine ⟨hm, ?_, fun _ h => h.elim⟩
    intro a ha
    cases ha
  | succ n ih =>
    intro scope e m hs hm h
    exact contained_node ih hs hm h

namespace Request

/-- What is kept while the request is run. -/
def Keeps : Request → Nat → Machine → Value → Prop
  | program p scope, budget =>
    StatementsKeep (evaluate budget) (Treewalk.Keeps budget) scope p.statements
  | call callee arguments, budget =>
    CallKeeps (evaluate budget) (Treewalk.Keeps budget) callee arguments

/-- Nothing that the request can reach is or holds a marker. -/
structure MarkerFree (r : Request) (m : Machine) : Prop where
  given : ∀ v ∈ r.given, v.MarkerFree
  bound : ∀ s, m.memory.Reachable r.roots s → ∀ b ∈ m.memory.bindings s, b.2.MarkerFree

/-- The scopes that exist already and that the request cannot reach. -/
def Forgotten (r : Request) (m : Machine) (s : ScopeId) : Prop :=
  s < m.memory.scopes.size ∧ ¬ m.memory.Reachable r.roots s

section
variable {r : Request} {m : Machine}

theorem not_forgotten {s : ScopeId} (hs : m.memory.Reachable r.roots s) : ¬ r.Forgotten m s :=
  hs.not_forgotten

theorem MarkerFree.memory (h : r.MarkerFree m) : m.memory.Plain (r.Forgotten m) := by
  have hshows : m.memory.Shows r.roots Value.Unmarked :=
    fun s hs b hb => Value.markerFree_iff.mp (h.bound s hs b hb)
  exact Memory.plain_iff.mpr hshows.fits

theorem MarkerFree.plain {callee : Value} {arguments : List Value}
    (h : (call callee arguments).MarkerFree m) :
    ∀ v ∈ callee :: arguments, v.Plain ((call callee arguments).Forgotten m) := by
  intro v hv
  exact ⟨h.given v hv, fun s hs => not_forgotten (.root ⟨v, hv, hs⟩)⟩

theorem contained (budget : Nat) (h : r.MarkerFree m)
    (hk : ∀ v, r.Keeps budget m v → v.isReturned = false) :
    Contained (r.Forgotten m) (r.run budget) m (r.Keeps budget m)
      (Value.Plain (r.Forgotten m)) := by
  have hg := guards_evaluate (r.Forgotten m) budget
  cases r with
  | program p scope =>
    have hscope := not_forgotten (.root rfl : m.memory.Reachable (program p scope).roots scope)
    exact (contained_block hg hscope h.memory hk).bind_quiet
      (fun v m' _ hv hm' => .pure hm' hv.unwrapped)
  | call callee arguments =>
    obtain ⟨hcallee, harguments⟩ := List.forall_mem_cons.mp h.plain
    exact contained_callValue hg hcallee.flows h.memory harguments hk

end

/-- The markers of a run stay where they belong, which is to say that none is or gets into a value
that is kept, into the result, or into anything bound in a scope that could be reached or is new,
exactly if no value that is kept is itself a marker. -/
theorem keeps_unmarked_iff (r : Request) (budget : Nat) (m : Machine) (h : r.MarkerFree m) :
    (∀ v, r.Keeps budget m v → v.isReturned = false) ↔
      (∀ v, r.Keeps budget m v → v.MarkerFree) ∧
      (∀ v, (r.run budget m).1 = .done v → v.MarkerFree) ∧
      ∀ s, m.memory.Reachable r.roots s ∨ m.memory.scopes.size ≤ s →
        ∀ b ∈ (r.run budget m).2.memory.bindings s, b.2.MarkerFree := by
  constructor
  · intro hk
    have hc := contained budget h hk
    refine ⟨fun v hv => (hc.kept v hv).1, fun v hv => (hc.result v hv).1, fun s hs b hb => ?_⟩
    refine (hc.memory.bound s ?_ b hb).1
    intro hforgotten
    obtain ⟨hlt, hnot⟩ := hforgotten
    rcases hs with hs | hs
    · exact hnot hs
    · exact Nat.not_le_of_lt hlt hs
  · intro hfree v hv
    exact (hfree.1 v hv).isReturned

/-- A `return` whose value comes out of a block that returns itself. -/
def nestedReturn : Block := [.return (.conditional (.boolean true) [.return (.integer 1)] none)]

/-- A machine with one scope, which binds nothing. -/
def emptyMachine : Machine := .ofMemory Memory.empty.newScope.2

theorem markerFree_call_nestedReturn :
    (call (.function 0 [] nestedReturn 0) []).MarkerFree emptyMachine := by
  refine ⟨?_, ?_⟩
  · intro v hv
    rw [given, List.mem_singleton] at hv
    subst hv
    intro w hw
    cases hw
  · exact fun s _ b hb => absurd hb Memory.not_mem_empty_newScope

theorem call_nestedReturn :
    parse "fn() \x7b return if (true) \x7b return 1 \x7d \x7d" =
      .ok ⟨[.expression (.function [] nestedReturn)]⟩ ∧
    (call (.function 0 [] nestedReturn 0) []).MarkerFree emptyMachine ∧
    ((call (.function 0 [] nestedReturn 0) []).run 10 emptyMachine).1 =
      .done (.returned (.integer 1)) ∧
    ¬ (Value.returned (.integer 1)).MarkerFree :=
  ⟨rfl, markerFree_call_nestedReturn, rfl, fun h => h _ .itself⟩

theorem exists_keeps_nestedReturn :
    (call (.function 0 [] nestedReturn 0) []).MarkerFree emptyMachine ∧
    ∃ v, (call (.function 0 [] nestedReturn 0) []).Keeps 10 emptyMachine v ∧
      v.isReturned = true := by
  refine ⟨markerFree_call_nestedReturn, ?_⟩
  refine Classical.byContradiction (fun hnone => ?_)
  have hk : ∀ v, (call (.function 0 [] nestedReturn 0) []).Keeps 10 emptyMachine v →
      v.isReturned = false := by
    intro v hv
    cases hret : v.isReturned with
    | false => rfl
    | true => exact absurd ⟨v, hv, hret⟩ hnone
  have hfree := (keeps_unmarked_iff _ 10 emptyMachine markerFree_call_nestedReturn).mp hk
  exact hfree.2.1 (.returned (.integer 1)) rfl _ .itself

end Request

end Treewalk
