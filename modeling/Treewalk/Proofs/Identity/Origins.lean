import Treewalk.Proofs.Identity.Accounts
import Treewalk.Proofs.Identity.Handing

namespace Treewalk

open Evaluation

/-- Evaluations account for what is delivered meanwhile, their own results included. -/
def AccountedEval (eval : Eval) (deliveries : Delivering) : Prop :=
  ∀ (t : Deliveries) scope e m, t.Accounts m.memory →
    Accounted t (eval scope e) m (deliveries scope e m) Deliveries.Delivers

section
variable {eval : Eval} {deliveries : Delivering} (he : AccountedEval eval deliveries)
  {t : Deliveries} {m : Machine}
include he

theorem accounted_statement (scope : ScopeId) (s : Statement) (hm : t.Accounts m.memory) :
    Accounted t (runStatement eval scope s) m (statementDeliveries deliveries scope s m)
      Deliveries.Knows := by
  cases s with
  | binding name e =>
    refine (he t scope e m hm).bind_quiet (fun v m' hv hm' => ?_)
    exact .quiet _ rfl (hm'.define scope name hv) (Deliveries.knows_of_isAtom rfl)
  | «return» e =>
    exact (he t scope e m hm).bind_quiet (fun v m' hv hm' => .pure hm' (hm'.knows hv).returned)
  | expression e => exact (he t scope e m hm).imp (fun v hfaithful hv => hfaithful.knows hv)

theorem accounted_statements (scope : ScopeId) {ss : List Statement} {v : Value}
    (hm : t.Accounts m.memory) (hv : t.Knows v) :
    Accounted t (runStatements eval scope ss v) m
      (statementsDeliveries eval deliveries scope ss m) Deliveries.Knows := by
  -- What one statement delivers is there already when the next one is run.
  induction ss generalizing t m v with
  | nil => exact .pure hm hv
  | cons s rest ih =>
    refine (accounted_statement he scope s hm).bind (fun w m' hw hm' => ?_)
    split
    · exact .pure hm' hw
    · exact ih hm' hw

theorem accounted_block (scope : ScopeId) (body : Block) (hm : t.Accounts m.memory) :
    Accounted t (runBlock eval scope body) m (statementsDeliveries eval deliveries scope body m)
      Deliveries.Knows :=
  accounted_statements he scope hm (Deliveries.knows_of_isAtom rfl)

theorem accounted_evalAll (scope : ScopeId) {es : List Expression} (hm : t.Accounts m.memory) :
    Accounted t (evalAll (eval scope) es) m (expressionsDeliveries eval deliveries scope es m)
      (fun t vs => ∀ v ∈ vs, t.Delivers v) := by
  induction es generalizing t m with
  | nil => exact .pure hm (by simp)
  | cons e rest ih =>
    refine (he t scope e m hm).bind (fun v m' hv hm' => ?_)
    refine (ih hm').bind_quiet (fun vs m'' hvs hm'' => .pure hm'' ?_)
    exact List.forall_mem_cons.mpr ⟨hv.append _, hvs⟩

theorem accounted_evalPairs (scope : ScopeId) {pairs : List (Expression × Expression)}
    {entries : Entries Value} (hm : t.Accounts m.memory) (hdistinct : entries.Distinct)
    (hentries : ∀ e ∈ entries, t.Knows e.2) :
    Accounted t (evalPairs (eval scope) pairs entries) m
      (pairsDeliveries eval deliveries scope pairs m)
      (fun t entries => entries.Distinct ∧ ∀ e ∈ entries, t.Knows e.2) := by
  induction pairs generalizing t m entries with
  | nil => exact .pure hm ⟨hdistinct, hentries⟩
  | cons pair rest ih =>
    obtain ⟨k, e⟩ := pair
    refine (he t scope k m hm).bind (fun v m' _ hm' => ?_)
    cases hkey : v.key? with
    | none =>
      have hrefused : ofExcept v.toKey m' = (.failed (.unusableKey v.tag), m') := by
        rw [Value.toKey, hkey]
        rfl
      rw [if_neg (by simp)]
      exact .failed (bind_of_failed hrefused) hm'
    | some key =>
      have haccepted : ofExcept v.toKey m' = (.done key, m') := by
        rw [Value.toKey, hkey]
        rfl
      rw [if_pos Option.isSome_some]
      refine Accounted.of_eq (bind_of_done haccepted) ?_
      refine (he _ scope e m' hm').bind (fun w m'' hw hm'' => ?_)
      refine ih hm'' (Entries.nodup_insert key w hdistinct) (fun entry hentry => ?_)
      rcases Entries.mem_insert hentry with rfl | hentry
      · exact hm''.knows hw
      · exact ((hentries entry hentry).append _).append _

theorem accounted_callValue {callee : Value} {arguments : List Value} (hm : t.Accounts m.memory)
    (ha : ∀ v ∈ arguments, t.Delivers v) :
    Accounted t (callValue eval callee arguments) m
      (callDeliveries eval deliveries callee arguments m) Deliveries.Knows := by
  cases callee with
  | function n parameters body outer =>
    unfold callValue callDeliveries enterFunction
    dsimp only
    split
    · refine (accounted_callScope hm parameters outer ha).quiet_bind (fun inner m' _ hm' => ?_)
      have hbody : Accounted t (runBlock eval inner body) (m'.startCall parameters.length)
          (statementsDeliveries eval deliveries inner body (m'.startCall parameters.length))
          Deliveries.Knows :=
        accounted_block he inner body (m := m'.startCall parameters.length) hm'
      exact hbody.asCall.bind_quiet (fun v m'' hv hm'' => .pure hm'' hv.unwrapped)
    · exact .fail hm _
  | builtin b =>
    have hcall : Accounted t (callValue eval (.builtin b) arguments) m
        (callDeliveries eval deliveries (.builtin b) arguments m) Deliveries.Delivers := by
      unfold callDeliveries
      dsimp only
      rw [callValue, thereafter_bind, thereafter_of_done (record_apply _ m)]
      refine Accounted.of_eq (bind_of_done (record_apply _ m)) ?_
      exact accounted_apply (m := m.record _) hm b (fun v hv => hm.knows (ha v hv))
    exact hcall.imp (fun v hfaithful hv => hfaithful.knows hv)
  | _ => exact .fail hm _

/-- What a literal makes is its own; all other expressions hand on what is known. -/
theorem accounted_node (scope : ScopeId) (e : Expression) (hm : t.Accounts m.memory) :
    Accounted t (evalNode eval scope e) m (nodeDeliveries eval deliveries scope e m)
      Deliveries.Delivers := by
  have hatom : ∀ {t : Deliveries} {v : Value}, v.isAtom = true → t.Knows v :=
    Deliveries.knows_of_isAtom
  cases e with
  | identifier name => exact (accounted_nameValue hm scope name).hand
  | integer n => exact (Accounted.pure hm (hatom rfl)).hand
  | boolean b => exact (Accounted.pure hm (hatom rfl)).hand
  | string s => exact (Accounted.pure hm (hatom rfl)).hand
  | unary o e =>
    refine Accounted.hand ((he t scope e m hm).bind_quiet (fun v m' _ hm' => ?_))
    exact .ofExcept hm' (fun w hw => hatom (o.isAtom_of_apply hw))
  | binary o a b =>
    refine Accounted.hand ((he t scope a m hm).bind (fun v m' _ hm' => ?_))
    refine (he _ scope b m' hm').bind_quiet (fun w m'' _ hm'' => ?_)
    exact .ofExcept hm'' (fun u hu => hatom (o.isAtom_of_apply hu))
  | conditional c body alternative =>
    refine Accounted.hand ((he t scope c m hm).bind (fun v m' _ hm' => ?_))
    split
    · exact accounted_block he scope body hm'
    · cases alternative with
      | none => exact .pure hm' (hatom rfl)
      | some other => exact accounted_block he scope other hm'
  | function parameters body => exact accounted_newFunction hm parameters body scope
  | call f arguments =>
    refine Accounted.hand ((he t scope f m hm).bind (fun callee m' _ hm' => ?_))
    refine (accounted_evalAll he scope hm').bind (fun vs m'' hvs hm'' => ?_)
    exact accounted_callValue he hm'' hvs
  | array elements =>
    refine (accounted_evalAll he scope hm).bind_thereafter (fun vs m' hvs hm' => ?_)
    exact accounted_newArray hm' (fun v hv => hm'.knows (hvs v hv))
  | index c i =>
    refine Accounted.hand ((he t scope c m hm).bind (fun v m' hv hm' => ?_))
    refine (he _ scope i m' hm').bind_quiet (fun w m'' _ hm'' => ?_)
    exact .ofExcept hm'' (fun u hu => (hm''.knows (hv.append _)).at hu)
  | hash pairs =>
    have hempty : Entries.Distinct ([] : Entries Value) := List.nodup_nil
    refine (accounted_evalPairs he scope hm hempty (by simp)).bind_thereafter
      (fun entries m' hentries hm' => ?_)
    exact accounted_newHash hm' hentries.1 hentries.2

end

theorem accountedEval_evaluate (n : Nat) : AccountedEval (evaluate n) (deliveries n) := by
  induction n with
  | zero =>
    intro t scope e m hm
    exact .of_exhausted rfl (by rwa [deliveries, List.append_nil])
  | succ n ih => exact fun t scope e m hm => accounted_node ih scope e hm

theorem accounted_run (p : Program) (budget : Nat) (scope : ScopeId) {t : Deliveries} {m : Machine}
    (hm : t.Accounts m.memory) :
    Accounted t (p.run budget scope) m (p.deliveries budget scope m) Deliveries.Delivers := by
  refine Accounted.hand ?_
  exact (accounted_block (accountedEval_evaluate budget) scope p.statements hm).bind_quiet
    (fun v m' hv hm' => .pure hm' hv.unwrapped)

theorem accounts_runEach (budget : Nat) (scope : ScopeId) (ps : List Program) {memory : Memory}
    {t : Deliveries} (hm : t.Accounts memory) :
    Deliveries.Accounts (t ++ deliveriesEach budget scope ps memory)
        (runEach budget scope ps memory).2 ∧
      ∀ o ∈ (runEach budget scope ps memory).1, ∀ v, o = .done v →
        Deliveries.Delivers (t ++ deliveriesEach budget scope ps memory) v := by
  induction ps generalizing t memory with
  | nil => exact ⟨by rwa [deliveriesEach, List.append_nil], by simp [runEach]⟩
  | cons p rest ih =>
    have hrun := accounted_run p budget scope (m := .ofMemory memory) hm
    obtain ⟨hmemory, houtcomes⟩ := ih hrun.machine
    rw [deliveriesEach, ← List.append_assoc]
    exact ⟨hmemory, List.forall_mem_cons.mpr
      ⟨fun v hv => (hrun.result v hv).append _, houtcomes⟩⟩

namespace Deliveries

variable {t : Deliveries} {a b : Value} {i j : Nat}

/-- The delivery with this number made the value. -/
def MadeAt (t : Deliveries) (i : Nat) (v : Value) : Prop := t[i]? = some (.made v)

/-- Delivered values other than strings and the markers of a `return`. -/
def Comparable (t : Deliveries) : Type :=
  { v : Value // t.Holds v ∧ v.tag ≠ .string ∧ v.tag ≠ .returned }

theorem MadeAt.unique (ha : t.MadeAt i a) (hb : t.MadeAt i b) : a = b :=
  Delivery.made.inj (Option.some.inj (ha.symm.trans hb))

theorem MadeAt.continues (h : t.Faithful) (ha : t.MadeAt i a) : Continues (t.take i) (.made a) := by
  obtain ⟨hlt, hget⟩ := List.getElem?_eq_some_iff.mp ha
  refine h (t.take i) (.made a) (t.drop (i + 1)) ?_
  rw [← hget, ← List.drop_eq_getElem_cons hlt, List.take_append_drop]

theorem MadeAt.stamped (h : t.Faithful) (ha : t.MadeAt i a) : a.stamp?.isSome = true :=
  (ha.continues h).1

theorem MadeAt.identical_eq_false (h : t.Faithful) (ha : t.MadeAt i a) (hb : t.MadeAt j b)
    (hij : i < j) : b.identical a = false := by
  refine (hb.continues h).2.1 a ⟨.made a, ?_, .itself⟩
  have htake : (t.take j)[i]? = some (.made a) := by rwa [List.getElem?_take_of_lt hij]
  exact List.mem_of_getElem? htake

/-- Of what was made, nothing is identical but what one delivery made. -/
theorem MadeAt.identical (h : t.Faithful) (ha : t.MadeAt i a) (hb : t.MadeAt j b) :
    a.identical b = decide (i = j) := by
  rcases Nat.lt_trichotomy i j with hij | rfl | hji
  · rw [decide_eq_false (Nat.ne_of_lt hij), Value.identical_comm]
    exact ha.identical_eq_false h hb hij
  · obtain rfl := ha.unique hb
    have hcomparable : a.isComparable = true := by
      have hstamped := ha.stamped h
      cases a <;> first | rfl | contradiction
    rw [decide_eq_true rfl]
    exact Value.identical_self hcomparable
  · rw [decide_eq_false (Nat.ne_of_gt hji)]
    exact hb.identical_eq_false h ha hji

theorem Faithful.exists_madeAt (h : t.Faithful) (ha : t.Holds a) (hstamp : a.stamp?.isSome = true) :
    ∃ i, t.MadeAt i a :=
  List.mem_iff_getElem?.mp ((h.known ha).made hstamp)

theorem Faithful.isComparable (h : t.Faithful) (a : t.Comparable) : a.1.isComparable = true := by
  obtain ⟨v, hheld, hstring, hreturned⟩ := a
  have herrorless := (h.known hheld).errorless
  cases v <;> first | rfl | contradiction

end Deliveries

/-- The operator compares the two values, with this result: applied to them, and wherever two
expressions evaluate to them, one after the other. -/
structure BinaryOperator.Compares (o : BinaryOperator) (a b : Value) (r : Bool) : Prop where
  applied : o.apply a b = .ok (.boolean r)
  evaluated : ∀ n scope x y m m₁ m₂, evaluate n scope x m = (.done a, m₁) →
    evaluate n scope y m₁ = (.done b, m₂) →
      evaluate (n + 1) scope (.binary o x y) m = (.done (.boolean r), m₂)

namespace BinaryOperator

variable {o : BinaryOperator} {a b : Value} {r : Bool}

theorem compares_of_apply (h : o.apply a b = .ok (.boolean r)) : o.Compares a b r := by
  refine ⟨h, fun n scope x y m m₁ m₂ hx hy => ?_⟩
  rw [evaluate, evalNode, bind_of_done hx, bind_of_done hy, h]
  rfl

theorem compares (h : a.tag ≠ .string ∨ b.tag ≠ .string) :
    equal.Compares a b (a.identical b) ∧ notEqual.Compares a b (!a.identical b) :=
  (equal_apply h).imp compares_of_apply compares_of_apply

theorem compares_true_iff (h : a.tag ≠ .string ∨ b.tag ≠ .string) :
    equal.Compares a b true ↔ a.identical b = true := by
  have hcompares := (compares h).1
  constructor
  · intro htrue
    have hsame := Except.ok.inj (hcompares.applied.symm.trans htrue.applied)
    exact Value.boolean.inj hsame
  · intro hidentical
    rwa [hidentical] at hcompares

theorem compares_of_tag_ne (h : a.tag ≠ b.tag) : equal.Compares a b false := by
  have hstring : a.tag ≠ .string ∨ b.tag ≠ .string := by
    by_cases ha : a.tag = .string
    · exact .inr (fun hb => h (ha.trans hb.symm))
    · exact .inl ha
  have hcompares := (compares hstring).1
  rwa [Bool.eq_false_iff.mpr (fun hsame => h (Value.tag_eq_of_identical hsame))] at hcompares

end BinaryOperator

namespace Deliveries

variable {t : Deliveries} {a b : Value} {i j : Nat}

theorem MadeAt.compares (h : t.Faithful) (ha : t.MadeAt i a) (hb : t.MadeAt j b) :
    BinaryOperator.equal.Compares a b (decide (i = j)) ∧ (i = j → a.same b = true) := by
  have hstamped := ha.stamped h
  have hstring : a.tag ≠ .string := by
    cases a <;> first | contradiction | exact nofun
  refine ⟨?_, fun hij => ?_⟩
  · rw [← ha.identical h hb]
    exact (BinaryOperator.compares (.inl hstring)).1
  · subst hij
    obtain rfl := ha.unique hb
    have hknows : t.Knows a := h.knows ⟨.made a, List.mem_of_getElem? ha, rfl⟩
    exact Value.same_self (fun w hw => (hknows w hw).keyed)

theorem Faithful.equivalence (h : t.Faithful) :
    Equivalence (fun a b : t.Comparable => BinaryOperator.equal.Compares a.1 b.1 true) := by
  have hcompares : ∀ a b : t.Comparable,
      BinaryOperator.equal.Compares a.1 b.1 true ↔ a.1.identical b.1 = true :=
    fun a b => BinaryOperator.compares_true_iff (.inl a.2.2.1)
  simp only [hcompares]
  refine ⟨fun a => Value.identical_self (h.isComparable a), fun {a b} hab => ?_,
    fun hab hbc => Value.identical_trans hab hbc⟩
  rwa [Value.identical_comm]

end Deliveries

/-- The runs of programs in a new session account for all that they deliver, and evaluations in the
midst of them go on to do so: what literals, `rest` and `push` make is identical to nothing that was
delivered before, and everything else that is delivered or bound was made before, with all that it
holds; where it is handed on it stays what it was. So two functions, two arrays or two hashes are
equal for programs exactly if the same delivery made both, and then they have the same content. On
what was delivered, except for strings and markers, equality is an equivalence, and inequality its
negation. Values of different types are never equal. -/
theorem identity_faithful (budget : Nat) (ps : List Program) :
    let run := runEach budget Session.new.scope ps Session.new.memory
    let t := deliveriesEach budget Session.new.scope ps Session.new.memory
    t.Accounts run.2 ∧
    (∀ o ∈ run.1, ∀ v, o = .done v → t.Delivers v) ∧
    (∀ n, AccountedEval (evaluate n) (deliveries n) ∧ HandsOn n) ∧
    (∀ a, t.Holds a → a.stamp?.isSome = true → ∃ i, t.MadeAt i a) ∧
    (∀ a b i j, t.MadeAt i a → t.MadeAt j b →
      BinaryOperator.equal.Compares a b (decide (i = j)) ∧ (i = j → a.same b = true)) ∧
    Equivalence (fun a b : t.Comparable => BinaryOperator.equal.Compares a.1 b.1 true) ∧
    (∀ a b : t.Comparable, ∃ r, BinaryOperator.equal.Compares a.1 b.1 r ∧
      BinaryOperator.notEqual.Compares a.1 b.1 (!r)) ∧
    ∀ a b : Value, a.tag ≠ b.tag → BinaryOperator.equal.Compares a b false := by
  intro run t
  have hnew := accounts_runEach budget Session.new.scope ps Deliveries.accounts_new
  rw [List.nil_append] at hnew
  obtain ⟨haccounts, houtcomes⟩ := hnew
  have hfaithful : t.Faithful := haccounts.faithful
  refine ⟨haccounts, houtcomes, fun n => ⟨accountedEval_evaluate n, handsOn n⟩,
    fun a => hfaithful.exists_madeAt, fun a b i j ha hb => ha.compares hfaithful hb,
    hfaithful.equivalence, fun a b => ?_,
    fun a b htag => BinaryOperator.compares_of_tag_ne htag⟩
  exact ⟨a.1.identical b.1, BinaryOperator.compares (.inl a.2.2.1)⟩

/-- Makes an array, gives it a second name, and makes another array of it. -/
def copying : Program :=
  ⟨[.binding "a" (.array [.integer 1]), .binding "b" (.identifier "a"),
    .binding "c" (.call (.identifier "push") [.identifier "b", .integer 2])]⟩

theorem identity_faithful_copying :
    let run := runEach 9 Session.new.scope [copying] Session.new.memory
    let t := deliveriesEach 9 Session.new.scope [copying] Session.new.memory
    let a : Value := .array 0 [.integer 1]
    let c : Value := .array 1 [.integer 1, .integer 2]
    run.2.get? Session.new.scope "b" = some a ∧ run.2.get? Session.new.scope "c" = some c ∧
      t.MadeAt 1 a ∧ t.MadeAt 6 c ∧ a.same a = true ∧
      BinaryOperator.equal.Compares a a true ∧ BinaryOperator.equal.Compares a c false ∧
      BinaryOperator.equal.Compares a (.integer 1) false := by
  intro run t a c
  have ha : t.MadeAt 1 a := rfl
  have hc : t.MadeAt 6 c := rfl
  obtain ⟨_, _, _, _, hequal, _, _, htypes⟩ := identity_faithful 9 [copying]
  exact ⟨rfl, rfl, ha, hc, (hequal a a 1 1 ha ha).2 rfl, (hequal a a 1 1 ha ha).1,
    (hequal a c 1 6 ha hc).1, htypes a (.integer 1) (by decide)⟩

end Treewalk
