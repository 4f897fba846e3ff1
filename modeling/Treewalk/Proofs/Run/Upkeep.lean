import Treewalk.Proofs.Run.Ensures
import Treewalk.Proofs.Run.Sight

namespace Treewalk

open Evaluation

/-- A property of memories, how memories go on, and what holds of the values and the scopes at hand
in a memory. What is at hand stays at hand. If the operations on memories respect these, so does
every evaluation. -/
structure Upkeep where
  memory : Memory → Prop
  next : Memory → Memory → Prop
  value : Memory → Value → Prop
  scope : Memory → ScopeId → Prop
  refl : ∀ {m}, memory m → next m m
  trans : ∀ {m m' m''}, next m m' → next m' m'' → next m m''
  memory_of_next : ∀ {m m'}, next m m' → memory m'
  value_of_next : ∀ {m m' v}, next m m' → value m v → value m' v
  scope_of_next : ∀ {m m' s}, next m m' → scope m s → scope m' s

/-- The operations on memories respect it. Atoms are at hand, and so are collections of what is at
hand, and the parts of what is at hand. -/
structure Upkeep.Lenient (U : Upkeep) : Prop where
  atom : ∀ {m} {v : Value}, v.isAtom = true → U.value m v
  part : ∀ {m} {v w : Value}, U.value m v → v.Contains w → U.value m w
  array : ∀ {m vs}, (∀ v ∈ vs, U.value m v) → U.value m.stamp.2 (.array m.nextStamp vs)
  hash : ∀ {m entries}, (∀ e ∈ entries, U.value m e.2) →
    U.value m.stamp.2 (.hash m.nextStamp entries)
  stamp : ∀ {m}, U.memory m → U.next m m.stamp.2
  define : ∀ {m s name v}, U.memory m → U.value m v → U.next m (m.define s name v)
  innerScope : ∀ {m s}, U.memory m → U.scope m s → U.next m (m.innerScope s).2
  inner : ∀ {m s}, U.memory m → U.scope m s → U.scope (m.innerScope s).2 (m.innerScope s).1
  get? : ∀ {m s name v}, U.memory m → U.scope m s → m.get? s name = some v → U.value m v

/-- Functions and markers respect it too, so that no evaluation can break it. -/
structure Upkeep.Closed (U : Upkeep) : Prop extends U.Lenient where
  function : ∀ {m s parameters body}, U.scope m s →
    U.value m.stamp.2 (.function m.nextStamp parameters body s)
  outer : ∀ {m n parameters body s}, U.value m (.function n parameters body s) → U.scope m s
  returned : ∀ {m v}, U.value m v → U.value m (.returned v)

theorem UnaryOperator.isAtom_of_apply {o : UnaryOperator} {v w : Value} (h : o.apply v = .ok w) :
    w.isAtom = true := by
  unfold apply at h
  split at h
  · obtain rfl := Except.ok.inj h
    rfl
  · obtain rfl := Except.ok.inj h
    rfl
  · contradiction

theorem BinaryOperator.isAtom_of_applyIntegers {o : BinaryOperator} {a b : Int64} {u : Value}
    (h : o.applyIntegers a b = .ok u) : u.isAtom = true := by
  unfold applyIntegers at h
  split at h
  case h_4 =>
    split at h
    · contradiction
    · obtain rfl := Except.ok.inj h
      rfl
  all_goals
    obtain rfl := Except.ok.inj h
    rfl

theorem BinaryOperator.isAtom_of_apply {o : BinaryOperator} {v w u : Value}
    (h : o.apply v w = .ok u) : u.isAtom = true := by
  unfold apply at h
  split at h
  · exact isAtom_of_applyIntegers h
  · unfold applyStrings at h
    split at h
    · obtain rfl := Except.ok.inj h
      rfl
    · contradiction
  · unfold applyOthers at h
    split at h
    · obtain rfl := Except.ok.inj h
      rfl
    · obtain rfl := Except.ok.inj h
      rfl
    · split at h <;> contradiction

theorem Entries.mem_of_get? {α : Type} {wanted : HashKey} {entries : Entries α} {a : α}
    (h : get? wanted entries = some a) : ∃ k, (k, a) ∈ entries := by
  induction entries with
  | nil => contradiction
  | cons c entries ih =>
    obtain ⟨k, b⟩ := c
    unfold get? find? at h
    split at h
    · obtain rfl := Option.some.inj h
      exact ⟨k, List.mem_cons_self⟩
    · obtain ⟨k', hk⟩ := ih h
      exact ⟨k', List.mem_cons_of_mem _ hk⟩

theorem elementAt_eq_or_mem (vs : List Value) (i : Int64) :
    elementAt vs i = .null ∨ elementAt vs i ∈ vs := by
  unfold elementAt
  split
  · exact .inl rfl
  · cases hget : vs[i.toInt.toNat]? with
    | none => exact .inl rfl
    | some v => exact .inr (List.mem_of_getElem? hget)

/-- An index finds nothing, or a part of the collection. -/
theorem Value.eq_or_contains_of_at {v w u : Value} (h : v.at w = .ok u) :
    u = .null ∨ v.Contains u := by
  unfold «at» at h
  split at h
  · next n vs i =>
    obtain rfl := Except.ok.inj h
    exact (elementAt_eq_or_mem vs i).imp_right (fun hv => .element hv .itself)
  · next n entries =>
    cases hkey : w.toKey with
    | error fault =>
      rw [hkey] at h
      contradiction
    | ok key =>
      rw [hkey] at h
      obtain rfl := Except.ok.inj h
      show (Entries.get? key.hashKey entries).getD .null = .null ∨
        (hash n entries).Contains ((Entries.get? key.hashKey entries).getD .null)
      cases hget : Entries.get? key.hashKey entries with
      | none => exact .inl rfl
      | some a =>
        obtain ⟨k, hk⟩ := Entries.mem_of_get? hget
        exact .inr (.entry hk .itself)
  · contradiction

namespace Upkeep

variable {U : Upkeep} {m : Memory} {v : Value}

theorem Lenient.at (hU : U.Lenient) {w u : Value} (hv : U.value m v) (h : v.at w = .ok u) :
    U.value m u := by
  rcases Value.eq_or_contains_of_at h with rfl | hu
  · exact hU.atom rfl
  · exact hU.part hv hu

theorem Lenient.unwrapped (hU : U.Lenient) (hv : U.value m v) : U.value m v.unwrapped := by
  cases v with
  | returned w => exact hU.part hv (.returned .itself)
  | _ => exact hv

theorem Lenient.defineAll (hU : U.Lenient) {s : ScopeId} {bs : List (String × Value)}
    (hm : U.memory m) (hbs : ∀ b ∈ bs, U.value m b.2) : U.next m (m.defineAll s bs) := by
  induction bs generalizing m with
  | nil => exact U.refl hm
  | cons b bs ih =>
    obtain ⟨hb, hbs⟩ := List.forall_mem_cons.mp hbs
    have hnext : U.next m (m.define s b.1 b.2) := hU.define hm hb
    exact U.trans hnext (ih (U.memory_of_next hnext) (fun c hc => U.value_of_next hnext (hbs c hc)))

end Upkeep

/-- However the step ends, the memory becomes what it may become. -/
def Evaluation.Upholds {α : Type} (U : Upkeep) (p : Evaluation α) (m : Machine)
    (P : Memory → α → Prop) : Prop :=
  Ensures (fun m' => U.next m.memory m'.memory) (fun _ => True) p m (fun a m' => P m'.memory a)

namespace Evaluation.Upholds

variable {U : Upkeep} {α β : Type} {p : Evaluation α} {f : α → Evaluation β} {m m' : Machine}
  {P : Memory → α → Prop} {R : Memory → β → Prop}

theorem done {a : α} (h : p m = (.done a, m')) (hnext : U.next m.memory m'.memory)
    (ha : P m'.memory a) : Upholds U p m P :=
  Ensures.of_done h hnext ha

theorem asCall {arity : Nat} (h : Upholds U p (m.startCall arity) P) :
    Upholds U (Evaluation.asCall arity p) m P :=
  Ensures.asCall (fun _ hm' => hm') (fun _ _ ha => ha) h

theorem bind (hp : Upholds U p m P)
    (hf : ∀ a m', U.memory m'.memory → U.next m.memory m'.memory → P m'.memory a →
      Upholds U (f a) m' R) : Upholds U (p >>= f) m R := by
  refine Ensures.bind hp (fun a m' _ hnext ha => ?_)
  have hrest := hf a m' (U.memory_of_next hnext) hnext ha
  exact hrest.mono (fun _ h => U.trans hnext h) (fun _ _ _ h => h)

section
variable (hm : U.memory m.memory)
include hm

theorem pure {a : α} (ha : P m.memory a) : Upholds U (Pure.pure a) m P :=
  done rfl (U.refl hm) ha

theorem fail (fault : Fault) : Upholds U (Evaluation.fail fault : Evaluation α) m P :=
  Ensures.fail (U.refl hm) trivial

theorem ofExcept {r : Except Fault α} (h : ∀ a, r = .ok a → P m.memory a) :
    Upholds U (Evaluation.ofExcept r) m P :=
  Ensures.ofExcept (U.refl hm) h (fun _ _ => trivial)

theorem record (e : Event) : Upholds U (Evaluation.record e) m (fun _ _ => True) :=
  done (record_apply e m) (U.refl hm) trivial

end

end Evaluation.Upholds

section
variable {U : Upkeep} (hU : U.Lenient) {m : Machine} (hm : U.memory m.memory)
include hU hm

theorem upholds_newArray {vs : List Value} (h : ∀ v ∈ vs, U.value m.memory v) :
    Upholds U (newArray vs) m U.value :=
  .done (newArray_apply vs m) (hU.stamp hm) (hU.array h)

theorem upholds_newHash {entries : Entries Value} (h : ∀ e ∈ entries, U.value m.memory e.2) :
    Upholds U (newHash entries) m U.value :=
  .done (newHash_apply entries m) (hU.stamp hm) (hU.hash h)

theorem upholds_nameValue {scope : ScopeId} (hs : U.scope m.memory scope) {name : String} :
    Upholds U (nameValue scope name) m U.value := by
  have hlook : Upholds U (look scope name) m (fun memory r => ∀ v, r = some v → U.value memory v) :=
    .done (look_apply scope name m) (U.refl hm) (fun v hv => hU.get? hm hs hv)
  apply hlook.bind
  intro r m' hm' _ hr
  cases r with
  | some v => exact .pure hm' (hr v rfl)
  | none =>
    cases Builtin.ofName? name with
    | some b => exact .pure hm' (hU.atom rfl)
    | none => exact .fail hm' _

theorem upholds_elementsFor {b : Builtin} {v : Value} (hv : U.value m.memory v) :
    Upholds U (b.elementsFor v) m (fun memory vs => ∀ w ∈ vs, U.value memory w) := by
  cases v with
  | array n vs => exact .pure hm (fun w hw => hU.part hv (.element hw .itself))
  | _ => exact .fail hm _

theorem upholds_lengthOf {v : Value} : Upholds U (Builtin.lengthOf v) m U.value := by
  cases v with
  | string _ | array _ _ => exact .pure hm (hU.atom rfl)
  | _ => exact .fail hm _

theorem upholds_unary {b : Builtin} {v : Value} (hv : U.value m.memory v) :
    Upholds U (b.unary v) m U.value := by
  unfold Builtin.unary
  split
  · exact upholds_lengthOf hU hm
  · apply (upholds_elementsFor hU hm hv).bind
    intro vs m' hm' _ hvs
    apply Upholds.pure hm'
    cases vs with
    | nil => exact hU.atom rfl
    | cons w ws => exact hvs w List.mem_cons_self
  · apply (upholds_elementsFor hU hm hv).bind
    intro vs m' hm' _ hvs
    apply Upholds.pure hm'
    rw [List.getLastD_eq_getLast?]
    cases hlast : vs.getLast? with
    | none => exact hU.atom rfl
    | some w => exact hvs w (List.mem_of_getLast? hlast)
  · apply (upholds_elementsFor hU hm hv).bind
    intro vs m' hm' _ hvs
    cases vs with
    | nil => exact .pure hm' (hU.atom rfl)
    | cons w ws => exact upholds_newArray hU hm' (fun u hu => hvs u (List.mem_cons_of_mem _ hu))

omit hU in
theorem upholds_printAll {vs : List Value} :
    Upholds U (Builtin.printAll vs) m (fun _ _ => True) := by
  induction vs generalizing m with
  | nil => exact .pure hm trivial
  | cons v vs ih => exact (Upholds.record hm _).bind (fun _ m' hm' _ _ => ih hm')

theorem upholds_apply {b : Builtin} {vs : List Value} (hvs : ∀ v ∈ vs, U.value m.memory v) :
    Upholds U (b.apply vs) m U.value := by
  unfold Builtin.apply
  split
  · exact (upholds_printAll hm).bind (fun _ m' hm' _ _ => .pure hm' (hU.atom rfl))
  · split
    · next collection v =>
      have hcollection := hvs collection (by simp)
      apply (upholds_elementsFor hU hm hcollection).bind
      intro ws m' hm' hnext hws
      apply upholds_newArray hU hm'
      intro w hw
      rcases List.mem_append.mp hw with hw | hw
      · exact hws w hw
      · rw [List.mem_singleton.mp hw]
        exact U.value_of_next hnext (hvs v (by simp))
    · exact .fail hm _
  · split
    · exact upholds_unary hU hm (hvs _ (by simp))
    · exact .fail hm _

theorem upholds_callScope {parameters : List String} {outer : ScopeId} {arguments : List Value}
    (ho : U.scope m.memory outer) (ha : ∀ v ∈ arguments, U.value m.memory v) :
    Upholds U (callScope parameters outer arguments) m U.scope := by
  have hinner := hU.innerScope hm ho
  have hbs : ∀ b ∈ parameters.zip arguments, U.value (m.memory.innerScope outer).2 b.2 :=
    fun b hb => U.value_of_next hinner (ha b.2 (List.of_mem_zip hb).2)
  have hbound := hU.defineAll (s := (m.memory.innerScope outer).1) (U.memory_of_next hinner) hbs
  exact .done (callScope_apply parameters outer arguments m) (U.trans hinner hbound)
    (U.scope_of_next hbound (hU.inner hm ho))

end

/-- In a scope at hand, expressions are evaluated to values at hand. -/
def Upkeep.UpheldBy (U : Upkeep) (eval : Eval) : Prop :=
  ∀ scope e m, U.scope m.memory scope → U.memory m.memory → Upholds U (eval scope e) m U.value

section
variable {U : Upkeep} (hU : U.Closed) {eval : Eval} (he : U.UpheldBy eval) {scope : ScopeId}
  {m : Machine} (hs : U.scope m.memory scope) (hm : U.memory m.memory)
include hU he hs hm

theorem upholds_statement {s : Statement} : Upholds U (runStatement eval scope s) m U.value := by
  cases s with
  | binding name e =>
    apply (he scope e m hs hm).bind
    intro v m' hm' _ hv
    exact .done rfl (hU.define hm' hv) (hU.atom rfl)
  | «return» e =>
    apply (he scope e m hs hm).bind
    intro v m' hm' _ hv
    exact .pure hm' (hU.returned hv)
  | expression e => exact he scope e m hs hm

theorem upholds_statements {ss : List Statement} {v : Value} (hv : U.value m.memory v) :
    Upholds U (runStatements eval scope ss v) m U.value := by
  induction ss generalizing m v with
  | nil => exact .pure hm hv
  | cons s rest ih =>
    apply (upholds_statement hU he hs hm).bind
    intro w m' hm' hnext hw
    split
    · exact .pure hm' hw
    · exact ih (U.scope_of_next hnext hs) hm' hw

theorem upholds_block {body : Block} : Upholds U (runBlock eval scope body) m U.value :=
  upholds_statements hU he hs hm (hU.atom rfl)

/-- Programs, too, come to values at hand. -/
theorem upholds_unwrapped {body : Block} :
    Upholds U (runBlock eval scope body >>= fun v => pure v.unwrapped) m U.value :=
  (upholds_block hU he hs hm).bind (fun _ _ hm' _ hv => .pure hm' (hU.unwrapped hv))

omit hU in
theorem upholds_evalAll {es : List Expression} :
    Upholds U (evalAll (eval scope) es) m (fun memory vs => ∀ v ∈ vs, U.value memory v) := by
  induction es generalizing m with
  | nil => exact .pure hm (by simp)
  | cons e rest ih =>
    apply (he scope e m hs hm).bind
    intro v m' hm' hnext hv
    apply (ih (U.scope_of_next hnext hs) hm').bind
    intro vs m'' hm'' hnext' hvs
    exact .pure hm'' (List.forall_mem_cons.mpr ⟨U.value_of_next hnext' hv, hvs⟩)

omit hU in
theorem upholds_evalPairs {pairs : List (Expression × Expression)} {entries : Entries Value}
    (hentries : ∀ entry ∈ entries, U.value m.memory entry.2) :
    Upholds U (evalPairs (eval scope) pairs entries) m
      (fun memory es => ∀ entry ∈ es, U.value memory entry.2) := by
  induction pairs generalizing m entries with
  | nil => exact .pure hm hentries
  | cons pair rest ih =>
    obtain ⟨k, e⟩ := pair
    apply (he scope k m hs hm).bind
    intro v m₁ hm₁ h₁ _
    have hkey : Upholds U (ofExcept v.toKey) m₁ (fun _ _ => True) :=
      .ofExcept hm₁ (fun _ _ => trivial)
    apply hkey.bind
    intro key m₂ hm₂ h₂ _
    have hkeyed := U.trans h₁ h₂
    apply (he scope e m₂ (U.scope_of_next hkeyed hs) hm₂).bind
    intro w m₃ hm₃ h₃ hw
    have hnext := U.trans hkeyed h₃
    apply ih (U.scope_of_next hnext hs) hm₃
    intro entry hentry
    rcases Entries.mem_insert hentry with rfl | hentry
    · exact hw
    · exact U.value_of_next hnext (hentries entry hentry)

omit hs in
theorem upholds_callValue {callee : Value} {arguments : List Value} (hc : U.value m.memory callee)
    (ha : ∀ v ∈ arguments, U.value m.memory v) :
    Upholds U (callValue eval callee arguments) m U.value := by
  cases callee with
  | function n parameters body outer =>
    simp only [callValue, enterFunction]
    split
    · apply (upholds_callScope hU.toLenient hm (hU.outer hc) ha).bind
      intro inner m' hm' _ hinner
      have hbody : Upholds U (runBlock eval inner body) (m'.startCall parameters.length) U.value :=
        upholds_block hU he (m := m'.startCall parameters.length) hinner hm'
      exact hbody.asCall.bind (fun v m'' hm'' _ hv => .pure hm'' (hU.unwrapped hv))
    · exact .fail hm _
  | builtin b =>
    apply (Upholds.record hm _).bind
    intro _ m' hm' hnext _
    exact upholds_apply hU.toLenient hm' (fun v hv => U.value_of_next hnext (ha v hv))
  | _ => exact .fail hm _

theorem upholds_node {e : Expression} : Upholds U (evalNode eval scope e) m U.value := by
  cases e with
  | identifier name => exact upholds_nameValue hU.toLenient hm hs
  | integer n => exact .pure hm (hU.atom rfl)
  | boolean b => exact .pure hm (hU.atom rfl)
  | string s => exact .pure hm (hU.atom rfl)
  | unary o e =>
    apply (he scope e m hs hm).bind
    intro v m' hm' _ _
    exact .ofExcept hm' (fun w hw => hU.atom (o.isAtom_of_apply hw))
  | binary o a b =>
    apply (he scope a m hs hm).bind
    intro v m' hm' hnext _
    apply (he scope b m' (U.scope_of_next hnext hs) hm').bind
    intro w m'' hm'' _ _
    exact .ofExcept hm'' (fun u hu => hU.atom (o.isAtom_of_apply hu))
  | conditional c body alternative =>
    apply (he scope c m hs hm).bind
    intro v m' hm' hnext _
    have hs' := U.scope_of_next hnext hs
    split
    · exact upholds_block hU he hs' hm'
    · cases alternative with
      | none => exact .pure hm' (hU.atom rfl)
      | some other => exact upholds_block hU he hs' hm'
  | function parameters body =>
    exact .done (newFunction_apply parameters body scope m) (hU.stamp hm) (hU.function hs)
  | call f arguments =>
    apply (he scope f m hs hm).bind
    intro v m' hm' hnext hv
    apply (upholds_evalAll he (U.scope_of_next hnext hs) hm').bind
    intro vs m'' hm'' hnext' hvs
    exact upholds_callValue hU he hm'' (U.value_of_next hnext' hv) hvs
  | array elements =>
    apply (upholds_evalAll he hs hm).bind
    intro vs m' hm' _ hvs
    exact upholds_newArray hU.toLenient hm' hvs
  | index c i =>
    apply (he scope c m hs hm).bind
    intro v m' hm' hnext hv
    apply (he scope i m' (U.scope_of_next hnext hs) hm').bind
    intro w m'' hm'' hnext' _
    exact .ofExcept hm'' (fun u hu => hU.at (U.value_of_next hnext' hv) hu)
  | hash pairs =>
    apply (upholds_evalPairs he hs hm (by simp)).bind
    intro es m' hm' _ hes
    exact upholds_newHash hU.toLenient hm' hes

end

theorem upheldBy_evaluate {U : Upkeep} (hU : U.Closed) (n : Nat) : U.UpheldBy (evaluate n) := by
  induction n with
  | zero => exact fun scope e m _ hm => Ensures.of_exhausted rfl (U.refl hm)
  | succ n ih => exact fun scope e m hs hm => upholds_node hU ih hs hm

end Treewalk
