import Treewalk.Proofs.Identity.Deliveries

namespace Treewalk

open Evaluation

namespace Deliveries

variable {t T : Deliveries} {v w : Value}

theorem Delivers.append (h : t.Delivers v) (T : Deliveries) : Delivers (t ++ T) v := by
  obtain ⟨d, hd, hv⟩ := h
  exact ⟨d, List.mem_append_left _ hd, hv⟩

theorem delivers_concat (t : Deliveries) (d : Delivery) : Delivers (t ++ [d]) d.value :=
  ⟨d, List.mem_append_right _ (List.mem_singleton_self d), rfl⟩

theorem Knows.append (h : t.Knows v) (T : Deliveries) : Knows (t ++ T) v := by
  intro w hw
  obtain ⟨herrorless, hkeyed, hmade⟩ := h w hw
  exact ⟨herrorless, hkeyed, fun hstamp => List.mem_append_left _ (hmade hstamp)⟩

theorem knows_of_isAtom (h : v.isAtom = true) : t.Knows v := by
  have hsimple := Value.isSimple_of_isAtom h
  refine Value.throughout_iff.mpr (Value.fits_of_isSimple hsimple ⟨?_, ?_, fun hstamp => ?_⟩)
  · exact closed_errorless.atom v h
  · exact Value.keyed_of_isSimple hsimple
  · cases v <;> contradiction

theorem Knows.returned (h : t.Knows v) : t.Knows (.returned v) := by
  have hmarker : t.Known (.returned v) := ⟨rfl, trivial, fun hstamp => by contradiction⟩
  exact Value.throughout_iff.mpr ((Value.fits_returned hmarker).mpr (Value.throughout_iff.mp h))

theorem Knows.unwrapped (h : t.Knows v) : t.Knows v.unwrapped := by
  cases v with
  | returned w => exact Value.throughout_returned h
  | _ => exact h

theorem knows_array {n : Nat} {vs : List Value} (hmade : .made (.array n vs) ∈ t)
    (h : ∀ v ∈ vs, t.Knows v) : t.Knows (.array n vs) :=
  Value.throughout_iff.mpr ((Value.fits_array ⟨rfl, trivial, fun _ => hmade⟩).mpr
    (fun v hv => Value.throughout_iff.mp (h v hv)))

theorem knows_hash {n : Nat} {entries : Entries Value} (hmade : .made (.hash n entries) ∈ t)
    (hdistinct : entries.Distinct) (h : ∀ e ∈ entries, t.Knows e.2) : t.Knows (.hash n entries) :=
  Value.throughout_iff.mpr ((Value.fits_hash ⟨rfl, hdistinct, fun _ => hmade⟩).mpr
    (fun e he => Value.throughout_iff.mp (h e he)))

theorem knows_function {n : Nat} {parameters : List String} {body : Block} {scope : ScopeId}
    (hmade : .made (.function n parameters body scope) ∈ t) :
    t.Knows (.function n parameters body scope) :=
  Value.throughout_iff.mpr (Value.fits_function.mpr ⟨⟨rfl, trivial, fun _ => hmade⟩, fun h => h⟩)

theorem Knows.at {c i : Value} (hc : t.Knows c) (h : c.at i = .ok v) : t.Knows v := by
  rcases Value.eq_or_contains_of_at h with rfl | hv
  · exact knows_of_isAtom rfl
  · exact Value.Throughout.part hc hv

theorem faithful_nil : Faithful [] := by
  intro before d after h
  cases before <;> contradiction

theorem Faithful.concat (h : t.Faithful) {d : Delivery} (hd : t.Continues d) :
    Faithful (t ++ [d]) := by
  intro before e after heq
  -- The delivery in question is the new one, or it was there before and is followed by the new one.
  rcases List.eq_nil_or_concat after with rfl | ⟨others, last, rfl⟩
  · obtain ⟨rfl, hlast⟩ := List.append_inj' heq rfl
    obtain rfl := List.singleton_inj.mp hlast
    exact hd
  · rw [List.concat_eq_append, ← List.cons_append, ← List.append_assoc] at heq
    exact h before e others (List.append_inj' heq rfl).1

theorem Faithful.knows (h : t.Faithful) (hv : t.Delivers v) : t.Knows v := by
  obtain ⟨d, hd, rfl⟩ := hv
  obtain ⟨before, after, rfl⟩ := List.append_of_mem hd
  have hcontinues := h before d after rfl
  cases d with
  | made v =>
    have hknows := hcontinues.2.2.append after
    rwa [List.append_assoc, List.singleton_append] at hknows
  | handed v => exact Knows.append hcontinues _

theorem Faithful.known (h : t.Faithful) (hv : t.Holds v) : t.Known v := by
  obtain ⟨d, hd, hv⟩ := hv
  exact h.knows ⟨d, hd, rfl⟩ v hv

theorem stamps_append : stamps (t ++ T) = t.stamps ++ T.stamps := List.filterMap_append

theorem mem_stamps {n : Nat} (h : .made v ∈ t) (hstamp : v.stamp? = some n) : n ∈ t.stamps :=
  List.mem_filterMap.mpr ⟨.made v, h, hstamp⟩

/-- The deliveries are faithful, all stamps that were handed out are found among them, and so is
whatever is bound. -/
structure Accounts (t : Deliveries) (m : Memory) : Prop where
  faithful : t.Faithful
  stamps : t.stamps = List.range m.nextStamp
  bound : ∀ s, ∀ b ∈ m.bindings s, t.Delivers b.2

namespace Accounts

variable {m : Memory}

theorem hand (h : t.Accounts m) (hv : t.Knows v) : Accounts (t ++ [.handed v]) m := by
  refine ⟨h.faithful.concat hv, ?_, fun s b hb => (h.bound s b hb).append _⟩
  rw [stamps_append, h.stamps]
  exact List.append_nil _

/-- Nothing that was delivered has the next stamp. -/
theorem identical_eq_false (h : t.Accounts m) (hstamp : v.stamp? = some m.nextStamp)
    (hw : t.Holds w) : v.identical w = false := by
  refine Bool.eq_false_iff.mpr (fun hidentical => ?_)
  have hsame : w.stamp? = some m.nextStamp :=
    (Value.stamp?_eq_of_identical hidentical).symm.trans hstamp
  have hmade : .made w ∈ t := (h.faithful.known hw).made (by rw [hsame]; rfl)
  have hmem := mem_stamps hmade hsame
  -- All stamps of what was made are smaller than the next one.
  rw [h.stamps] at hmem
  exact Nat.lt_irrefl _ (List.mem_range.mp hmem)

theorem make (h : t.Accounts m) (hstamp : v.stamp? = some m.nextStamp)
    (hv : Knows (t ++ [.made v]) v) : Accounts (t ++ [.made v]) m.stamp.2 := by
  have hstamped : v.stamp?.isSome = true := by rw [hstamp]; rfl
  refine ⟨h.faithful.concat ⟨hstamped, fun w hw => h.identical_eq_false hstamp hw, hv⟩, ?_,
    fun s b hb => (h.bound s b hb).append _⟩
  have hlast : Deliveries.stamps [.made v] = [m.nextStamp] := by simp [Deliveries.stamps, hstamp]
  rw [stamps_append, h.stamps, hlast]
  exact List.range_succ.symm

theorem knows (h : t.Accounts m) (hv : t.Delivers v) : t.Knows v := h.faithful.knows hv

theorem get? (h : t.Accounts m) {s : ScopeId} {name : String} (hv : m.get? s name = some v) :
    t.Delivers v := by
  obtain ⟨u, _, hget⟩ := List.exists_of_findSome?_eq_some hv
  exact h.bound u _ (Bindings.mem_of_get? hget)

theorem define (h : t.Accounts m) (s : ScopeId) (name : String) (hv : t.Delivers v) :
    t.Accounts (m.define s name v) := by
  refine ⟨h.faithful, h.stamps, fun u b hb => ?_⟩
  rcases Memory.mem_bindings_define hb with rfl | hb
  · exact hv
  · exact h.bound u b hb

theorem defineAll (h : t.Accounts m) (s : ScopeId) {bs : List (String × Value)}
    (hbs : ∀ b ∈ bs, t.Delivers b.2) : t.Accounts (m.defineAll s bs) := by
  induction bs generalizing m with
  | nil => exact h
  | cons b bs ih =>
    obtain ⟨hb, hbs⟩ := List.forall_mem_cons.mp hbs
    exact ih (h.define s b.1 hb) hbs

theorem innerScope (h : t.Accounts m) (outer : ScopeId) : t.Accounts (m.innerScope outer).2 := by
  refine ⟨h.faithful, h.stamps, fun u b hb => ?_⟩
  rw [Memory.bindings_innerScope] at hb
  exact h.bound u b hb

end Accounts

/-- Nothing was delivered yet to a session that has just been started. -/
theorem accounts_new : Accounts [] Session.new.memory :=
  ⟨faithful_nil, rfl, fun _ _ hb => absurd hb Memory.not_mem_empty_newScope⟩

end Deliveries

namespace Evaluation

variable {α β : Type} {p : Evaluation α} {f : α → Evaluation β} {m : Machine}

theorem thereafter_of_done {a : α} {m' : Machine} (h : p m = (.done a, m'))
    (T : α → Machine → Deliveries) : p.thereafter T m = T a m' := by
  rw [thereafter, h]

theorem thereafter_bind (T : β → Machine → Deliveries) :
    (p >>= f).thereafter T m = p.thereafter (fun a m' => (f a).thereafter T m') m := by
  unfold thereafter
  cases hr : p m with
  | mk outcome m' =>
    cases outcome with
    | done a => rw [bind_of_done hr]
    | failed fault => rw [bind_of_failed hr]
    | exhausted => rw [bind_of_exhausted hr]

/-- However the step ends, what is delivered until then accounts for the memory. -/
abbrev Accounted (t : Deliveries) (p : Evaluation α) (m : Machine) (T : Deliveries)
    (P : Deliveries → α → Prop) : Prop :=
  Ensures (fun m' => Deliveries.Accounts (t ++ T) m'.memory) (fun _ => True) p m
    (fun a _ => P (t ++ T) a)

namespace Accounted

variable {t T : Deliveries} {P : Deliveries → α → Prop} {R : Deliveries → β → Prop}

theorem of_eq {q : Evaluation α} {m' : Machine} (h : p m = q m') (hq : Accounted t q m' T P) :
    Accounted t p m T P :=
  Ensures.of_eq h hq

theorem quiet (m' : Machine) {a : α} (h : p m = (.done a, m')) (hm : t.Accounts m'.memory)
    (ha : P t a) : Accounted t p m [] P :=
  .of_done h (by rwa [List.append_nil]) (by rwa [List.append_nil])

theorem pure (hm : t.Accounts m.memory) {a : α} (ha : P t a) : Accounted t (Pure.pure a) m [] P :=
  .quiet m rfl hm ha

theorem failed {m' : Machine} {fault : Fault} (h : p m = (.failed fault, m'))
    (hm : t.Accounts m'.memory) : Accounted t p m [] P :=
  .of_failed h (by rwa [List.append_nil]) trivial

theorem fail (hm : t.Accounts m.memory) (fault : Fault) :
    Accounted t (Evaluation.fail fault) m [] P :=
  .failed rfl hm

theorem ofExcept (hm : t.Accounts m.memory) {r : Except Fault α} (h : ∀ a, r = .ok a → P t a) :
    Accounted t (Evaluation.ofExcept r) m [] P := by
  cases r with
  | ok a => exact .pure hm (h a rfl)
  | error fault => exact .fail hm fault

theorem bind {F : α → Machine → Deliveries} (hp : Accounted t p m T P)
    (hf : ∀ a m', P (t ++ T) a → Deliveries.Accounts (t ++ T) m'.memory →
      Accounted (t ++ T) (f a) m' (F a m') R) :
    Accounted t (p >>= f) m (T ++ p.thereafter F m) R := by
  obtain ⟨hmachine, _, hresult⟩ := hp
  unfold thereafter
  cases hr : p m with
  | mk outcome m' =>
    rw [hr] at hmachine hresult
    cases outcome with
    | done a =>
      have ha := hf a m' (hresult a rfl) hmachine
      rw [Accounted, List.append_assoc] at ha
      exact .of_eq (bind_of_done hr) ha
    | failed fault => exact .of_failed (bind_of_failed hr) (by rwa [List.append_nil]) trivial
    | exhausted => exact .of_exhausted (bind_of_exhausted hr) (by rwa [List.append_nil])

/-- Nothing more is delivered after the first part. -/
theorem bind_quiet (hp : Accounted t p m T P)
    (hf : ∀ a m', P (t ++ T) a → Deliveries.Accounts (t ++ T) m'.memory →
      Accounted (t ++ T) (f a) m' [] R) :
    Accounted t (p >>= f) m T R := by
  have hnothing : p.thereafter (fun _ _ => []) m = [] := by
    unfold thereafter
    split <;> rfl
  have h := bind hp hf
  rwa [hnothing, List.append_nil] at h

/-- Nothing is delivered in the first part. -/
theorem quiet_bind {F : α → Machine → Deliveries} (hp : Accounted t p m [] P)
    (hf : ∀ a m', P t a → t.Accounts m'.memory → Accounted t (f a) m' (F a m') R) :
    Accounted t (p >>= f) m (p.thereafter F m) R :=
  bind hp (by simpa only [List.append_nil] using hf)

/-- What the second part delivers is told by how it ends. -/
theorem bind_thereafter {F : β → Machine → Deliveries} (hp : Accounted t p m T P)
    (hf : ∀ a m', P (t ++ T) a → Deliveries.Accounts (t ++ T) m'.memory →
      Accounted (t ++ T) (f a) m' ((f a).thereafter F m') R) :
    Accounted t (p >>= f) m (T ++ (p >>= f).thereafter F m) R := by
  rw [thereafter_bind]
  exact bind hp hf

theorem imp (h : Accounted t p m T P) {P' : Deliveries → α → Prop}
    (hP : ∀ a, Deliveries.Faithful (t ++ T) → P (t ++ T) a → P' (t ++ T) a) :
    Accounted t p m T P' :=
  h.mono (fun _ hm => hm) (fun a _ hm ha => hP a hm.faithful ha)

theorem asCall {arity : Nat} (h : Accounted t p (m.startCall arity) T P) :
    Accounted t (Evaluation.asCall arity p) m T P :=
  Ensures.asCall (fun _ hm => hm) (fun _ _ ha => ha) h

/-- A result that is known may be handed on. -/
theorem hand {p : Evaluation Value} (h : Accounted t p m T Deliveries.Knows) :
    Accounted t p m (T ++ p.thereafter (fun v _ => [.handed v]) m) Deliveries.Delivers := by
  obtain ⟨hmachine, _, hresult⟩ := h
  unfold thereafter
  cases hr : p m with
  | mk outcome m' =>
    rw [hr] at hmachine hresult
    rw [Accounted, ← List.append_assoc]
    cases outcome with
    | done v =>
      exact .of_done hr (hmachine.hand (hresult v rfl)) (Deliveries.delivers_concat _ (.handed v))
    | failed fault => exact .of_failed hr (by rwa [List.append_nil]) trivial
    | exhausted => exact .of_exhausted hr (by rwa [List.append_nil])

/-- The next stamp makes a value of its own. -/
theorem make {p : Evaluation Value} {v : Value} (hm : t.Accounts m.memory)
    (h : p m = (.done v, { m with memory := m.memory.stamp.2 }))
    (hstamp : v.stamp? = some m.memory.nextStamp) (hv : Deliveries.Knows (t ++ [.made v]) v) :
    Accounted t p m (p.thereafter (fun v _ => [.made v]) m) Deliveries.Delivers := by
  rw [thereafter_of_done h]
  exact .of_done h (hm.make hstamp hv) (Deliveries.delivers_concat t (.made v))

end Accounted

end Evaluation

section
variable {t : Deliveries} {m : Machine} (hm : t.Accounts m.memory)
include hm

theorem accounted_newArray {vs : List Value} (h : ∀ v ∈ vs, t.Knows v) :
    Accounted t (newArray vs) m ((newArray vs).thereafter (fun v _ => [.made v]) m)
      Deliveries.Delivers := by
  refine .make hm (newArray_apply vs m) rfl (Deliveries.knows_array ?_ ?_)
  · exact List.mem_append_right _ (List.mem_singleton_self _)
  · exact fun v hv => (h v hv).append _

theorem accounted_newHash {entries : Entries Value} (hdistinct : entries.Distinct)
    (h : ∀ e ∈ entries, t.Knows e.2) :
    Accounted t (newHash entries) m ((newHash entries).thereafter (fun v _ => [.made v]) m)
      Deliveries.Delivers := by
  refine .make hm (newHash_apply entries m) rfl (Deliveries.knows_hash ?_ hdistinct ?_)
  · exact List.mem_append_right _ (List.mem_singleton_self _)
  · exact fun e he => (h e he).append _

theorem accounted_newFunction (parameters : List String) (body : Block) (scope : ScopeId) :
    Accounted t (newFunction parameters body scope) m
      ((newFunction parameters body scope).thereafter (fun v _ => [.made v]) m)
      Deliveries.Delivers :=
  .make hm (newFunction_apply parameters body scope m) rfl
    (Deliveries.knows_function (List.mem_append_right _ (List.mem_singleton_self _)))

theorem accounted_nameValue (scope : ScopeId) (name : String) :
    Accounted t (nameValue scope name) m [] Deliveries.Knows := by
  unfold nameValue
  have hlook : Accounted t (look scope name) m [] (fun t r => ∀ v, r = some v → t.Knows v) :=
    .quiet m (look_apply scope name m) hm (fun v hv => hm.knows (hm.get? hv))
  refine hlook.quiet_bind (F := fun _ _ => []) (fun r m' hr hm' => ?_)
  cases r with
  | some v => exact .pure hm' (hr v rfl)
  | none =>
    cases Builtin.ofName? name with
    | some b => exact .pure hm' (Deliveries.knows_of_isAtom rfl)
    | none => exact .fail hm' _

theorem accounted_callScope (parameters : List String) (outer : ScopeId) {arguments : List Value}
    (h : ∀ v ∈ arguments, t.Delivers v) :
    Accounted t (callScope parameters outer arguments) m [] (fun _ _ => True) :=
  .quiet _ (callScope_apply parameters outer arguments m)
    ((hm.innerScope outer).defineAll _ (fun b hb => h b.2 (List.of_mem_zip hb).2)) trivial

theorem accounted_elementsFor (b : Builtin) {v : Value} (hv : t.Knows v) :
    Accounted t (b.elementsFor v) m [] (fun t vs => ∀ w ∈ vs, t.Knows w) := by
  cases v with
  | array n vs => exact .pure hm (fun w hw => Value.throughout_element hv hw)
  | _ => exact .fail hm _

theorem accounted_lengthOf (v : Value) :
    Accounted t (Builtin.lengthOf v) m [] Deliveries.Knows := by
  cases v with
  | string _ | array _ _ => exact .pure hm (Deliveries.knows_of_isAtom rfl)
  | _ => exact .fail hm _

omit hm in
theorem accounted_printAll {vs : List Value} {m : Machine} (hm : t.Accounts m.memory) :
    Accounted t (Builtin.printAll vs) m [] (fun _ _ => True) := by
  induction vs generalizing m with
  | nil => exact .pure hm trivial
  | cons v vs ih => exact .of_eq (bind_of_done (record_apply _ m)) (ih hm)

theorem accounted_first {v : Value} (hv : t.Knows v) :
    Accounted t (Builtin.first.unary v) m [] Deliveries.Knows := by
  refine (accounted_elementsFor hm .first hv).bind_quiet (fun vs m' hvs hm' => .pure hm' ?_)
  cases vs with
  | nil => exact Deliveries.knows_of_isAtom rfl
  | cons w ws => exact hvs w List.mem_cons_self

theorem accounted_last {v : Value} (hv : t.Knows v) :
    Accounted t (Builtin.last.unary v) m [] Deliveries.Knows := by
  refine (accounted_elementsFor hm .last hv).bind_quiet (fun vs m' hvs hm' => .pure hm' ?_)
  rw [List.getLastD_eq_getLast?]
  cases hlast : vs.getLast? with
  | none => exact Deliveries.knows_of_isAtom rfl
  | some w => exact hvs w (List.mem_of_getLast? hlast)

/-- Of the elements but the first a new array is made, unless there are none at all. -/
theorem accounted_rest {v : Value} (hv : t.Knows v) :
    Accounted t (Builtin.rest.unary v) m
      ((Builtin.rest.unary v).thereafter (fun v _ => [.of (Builtin.rest.makes v) v]) m)
      Deliveries.Delivers := by
  refine (accounted_elementsFor hm .rest hv).bind_thereafter (T := []) (fun vs m' hvs hm' => ?_)
  rw [List.append_nil] at hvs hm' ⊢
  cases vs with
  | nil => exact (Accounted.pure hm' (Deliveries.knows_of_isAtom rfl)).hand
  | cons w ws => exact accounted_newArray hm' (List.forall_mem_cons.mp hvs).2

theorem accounted_push {c v : Value} (hc : t.Knows c) (hv : t.Knows v) :
    Accounted t (Builtin.push.apply [c, v]) m
      ((Builtin.push.apply [c, v]).thereafter (fun v _ => [.of (Builtin.push.makes v) v]) m)
      Deliveries.Delivers := by
  refine (accounted_elementsFor hm .push hc).bind_thereafter (T := []) (fun vs m' hvs hm' => ?_)
  rw [List.append_nil] at hvs hm' ⊢
  refine accounted_newArray hm' (fun w hw => ?_)
  rcases List.mem_append.mp hw with hw | hw
  · exact hvs w hw
  · rwa [List.mem_singleton.mp hw]

theorem accounted_apply (b : Builtin) {vs : List Value} (hvs : ∀ v ∈ vs, t.Knows v) :
    Accounted t (b.apply vs) m ((b.apply vs).thereafter (fun v _ => [.of (b.makes v) v]) m)
      Deliveries.Delivers := by
  have hfail : ∀ fault, Accounted t (fail fault : Evaluation Value) m [] Deliveries.Delivers :=
    fun fault => .fail hm fault
  cases b with
  | puts =>
    have hprint : Accounted t (Builtin.puts.apply vs) m [] Deliveries.Knows :=
      (accounted_printAll hm).bind_quiet (fun _ m' _ hm' =>
        .pure hm' (Deliveries.knows_of_isAtom rfl))
    exact hprint.hand
  | push =>
    match vs, hvs with
    | [c, v], hvs => exact accounted_push hm (hvs c (by simp)) (hvs v (by simp))
    | [], _ | [_], _ | _ :: _ :: _ :: _, _ => exact hfail _
  | len =>
    match vs, hvs with
    | [v], hvs => exact (accounted_lengthOf hm v).hand
    | [], _ | _ :: _ :: _, _ => exact hfail _
  | first =>
    match vs, hvs with
    | [v], hvs => exact (accounted_first hm (hvs v (by simp))).hand
    | [], _ | _ :: _ :: _, _ => exact hfail _
  | last =>
    match vs, hvs with
    | [v], hvs => exact (accounted_last hm (hvs v (by simp))).hand
    | [], _ | _ :: _ :: _, _ => exact hfail _
  | rest =>
    match vs, hvs with
    | [v], hvs => exact accounted_rest hm (hvs v (by simp))
    | [], _ | _ :: _ :: _, _ => exact hfail _

end

end Treewalk
