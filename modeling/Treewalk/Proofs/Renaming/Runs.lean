import Treewalk.Proofs.Renaming.Image

namespace Treewalk

open Evaluation

def Event.rename (φ : Renaming) : Event → Event
  | .printed v => .printed (v.rename φ)
  | e => e

namespace Renaming

variable (φ : Renaming)

/-- The memory of the second machine is an image of that of the first one, and the same has happened
in both. -/
structure Likeness (m m' : Machine) : Prop where
  memory : φ.Image m.memory m'.memory
  callDepth : m'.callDepth = m.callDepth
  journal : m'.journal = m.journal.map (Event.rename φ)

/-- Both end alike. -/
inductive Ends {α β : Type} (A : α → β → Prop) :
    Outcome α × Machine → Outcome β × Machine → Prop where
  | done {a : α} {b : β} {m m' : Machine} (ha : A a b) (hm : φ.Likeness m m') :
      Ends A (.done a, m) (.done b, m')
  | failed {m m' : Machine} (f : Fault) (hm : φ.Likeness m m') :
      Ends A (.failed f, m) (.failed (f.rename φ), m')
  | exhausted {m m' : Machine} (hm : φ.Likeness m m') : Ends A (.exhausted, m) (.exhausted, m')

/-- From machines that are alike both end alike, and if they have results, these are related. -/
def Tracks {α β : Type} (A : α → β → Prop) (p : Evaluation α) (q : Evaluation β) : Prop :=
  ∀ m m', φ.Likeness m m' → φ.Ends A (p m) (q m')

/-- The values of the second list are those of the first one renamed. -/
structure MatchAll (vs vs' : List Value) : Prop where
  eq : vs' = vs.map (·.rename φ)
  fits : ∀ v ∈ vs, φ.Fits v

structure MatchEntries (entries entries' : Entries Value) : Prop where
  eq : entries' = entries.map (fun e => (e.1, e.2.rename φ))
  fits : ∀ e ∈ entries, φ.Fits e.2

structure MatchScope (s s' : ScopeId) : Prop where
  eq : s' = φ.scope s
  kept : ¬ φ.forgotten s

variable {φ}

theorem MatchAll.nil : φ.MatchAll [] [] := ⟨rfl, by simp⟩

theorem MatchAll.cons {v v' : Value} {vs vs' : List Value} (hv : φ.Match v v')
    (hvs : φ.MatchAll vs vs') : φ.MatchAll (v :: vs) (v' :: vs') := by
  obtain ⟨rfl, hv⟩ := hv
  obtain ⟨rfl, hvs⟩ := hvs
  exact ⟨rfl, List.forall_mem_cons.mpr ⟨hv, hvs⟩⟩

theorem MatchAll.append {vs vs' ws ws' : List Value} (h : φ.MatchAll vs vs')
    (h' : φ.MatchAll ws ws') : φ.MatchAll (vs ++ ws) (vs' ++ ws') := by
  obtain ⟨rfl, hvs⟩ := h
  obtain ⟨rfl, hws⟩ := h'
  refine ⟨List.map_append.symm, fun v hv => ?_⟩
  exact (List.mem_append.mp hv).elim (hvs v) (hws v)

theorem MatchEntries.insert {entries entries' : Entries Value} (h : φ.MatchEntries entries entries')
    (key : Key) {v v' : Value} (hv : φ.Match v v') :
    φ.MatchEntries (Entries.insert key v entries) (Entries.insert key v' entries') := by
  obtain ⟨rfl, hentries⟩ := h
  obtain ⟨rfl, hv⟩ := hv
  refine ⟨Entries.insert_map (·.rename φ) key v entries, fun e he => ?_⟩
  rcases Entries.mem_insert he with rfl | he
  · exact hv
  · exact hentries e he

theorem Likeness.events {m m' : Machine} (h : φ.Likeness m m') :
    m'.events = m.events.map (Event.rename φ) := by
  rw [Machine.events, h.journal, Machine.events, List.map_reverse]

theorem Ends.machine {α β : Type} {A : α → β → Prop} {r : Outcome α × Machine}
    {r' : Outcome β × Machine} (h : φ.Ends A r r') : φ.Likeness r.2 r'.2 := by
  cases h with
  | done _ hm => exact hm
  | failed _ hm => exact hm
  | exhausted hm => exact hm

namespace Tracks

variable {α β γ δ : Type} {A : α → β → Prop} {B : γ → δ → Prop} {p : Evaluation α}
  {q : Evaluation β} {f : α → Evaluation γ} {g : β → Evaluation δ}

theorem pure {a : α} {b : β} (h : A a b) : φ.Tracks A (Pure.pure a) (Pure.pure b) :=
  fun _ _ hm => .done h hm

theorem fail (fault : Fault) :
    φ.Tracks A (Evaluation.fail fault) (Evaluation.fail (fault.rename φ)) :=
  fun _ _ hm => .failed fault hm

theorem bind (hp : φ.Tracks A p q) (hf : ∀ a b, A a b → φ.Tracks B (f a) (g b)) :
    φ.Tracks B (p >>= f) (q >>= g) := by
  intro m m' hm
  have hends := hp m m' hm
  rw [bind_apply, bind_apply]
  revert hends
  generalize p m = r
  generalize q m' = r'
  intro hends
  cases hends with
  | done ha hm' => exact hf _ _ ha _ _ hm'
  | failed fault hm' => exact .failed fault hm'
  | exhausted hm' => exact .exhausted hm'

theorem asCall (arity : Nat) (hp : φ.Tracks A p q) :
    φ.Tracks A (Evaluation.asCall arity p) (Evaluation.asCall arity q) := by
  intro m m' hm
  have hstart : φ.Likeness (m.startCall arity) (m'.startCall arity) := by
    refine ⟨hm.memory, congrArg (· + 1) hm.callDepth, ?_⟩
    simp only [Machine.startCall, hm.callDepth, hm.journal]
    rfl
  have hend : ∀ {m m'}, φ.Likeness m m' → φ.Likeness m.endCall m'.endCall := fun h =>
    ⟨h.memory, congrArg (· - 1) h.callDepth, congrArg (Event.callEnded :: ·) h.journal⟩
  have hends := hp _ _ hstart
  rw [asCall_apply, asCall_apply]
  revert hends
  generalize p (m.startCall arity) = r
  generalize q (m'.startCall arity) = r'
  intro hends
  cases hends with
  | done ha hm' => exact .done ha (hend hm')
  | failed fault hm' => exact .failed fault (hend hm')
  | exhausted hm' => exact .exhausted (hend hm')

theorem ofExcept {r : Except Fault α} {r' : Except Fault β}
    (hok : ∀ a, r = .ok a → ∃ b, r' = .ok b ∧ A a b)
    (herror : ∀ fault, r = .error fault → r' = .error (fault.rename φ)) :
    φ.Tracks A (Evaluation.ofExcept r) (Evaluation.ofExcept r') := by
  cases r with
  | ok a =>
    obtain ⟨b, rfl, hab⟩ := hok a rfl
    exact .pure hab
  | error fault =>
    rw [herror fault rfl]
    exact .fail fault

theorem record (e : Event) :
    φ.Tracks (fun _ _ => True) (Evaluation.record e) (Evaluation.record (e.rename φ)) :=
  fun _ _ hm => .done trivial
    ⟨hm.memory, hm.callDepth, congrArg (e.rename φ :: ·) hm.journal⟩

theorem define {s s' : ScopeId} (hs : φ.MatchScope s s') (name : String) {v v' : Value}
    (hv : φ.Match v v') : φ.Tracks (fun _ _ => True) (Evaluation.define s name v)
      (Evaluation.define s' (φ.name name) v') := by
  obtain ⟨rfl, _⟩ := hs
  exact fun _ _ hm => .done trivial ⟨hm.memory.define hv, hm.callDepth, hm.journal⟩

theorem stamp : φ.Tracks (fun n n' => n' = φ.stamp n) Evaluation.stamp Evaluation.stamp :=
  fun _ _ hm => .done hm.memory.stamp_next.symm
    ⟨hm.memory.stamped, hm.callDepth, hm.journal⟩

end Tracks

section
variable {s s' : ScopeId} {v v' w w' : Value} {vs vs' : List Value}

theorem tracks_newArray (h : φ.MatchAll vs vs') :
    φ.Tracks φ.Match (newArray vs) (newArray vs') := by
  obtain ⟨rfl, hfits⟩ := h
  refine .bind .stamp (fun n n' hn => .pure ?_)
  rw [hn]
  exact .array n hfits

theorem tracks_newHash {entries entries' : Entries Value} (h : φ.MatchEntries entries entries') :
    φ.Tracks φ.Match (newHash entries) (newHash entries') := by
  obtain ⟨rfl, hfits⟩ := h
  refine .bind .stamp (fun n n' hn => .pure ?_)
  rw [hn]
  exact .hash n hfits

theorem tracks_newFunction (hs : φ.MatchScope s s') (parameters : List String) {body : Block}
    (hbody : KnownStatements φ.known body) :
    φ.Tracks φ.Match (newFunction parameters body s)
      (newFunction (parameters.map φ.name) (renameStatements φ body) s') := by
  obtain ⟨rfl, hs⟩ := hs
  refine .bind .stamp (fun n n' hn => .pure ?_)
  rw [hn]
  exact .function n parameters hbody hs

theorem tracks_nameValue (hs : φ.MatchScope s s') {name : String} (hname : φ.known name) :
    φ.Tracks φ.Match (nameValue s name) (nameValue s' (φ.name name)) := by
  obtain ⟨rfl, hs⟩ := hs
  intro m m' hm
  rw [nameValue, nameValue, bind_of_done (look_apply _ _ _), bind_of_done (look_apply _ _ _),
    hm.memory.get? hs hname, ofName?_name]
  cases hv : m.memory.get? s name with
  | some v => exact .done ⟨rfl, hm.memory.fits.get? hs hv⟩ hm
  | none =>
    cases Builtin.ofName? name with
    | some b => exact .done (.of_isAtom rfl) hm
    | none => exact .failed (.unbound name) hm

theorem tracks_unaryOperator (o : UnaryOperator) (hv : φ.Match v v') :
    φ.Tracks φ.Match (ofExcept (o.apply v)) (ofExcept (o.apply v')) := by
  obtain ⟨rfl, _⟩ := hv
  rw [o.apply_rename]
  refine .ofExcept (fun u hu => ⟨u, hu, .of_isAtom (o.isAtom_of_apply hu)⟩) (fun f hf => ?_)
  rw [hf, o.rename_fault hf]

theorem tracks_binaryOperator (o : BinaryOperator) (hv : φ.Match v v') (hw : φ.Match w w') :
    φ.Tracks φ.Match (ofExcept (o.apply v w)) (ofExcept (o.apply v' w')) := by
  obtain ⟨rfl, _⟩ := hv
  obtain ⟨rfl, _⟩ := hw
  rw [o.apply_rename]
  refine .ofExcept (fun u hu => ⟨u, hu, .of_isAtom (o.isAtom_of_apply hu)⟩) (fun f hf => ?_)
  rw [hf, o.rename_fault hf]

theorem tracks_toKey (hv : φ.Match v v') :
    φ.Tracks Eq (ofExcept v.toKey) (ofExcept v'.toKey) := by
  obtain ⟨rfl, _⟩ := hv
  rw [Value.toKey_rename]
  refine .ofExcept (fun key hkey => ⟨key, hkey, rfl⟩) (fun f hf => ?_)
  rw [hf, Value.rename_fault_toKey hf]

theorem tracks_at (hv : φ.Match v v') (hw : φ.Match w w') :
    φ.Tracks φ.Match (ofExcept (v.at w)) (ofExcept (v'.at w')) := by
  obtain ⟨rfl, hv⟩ := hv
  obtain ⟨rfl, _⟩ := hw
  rw [Value.at_rename]
  refine .ofExcept (fun u hu => ⟨u.rename φ, by rw [hu]; rfl, rfl, ?_⟩) (fun f hf => ?_)
  · exact Value.fits_at lenient hv hu
  · rw [hf]
    exact congrArg Except.error (Value.rename_fault_at hf).symm

theorem tracks_elementsFor (b : Builtin) (hv : φ.Match v v') :
    φ.Tracks φ.MatchAll (b.elementsFor v) (b.elementsFor v') := by
  obtain ⟨rfl, hfits⟩ := hv
  cases v with
  | array n vs =>
    rw [Value.rename, renameElements_eq]
    exact .pure ⟨rfl, fits_of_array hfits⟩
  | _ => exact .fail _

theorem tracks_lengthOf (hv : φ.Match v v') :
    φ.Tracks φ.Match (Builtin.lengthOf v) (Builtin.lengthOf v') := by
  obtain ⟨rfl, _⟩ := hv
  cases v with
  | string s => exact .pure (.of_isAtom rfl)
  | array n vs =>
    rw [Value.rename, renameElements_eq, Builtin.lengthOf, Builtin.lengthOf, List.length_map]
    exact .pure (.of_isAtom rfl)
  | _ => exact .fail _

theorem MatchAll.headD (h : φ.MatchAll vs vs') : φ.Match (vs.headD .null) (vs'.headD .null) := by
  obtain ⟨rfl, hfits⟩ := h
  cases vs with
  | nil => exact .of_isAtom rfl
  | cons v vs => exact ⟨rfl, hfits v List.mem_cons_self⟩

theorem MatchAll.getLastD (h : φ.MatchAll vs vs') :
    φ.Match (vs.getLastD .null) (vs'.getLastD .null) := by
  obtain ⟨rfl, hfits⟩ := h
  rw [List.getLastD_eq_getLast?, List.getLastD_eq_getLast?, List.getLast?_map]
  cases hlast : vs.getLast? with
  | none => exact .of_isAtom rfl
  | some v => exact ⟨rfl, hfits v (List.mem_of_getLast? hlast)⟩

theorem tracks_unary (b : Builtin) (hv : φ.Match v v') :
    φ.Tracks φ.Match (b.unary v) (b.unary v') := by
  unfold Builtin.unary
  split
  · exact tracks_lengthOf hv
  · exact .bind (tracks_elementsFor _ hv) (fun vs vs' h => .pure h.headD)
  · exact .bind (tracks_elementsFor _ hv) (fun vs vs' h => .pure h.getLastD)
  · refine .bind (tracks_elementsFor _ hv) (fun vs vs' h => ?_)
    obtain ⟨rfl, hfits⟩ := h
    cases vs with
    | nil => exact .pure (.of_isAtom rfl)
    | cons v vs => exact tracks_newArray ⟨rfl, (List.forall_mem_cons.mp hfits).2⟩

theorem tracks_printAll (h : φ.MatchAll vs vs') :
    φ.Tracks (fun _ _ => True) (Builtin.printAll vs) (Builtin.printAll vs') := by
  obtain ⟨rfl, hfits⟩ := h
  induction vs with
  | nil => exact .pure trivial
  | cons v vs ih =>
    exact .bind (.record (.printed v)) (fun _ _ _ => ih (List.forall_mem_cons.mp hfits).2)

theorem tracks_push (h : φ.MatchAll vs vs') :
    φ.Tracks φ.Match (Builtin.push.apply vs) (Builtin.push.apply vs') := by
  obtain ⟨rfl, hfits⟩ := h
  have hmatch : ∀ v ∈ vs, φ.Match v (v.rename φ) := fun v hv => ⟨rfl, hfits v hv⟩
  match vs with
  | [collection, v] =>
    refine .bind (tracks_elementsFor _ (hmatch collection (by simp))) (fun ws ws' hws => ?_)
    exact tracks_newArray (hws.append (.cons (hmatch v (by simp)) .nil))
  | [] | [_] => exact .fail _
  | _ :: _ :: _ :: rest =>
    simp only [Builtin.apply, List.map_cons, List.length_cons, List.length_map]
    exact .fail _

/-- All but `push` and `puts` take one argument. -/
theorem apply_of_length_ne {b : Builtin} (hpush : b ≠ .push) (hputs : b ≠ .puts)
    (h : vs.length ≠ 1) : b.apply vs = fail (.builtinArity 1 vs.length) := by
  unfold Builtin.apply
  split <;> first | contradiction | skip
  split
  · exact absurd rfl h
  · rfl

theorem apply_singleton {b : Builtin} (hpush : b ≠ .push) (hputs : b ≠ .puts) (v : Value) :
    b.apply [v] = b.unary v := by
  cases b <;> first | rfl | contradiction

theorem tracks_apply (b : Builtin) (h : φ.MatchAll vs vs') :
    φ.Tracks φ.Match (b.apply vs) (b.apply vs') := by
  by_cases hputs : b = .puts
  · subst hputs
    exact .bind (tracks_printAll h) (fun _ _ _ => .pure (.of_isAtom rfl))
  by_cases hpush : b = .push
  · subst hpush
    exact tracks_push h
  obtain ⟨rfl, hfits⟩ := h
  by_cases hlength : vs.length = 1
  · obtain ⟨v, rfl⟩ := List.length_eq_one_iff.mp hlength
    rw [List.map_singleton, apply_singleton hpush hputs, apply_singleton hpush hputs]
    exact tracks_unary b ⟨rfl, hfits v List.mem_cons_self⟩
  · have hmap : (vs.map (·.rename φ)).length ≠ 1 := by rwa [List.length_map]
    rw [apply_of_length_ne hpush hputs hlength, apply_of_length_ne hpush hputs hmap,
      List.length_map]
    exact .fail _

end

section
variable {eval : Eval} {s s' : ScopeId} {v v' : Value} {vs vs' : List Value}

theorem tracks_callScope (hs : φ.MatchScope s s') (parameters : List String)
    (hvs : φ.MatchAll vs vs') :
    φ.Tracks φ.MatchScope (callScope parameters s vs)
      (callScope (parameters.map φ.name) s' vs') := by
  obtain ⟨rfl, hs⟩ := hs
  obtain ⟨rfl, hfits⟩ := hvs
  intro m m' hm
  have hinner := hm.memory.innerScope hs
  rw [callScope_apply, callScope_apply]
  refine .done ⟨hm.memory.scope_size.symm, hm.memory.fits.fresh⟩ ⟨?_, hm.callDepth, hm.journal⟩
  have hdefine := hinner.defineAll (s := m.memory.scopes.size) parameters hfits
  rw [hm.memory.scope_size] at hdefine
  exact hdefine

/-- The renamed text is evaluated in the image as the text itself is. -/
def TracksEval (φ : Renaming) (eval : Eval) : Prop :=
  ∀ {s s' e}, φ.MatchScope s s' → Expression.Known φ.known e →
    φ.Tracks φ.Match (eval s e) (eval s' (e.rename φ))

variable (he : φ.TracksEval eval)
include he

theorem tracks_statement (hs : φ.MatchScope s s') {t : Statement} (ht : t.Known φ.known) :
    φ.Tracks φ.Match (runStatement eval s t) (runStatement eval s' (t.rename φ)) := by
  cases t with
  | binding name e =>
    refine .bind (he hs ht) (fun v v' hv => .bind (.define hs name hv) (fun _ _ _ => ?_))
    exact .pure (.of_isAtom rfl)
  | «return» e => exact .bind (he hs ht) (fun v v' hv => .pure hv.returned)
  | expression e => exact he hs ht

theorem tracks_statements (hs : φ.MatchScope s s') {ss : List Statement}
    (hss : KnownStatements φ.known ss) (hv : φ.Match v v') :
    φ.Tracks φ.Match (runStatements eval s ss v)
      (runStatements eval s' (renameStatements φ ss) v') := by
  induction ss generalizing v v' with
  | nil => exact .pure hv
  | cons t rest ih =>
    refine .bind (tracks_statement he hs hss.1) (fun w w' hw => ?_)
    have hreturned : w'.isReturned = w.isReturned := by rw [hw.eq, Value.isReturned_rename]
    rw [hreturned]
    split
    · exact .pure hw
    · exact ih hss.2 hw

theorem tracks_block (hs : φ.MatchScope s s') {body : Block}
    (hbody : KnownStatements φ.known body) :
    φ.Tracks φ.Match (runBlock eval s body) (runBlock eval s' (renameStatements φ body)) :=
  tracks_statements he hs hbody (.of_isAtom rfl)

theorem tracks_callValue (hv : φ.Match v v') (hvs : φ.MatchAll vs vs') :
    φ.Tracks φ.Match (callValue eval v vs) (callValue eval v' vs') := by
  have hlength : vs'.length = vs.length := by rw [hvs.eq, List.length_map]
  obtain ⟨rfl, hfits⟩ := hv
  cases v with
  | function n parameters body outer =>
    obtain ⟨hbody, houter⟩ := Value.fits_function.mp hfits
    simp only [Value.rename, callValue, enterFunction, List.length_map, hlength]
    split
    · refine .bind (tracks_callScope ⟨rfl, houter⟩ parameters hvs) (fun inner inner' hinner => ?_)
      refine .bind (.asCall _ (tracks_block he hinner hbody)) (fun w w' hw => ?_)
      exact .pure hw.unwrapped
    · exact .fail _
  | builtin b =>
    simp only [Value.rename, callValue, hlength]
    exact .bind (.record (.builtinCalled b vs.length)) (fun _ _ _ => tracks_apply b hvs)
  | _ => exact .fail _

theorem tracks_evalAll (hs : φ.MatchScope s s') {es : List Expression}
    (hes : KnownExpressions φ.known es) :
    φ.Tracks φ.MatchAll (evalAll (eval s) es) (evalAll (eval s') (renameExpressions φ es)) := by
  induction es with
  | nil => exact .pure .nil
  | cons e rest ih =>
    refine .bind (he hs hes.1) (fun v v' hv => .bind (ih hes.2) (fun vs vs' hvs => ?_))
    exact .pure (.cons hv hvs)

theorem tracks_evalPairs (hs : φ.MatchScope s s') {pairs : List (Expression × Expression)}
    (hpairs : KnownPairs φ.known pairs) {entries entries' : Entries Value}
    (hentries : φ.MatchEntries entries entries') :
    φ.Tracks φ.MatchEntries (evalPairs (eval s) pairs entries)
      (evalPairs (eval s') (renamePairs φ pairs) entries') := by
  induction pairs generalizing entries entries' with
  | nil => exact .pure hentries
  | cons pair rest ih =>
    obtain ⟨hk, hp, hrest⟩ := hpairs
    refine .bind (he hs hk) (fun v v' hv => .bind (tracks_toKey hv) ?_)
    rintro key _ rfl
    exact .bind (he hs hp) (fun w w' hw => ih hrest (hentries.insert key hw))

theorem tracks_node (hs : φ.MatchScope s s') {e : Expression} (hk : e.Known φ.known) :
    φ.Tracks φ.Match (evalNode eval s e) (evalNode eval s' (e.rename φ)) := by
  cases e with
  | identifier name => exact tracks_nameValue hs hk
  | integer n => exact .pure (.of_isAtom rfl)
  | boolean b => exact .pure (.of_isAtom rfl)
  | string t => exact .pure (.of_isAtom rfl)
  | unary o e => exact .bind (he hs hk) (fun v v' hv => tracks_unaryOperator o hv)
  | binary o a b =>
    refine .bind (he hs hk.1) (fun v v' hv => .bind (he hs hk.2) (fun w w' hw => ?_))
    exact tracks_binaryOperator o hv hw
  | conditional c body alternative =>
    have htruthy : ∀ {v v'}, φ.Match v v' → v'.isTruthy = v.isTruthy := fun hv => by
      rw [hv.eq, Value.isTruthy_rename]
    cases alternative with
    | none =>
      refine .bind (he hs hk.1) (fun v v' hv => ?_)
      rw [htruthy hv]
      split
      · exact tracks_block he hs hk.2
      · exact .pure (.of_isAtom rfl)
    | some other =>
      refine .bind (he hs hk.1) (fun v v' hv => ?_)
      rw [htruthy hv]
      split
      · exact tracks_block he hs hk.2.1
      · exact tracks_block he hs hk.2.2
  | function parameters body => exact tracks_newFunction hs parameters hk
  | call f arguments =>
    refine .bind (he hs hk.1) (fun v v' hv => ?_)
    exact .bind (tracks_evalAll he hs hk.2) (fun vs vs' hvs => tracks_callValue he hv hvs)
  | array elements => exact .bind (tracks_evalAll he hs hk) (fun vs vs' hvs => tracks_newArray hvs)
  | index c i =>
    refine .bind (he hs hk.1) (fun v v' hv => .bind (he hs hk.2) (fun w w' hw => ?_))
    exact tracks_at hv hw
  | hash pairs =>
    exact .bind (tracks_evalPairs he hs hk ⟨rfl, by simp⟩) (fun es es' hes => tracks_newHash hes)

end

theorem tracksEval_evaluate (φ : Renaming) (budget : Nat) : φ.TracksEval (evaluate budget) := by
  induction budget with
  | zero => exact fun _ _ _ _ hm => .exhausted hm
  | succ n ih => exact fun hs hk => tracks_node ih hs hk

theorem tracks_run {s s' : ScopeId} (hs : φ.MatchScope s s') {p : Program}
    (hp : KnownStatements φ.known p.statements) (budget : Nat) :
    φ.Tracks φ.Match (p.run budget s) ((p.rename φ).run budget s') :=
  .bind (tracks_block (φ.tracksEval_evaluate budget) hs hp) (fun _ _ hv => .pure hv.unwrapped)

end Renaming

end Treewalk
