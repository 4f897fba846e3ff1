import Treewalk.Run.Evaluate

namespace Treewalk

open Evaluation

mutual

/-- The names of the `let`s in an expression, outside of function literals. -/
def Expression.letNames : Expression → List String
  | .unary _ e => e.letNames
  | .binary _ a b => a.letNames ++ b.letNames
  | .conditional c body none => c.letNames ++ blockLetNames body
  | .conditional c body (some other) => c.letNames ++ blockLetNames body ++ blockLetNames other
  | .call f arguments => f.letNames ++ listLetNames arguments
  | .array elements => listLetNames elements
  | .index c i => c.letNames ++ i.letNames
  | .hash pairs => pairsLetNames pairs
  | _ => []

def Statement.letNames : Statement → List String
  | .binding name e => name :: e.letNames
  | .return e => e.letNames
  | .expression e => e.letNames

def blockLetNames : List Statement → List String
  | [] => []
  | s :: rest => s.letNames ++ blockLetNames rest

def listLetNames : List Expression → List String
  | [] => []
  | e :: rest => e.letNames ++ listLetNames rest

def pairsLetNames : List (Expression × Expression) → List String
  | [] => []
  | (k, e) :: rest => k.letNames ++ e.letNames ++ pairsLetNames rest

end

/-- No scope is changed; there may be more of them. -/
structure Memory.Extends (m m' : Memory) : Prop where
  size_le : m.scopes.size ≤ m'.scopes.size
  enclosing : ∀ t < m.scopes.size, m'.enclosing t = m.enclosing t
  bindings : ∀ t < m.scopes.size, m'.bindings t = m.bindings t

/-- Only one of the scopes is changed: some of the names are bound in it, whether for the first time
or again. -/
structure Memory.Frame (own : ScopeId) (names : List String) (m m' : Memory) : Prop where
  size_le : m.scopes.size ≤ m'.scopes.size
  enclosing : ∀ t < m.scopes.size, m'.enclosing t = m.enclosing t
  elsewhere : ∀ t < m.scopes.size, t ≠ own → m'.bindings t = m.bindings t
  kept : own < m.scopes.size →
    ∀ name, ((m.bindings own).get? name).isSome → ((m'.bindings own).get? name).isSome
  unnamed : own < m.scopes.size →
    ∀ name ∉ names, (m'.bindings own).get? name = (m.bindings own).get? name

namespace Memory

variable {own : ScopeId} {names : List String} {m m' m'' : Memory}

theorem Extends.of_scopes_eq (h : m'.scopes = m.scopes) : m.Extends m' := by
  refine ⟨Nat.le_of_eq (by rw [h]), fun t _ => ?_, fun t _ => ?_⟩
  · rw [Memory.enclosing, h, Memory.enclosing]
  · rw [Memory.bindings, h, Memory.bindings]

theorem extends_innerScope (m : Memory) (outer : ScopeId) :
    m.Extends (m.innerScope outer).2 :=
  ⟨Nat.le_of_lt lt_size_innerScope, fun _ ht => enclosing_addScope_of_lt ht,
    fun _ _ => bindings_innerScope⟩

namespace Frame

theorem of_extends (h : m.Extends m') : Frame own names m m' :=
  ⟨h.size_le, h.enclosing, fun t ht _ => h.bindings t ht,
    fun hown name hbound => by rwa [h.bindings own hown],
    fun hown name _ => by rw [h.bindings own hown]⟩

/-- The scope that may change did not exist before. -/
theorem «extends» (h : Frame m.scopes.size names m m') : m.Extends m' :=
  ⟨h.size_le, h.enclosing, fun t ht => h.elsewhere t ht (Nat.ne_of_lt ht)⟩

theorem trans (h : Frame own names m m') (h' : Frame own names m' m'') :
    Frame own names m m'' := by
  refine ⟨Nat.le_trans h.size_le h'.size_le, fun t ht => ?_, fun t ht hne => ?_,
    fun hown name hbound => ?_, fun hown name hname => ?_⟩
  · rw [h'.enclosing t (Nat.lt_of_lt_of_le ht h.size_le), h.enclosing t ht]
  · rw [h'.elsewhere t (Nat.lt_of_lt_of_le ht h.size_le) hne, h.elsewhere t ht hne]
  · exact h'.kept (Nat.lt_of_lt_of_le hown h.size_le) name (h.kept hown name hbound)
  · rw [h'.unnamed (Nat.lt_of_lt_of_le hown h.size_le) name hname, h.unnamed hown name hname]

theorem mono (h : Frame own names m m') {more : List String} (hsub : names ⊆ more) :
    Frame own more m m' :=
  { h with unnamed := fun hown name hname => h.unnamed hown name (fun hmem => hname (hsub hmem)) }

theorem define {name : String} (hname : name ∈ names) (v : Value) :
    Frame own names m (m.define own name v) := by
  refine ⟨Nat.le_of_eq (m.size_define own name v).symm, fun t _ => m.enclosing_define own t name v,
    fun t _ hne => bindings_define_of_ne hne.symm name v, fun hown other hbound => ?_,
    fun hown other hother => ?_⟩
  · rw [bindings_define_self hown, Bindings.get?_set]
    split
    · rfl
    · exact hbound
  · have hne : name ≠ other := fun h => hother (h ▸ hname)
    rw [bindings_define_self hown, Bindings.get?_set, if_neg hne]

end Frame

/-- Names bound one after the other in one scope. -/
theorem Frame.defineAll {bs : List (String × Value)} (h : ∀ b ∈ bs, b.1 ∈ names) :
    Frame own names m (m.defineAll own bs) := by
  induction bs generalizing m with
  | nil => exact .of_extends (.of_scopes_eq rfl)
  | cons b bs ih =>
    obtain ⟨hb, hbs⟩ := List.forall_mem_cons.mp h
    exact (Frame.define hb b.2).trans (ih hbs)

end Memory

/-- The step changes one of the scopes at most, in which it binds some of the names. -/
def Evaluation.Binds {α : Type} (own : ScopeId) (names : List String) (p : Evaluation α) : Prop :=
  ∀ m : Machine, Memory.Frame own names m.memory (p m).2.memory

theorem frame_bind {α β : Type} {own : ScopeId} {names : List String} {p : Evaluation α}
    {f : α → Evaluation β} {m : Machine} (hp : Memory.Frame own names m.memory (p m).2.memory)
    (hf : ∀ a m', p m = (.done a, m') →
      Memory.Frame own names m'.memory (f a m').2.memory) :
    Memory.Frame own names m.memory ((p >>= f) m).2.memory := by
  cases hr : p m with
  | mk outcome m' =>
    rw [hr] at hp
    cases outcome with
    | done a => rw [bind_of_done hr]; exact hp.trans (hf a m' hr)
    | failed fault => rw [bind_of_failed hr]; exact hp
    | exhausted => rw [bind_of_exhausted hr]; exact hp

namespace Evaluation.Binds

variable {α β : Type} {own : ScopeId} {names : List String} {p : Evaluation α}
  {f : α → Evaluation β}

theorem of_scopes_eq (h : ∀ m, (p m).2.memory.scopes = m.memory.scopes) : Binds own names p :=
  fun m => .of_extends (.of_scopes_eq (h m))

theorem pure (a : α) : Binds own names (Pure.pure a) := of_scopes_eq (fun _ => rfl)

theorem fail (fault : Fault) : Binds own names (Evaluation.fail fault : Evaluation α) :=
  of_scopes_eq (fun _ => rfl)

theorem bind (hp : Binds own names p) (hf : ∀ a, Binds own names (f a)) :
    Binds own names (p >>= f) :=
  fun m => frame_bind (hp m) (fun a m' _ => hf a m')

theorem mono (hp : Binds own names p) {more : List String} (hsub : names ⊆ more) :
    Binds own more p :=
  fun m => (hp m).mono hsub

theorem asCall (hp : Binds own names p) (arity : Nat) :
    Binds own names (Evaluation.asCall arity p) :=
  fun m => hp (m.startCall arity)

end Evaluation.Binds

section
variable {own : ScopeId} {names : List String}

theorem binds_ofExcept {α : Type} (r : Except Fault α) : Binds own names (ofExcept r) := by
  cases r with
  | ok a => exact .pure a
  | error fault => exact .fail fault

theorem binds_record (e : Event) : Binds own names (record e) := .of_scopes_eq (fun _ => rfl)

theorem binds_newArray (vs : List Value) : Binds own names (newArray vs) :=
  .of_scopes_eq (fun _ => rfl)

theorem binds_newHash (entries : Entries Value) : Binds own names (newHash entries) :=
  .of_scopes_eq (fun _ => rfl)

theorem binds_newFunction (parameters : List String) (body : Block) (scope : ScopeId) :
    Binds own names (newFunction parameters body scope) :=
  .of_scopes_eq (fun _ => rfl)

theorem binds_define {name : String} (hname : name ∈ names) (v : Value) :
    Binds own names (define own name v) :=
  fun _ => .define hname v

theorem binds_nameValue (scope : ScopeId) (name : String) :
    Binds own names (nameValue scope name) := by
  have hlook : Binds own names (look scope name) := .of_scopes_eq (fun _ => rfl)
  refine hlook.bind (fun bound => ?_)
  cases bound with
  | some v => exact .pure v
  | none =>
    cases Builtin.ofName? name with
    | some b => exact .pure (Value.builtin b)
    | none => exact .fail _

theorem binds_elementsFor (b : Builtin) (v : Value) : Binds own names (b.elementsFor v) := by
  cases v with
  | array n vs => exact .pure vs
  | _ => exact .fail _

theorem binds_lengthOf (v : Value) : Binds own names (Builtin.lengthOf v) := by
  cases v with
  | string _ | array _ _ => exact .pure _
  | _ => exact .fail _

theorem binds_unary (b : Builtin) (v : Value) : Binds own names (b.unary v) := by
  unfold Builtin.unary
  split
  · exact binds_lengthOf v
  · exact (binds_elementsFor _ v).bind (fun _ => .pure _)
  · exact (binds_elementsFor _ v).bind (fun _ => .pure _)
  · refine (binds_elementsFor _ v).bind (fun vs => ?_)
    cases vs with
    | nil => exact .pure _
    | cons w ws => exact binds_newArray ws

theorem binds_printAll (vs : List Value) : Binds own names (Builtin.printAll vs) := by
  induction vs with
  | nil => exact .pure ()
  | cons v vs ih => exact (binds_record _).bind (fun _ => ih)

theorem binds_apply (b : Builtin) (vs : List Value) : Binds own names (b.apply vs) := by
  unfold Builtin.apply
  split
  · exact (binds_printAll vs).bind (fun _ => .pure _)
  · split
    · exact (binds_elementsFor _ _).bind (fun _ => binds_newArray _)
    · exact .fail _
  · split
    · exact binds_unary _ _
    · exact .fail _

end

/-- Expressions are evaluated within their frames. -/
def Framed (eval : Eval) : Prop :=
  ∀ scope e, Binds scope (Expression.letNames e) (eval scope e)

section
variable {eval : Eval} (hf : Framed eval) (scope : ScopeId)
include hf

theorem binds_statement (s : Statement) : Binds scope s.letNames (runStatement eval scope s) := by
  cases s with
  | binding name e =>
    have hsub : e.letNames ⊆ name :: e.letNames := List.subset_cons_self _ _
    refine ((hf scope e).mono hsub).bind (fun v => ?_)
    exact (binds_define List.mem_cons_self v).bind (fun _ => .pure _)
  | «return» e => exact (hf scope e).bind (fun v => .pure _)
  | expression e => exact hf scope e

theorem binds_statements (ss : List Statement) (v : Value) :
    Binds scope (blockLetNames ss) (runStatements eval scope ss v) := by
  induction ss generalizing v with
  | nil => exact .pure v
  | cons s rest ih =>
    have hs := (binds_statement hf scope s).mono (List.subset_append_left _ (blockLetNames rest))
    refine hs.bind (fun w => ?_)
    split
    · exact .pure w
    · exact (ih w).mono (List.subset_append_right _ _)

theorem binds_block (body : Block) : Binds scope (blockLetNames body) (runBlock eval scope body) :=
  binds_statements hf scope body .null

theorem binds_evalAll (es : List Expression) :
    Binds scope (listLetNames es) (evalAll (eval scope) es) := by
  induction es with
  | nil => exact .pure []
  | cons e rest ih =>
    refine ((hf scope e).mono (List.subset_append_left _ _)).bind (fun v => ?_)
    exact (ih.mono (List.subset_append_right _ _)).bind (fun vs => .pure _)

theorem binds_evalPairs (pairs : List (Expression × Expression)) (entries : Entries Value) :
    Binds scope (pairsLetNames pairs) (evalPairs (eval scope) pairs entries) := by
  induction pairs generalizing entries with
  | nil => exact .pure entries
  | cons pair rest ih =>
    obtain ⟨k, e⟩ := pair
    refine ((hf scope k).mono (by simp [pairsLetNames])).bind (fun v => ?_)
    refine (binds_ofExcept _).bind (fun key => ?_)
    refine ((hf scope e).mono (by simp [pairsLetNames])).bind (fun w => ?_)
    exact (ih _).mono (by simp [pairsLetNames])

end

section
variable {eval : Eval} (hf : Framed eval)
include hf

/-- The new scope of the call is the only one that changes while the function runs. -/
theorem extends_enterFunction (parameters : List String) (body : Block) (outer : ScopeId)
    (arguments : List Value) (m : Machine) :
    m.memory.Extends (enterFunction eval parameters body outer arguments m).2.memory := by
  unfold enterFunction
  split
  · have hcall : Memory.Frame m.memory.scopes.size (parameters ++ blockLetNames body) m.memory
        (callScope parameters outer arguments m).2.memory := by
      rw [callScope_apply]
      refine (Memory.Frame.of_extends (m.memory.extends_innerScope outer)).trans ?_
      exact .defineAll (fun b hb => List.mem_append_left _ (List.of_mem_zip hb).1)
    refine (frame_bind hcall (fun inner m' hinner => ?_)).extends
    rw [callScope_apply] at hinner
    obtain rfl := Outcome.done.inj (Prod.mk.inj hinner).1
    have hbody := ((binds_block hf m.memory.scopes.size body).mono
      (List.subset_append_right parameters _)).asCall parameters.length
    exact hbody.bind (fun v => .pure v.unwrapped) m'
  · exact .of_scopes_eq rfl

theorem extends_callValue (callee : Value) (arguments : List Value) (m : Machine) :
    m.memory.Extends (callValue eval callee arguments m).2.memory := by
  unfold callValue
  split
  · exact extends_enterFunction hf _ _ _ arguments m
  · next b =>
    have hb : Binds m.memory.scopes.size [] (do
        record (.builtinCalled b arguments.length)
        b.apply arguments) :=
      (binds_record _).bind (fun _ => binds_apply b arguments)
    exact (hb m).extends
  · exact .of_scopes_eq rfl

theorem binds_node (scope : ScopeId) (e : Expression) :
    Binds scope e.letNames (evalNode eval scope e) := by
  cases e with
  | identifier name => exact binds_nameValue scope name
  | integer n => exact .pure _
  | boolean b => exact .pure _
  | string s => exact .pure _
  | unary o e => exact (hf scope e).bind (fun v => binds_ofExcept _)
  | binary o a b =>
    refine ((hf scope a).mono (List.subset_append_left _ _)).bind (fun v => ?_)
    refine ((hf scope b).mono (List.subset_append_right _ _)).bind (fun w => ?_)
    exact binds_ofExcept _
  | conditional c body alternative =>
    cases alternative with
    | none =>
      refine ((hf scope c).mono (List.subset_append_left _ _)).bind (fun v => ?_)
      split
      · exact (binds_block hf scope body).mono (List.subset_append_right _ _)
      · exact .pure _
    | some other =>
      refine ((hf scope c).mono (by simp [Expression.letNames])).bind (fun v => ?_)
      split
      · exact (binds_block hf scope body).mono (by simp [Expression.letNames])
      · exact (binds_block hf scope other).mono (by simp [Expression.letNames])
  | function parameters body => exact binds_newFunction parameters body scope
  | call f arguments =>
    refine ((hf scope f).mono (List.subset_append_left _ _)).bind (fun v => ?_)
    refine ((binds_evalAll hf scope arguments).mono (List.subset_append_right _ _)).bind
      (fun vs => ?_)
    exact fun m => .of_extends (extends_callValue hf v vs m)
  | array elements => exact (binds_evalAll hf scope elements).bind (fun vs => binds_newArray vs)
  | index c i =>
    refine ((hf scope c).mono (List.subset_append_left _ _)).bind (fun v => ?_)
    refine ((hf scope i).mono (List.subset_append_right _ _)).bind (fun w => ?_)
    exact binds_ofExcept _
  | hash pairs => exact (binds_evalPairs hf scope pairs []).bind (fun es => binds_newHash es)

end

theorem framed_evaluate (n : Nat) : Framed (evaluate n) := by
  induction n with
  | zero => exact fun scope e => .of_scopes_eq (fun _ => rfl)
  | succ n ih => exact fun scope e => binds_node ih scope e

theorem binds_run (p : Program) (budget : Nat) (scope : ScopeId) :
    Binds scope (blockLetNames p.statements) (p.run budget scope) :=
  (binds_block (framed_evaluate budget) scope p.statements).bind (fun v => .pure v.unwrapped)

/-- A call changes no scope that exists; an expression, a statement or a program that is evaluated
in a scope changes that scope only, in which it binds names of its `let`s. -/
theorem evaluation_frames (budget : Nat) (scope : ScopeId) (m : Machine) :
    (∀ (callee : Value) (arguments : List Value),
      m.memory.Extends (callee.call budget arguments m).2.memory) ∧
    (∀ e : Expression,
      m.memory.Frame scope e.letNames (evaluate budget scope e m).2.memory) ∧
    (∀ s : Statement,
      m.memory.Frame scope s.letNames (runStatement (evaluate budget) scope s m).2.memory) ∧
    (∀ p : Program,
      m.memory.Frame scope (blockLetNames p.statements) (p.run budget scope m).2.memory) := by
  have hf := framed_evaluate budget
  exact ⟨fun callee arguments => extends_callValue hf callee arguments m,
    fun e => hf scope e m, fun s => binds_statement hf scope s m,
    fun p => binds_run p budget scope m⟩

end Treewalk
