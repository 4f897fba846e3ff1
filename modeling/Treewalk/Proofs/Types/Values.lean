import Mathlib.Data.List.Forall2
import Treewalk.Proofs.Run.Frame
import Treewalk.Proofs.Run.Sight
import Treewalk.Proofs.Types.Basic

namespace Treewalk

variable {T : String → Ty} {m m' : Memory}

/-- Whatever is bound stays bound. -/
structure Memory.Grows (m m' : Memory) : Prop where
  size_le : m.scopes.size ≤ m'.scopes.size
  bound : ∀ s name, m.isBound s name = true → m'.isBound s name = true

namespace Memory

theorem isBound_iff {s : ScopeId} {name : String} :
    m.isBound s name = true ↔
      ∃ t ∈ s :: m.enclosing s, ((m.bindings t).get? name).isSome = true := by
  rw [← isSome_get?, get?, List.isSome_findSome?, List.any_eq_true]

theorem Grows.refl (m : Memory) : m.Grows m := ⟨Nat.le_refl _, fun _ _ h => h⟩

theorem Grows.trans {m'' : Memory} (h : m.Grows m') (h' : m'.Grows m'') : m.Grows m'' :=
  ⟨Nat.le_trans h.size_le h'.size_le, fun s name hb => h'.bound s name (h.bound s name hb)⟩

theorem lt_of_get?_isSome {t : ScopeId} {name : String}
    (h : ((m.bindings t).get? name).isSome = true) : t < m.scopes.size := by
  obtain ⟨v, hv⟩ := Option.isSome_iff_exists.mp h
  exact lt_of_mem_bindings (Bindings.mem_of_get? hv)

/-- A frame takes no binding away. -/
theorem Frame.grows {own : ScopeId} {names : List String} (h : Frame own names m m') :
    m.Grows m' := by
  refine ⟨h.size_le, fun s name hbound => ?_⟩
  obtain ⟨t, ht, hname⟩ := isBound_iff.mp hbound
  have hlt := lt_of_get?_isSome hname
  have hname' : ((m'.bindings t).get? name).isSome = true := by
    by_cases hown : t = own
    · subst hown
      exact h.kept hlt name hname
    · rwa [h.elsewhere t hlt hown]
  refine isBound_iff.mpr ⟨t, ?_, hname'⟩
  rcases List.mem_cons.mp ht with rfl | ht
  · exact List.mem_cons_self
  · rw [h.enclosing s (lt_of_mem_enclosing ht)]
    exact List.mem_cons_of_mem _ ht

theorem grows_define (s : ScopeId) (name : String) (v : Value) : m.Grows (m.define s name v) := by
  have hframe : Frame s [name] m (m.define s name v) := .define List.mem_cons_self v
  exact hframe.grows

theorem grows_defineAll (s : ScopeId) (bs : List (String × Value)) : m.Grows (m.defineAll s bs) := by
  have hframe : Frame s (bs.map Prod.fst) m (m.defineAll s bs) :=
    .defineAll (fun _ hb => List.mem_map_of_mem hb)
  exact hframe.grows

theorem grows_innerScope (outer : ScopeId) : m.Grows (m.innerScope outer).2 := by
  have hframe : Frame outer [] m (m.innerScope outer).2 := .of_extends (m.extends_innerScope outer)
  exact hframe.grows

theorem Grows.stamp (m : Memory) : m.Grows m.stamp.2 := ⟨Nat.le_refl _, fun _ _ h => h⟩

theorem isBound_defineAll {s : ScopeId} (hs : s < m.scopes.size) {bs : List (String × Value)}
    {b : String × Value} (hb : b ∈ bs) : (m.defineAll s bs).isBound s b.1 = true := by
  induction bs generalizing m with
  | nil => contradiction
  | cons c bs ih =>
    have hs' : s < (m.define s c.1 c.2).scopes.size := by rwa [m.size_define]
    rcases List.mem_cons.mp hb with rfl | hb
    · refine (grows_defineAll s bs).bound s b.1 ?_
      rw [← isSome_get?, get?_define_self hs]
      rfl
    · exact ih hs' hb

theorem isBound_innerScope {outer : ScopeId} {name : String} (h : m.isBound outer name = true) :
    (m.innerScope outer).2.isBound m.scopes.size name = true := by
  obtain ⟨t, ht, hname⟩ := isBound_iff.mp h
  refine isBound_iff.mpr ⟨t, ?_, ?_⟩
  · rw [enclosing_innerScope_self]
    exact List.mem_cons_of_mem _ ht
  · rwa [bindings_innerScope]

end Memory

/-- The value has the type in the memory. All that the type of a function says of the scope in which
it was made is that the names known to its body are bound there. Scopes are shared and names are
bound again, so this rests on two things: no name is ever unbound, and a name keeps its type. -/
inductive Value.HasType (T : String → Ty) (m : Memory) : Value → Ty → Prop where
  | integer (n : Int64) : Value.HasType T m (.integer n) .integer
  | boolean (b : Bool) : Value.HasType T m (.boolean b) .boolean
  | string (s : String) : Value.HasType T m (.string s) .string
  | function {n : Nat} {parameters known : List String} {body : Block} {s : ScopeId} {τ : Ty}
      (hbound : ∀ name ∈ known, m.isBound s name = true)
      (hbody : StatementsHaveType T (parameters ++ known) body (some τ)) :
    Value.HasType T m (.function n parameters body s) (.function (parameters.map T) τ)

/-- What is bound to a name has the name's type. -/
def Memory.Typed (T : String → Ty) (m : Memory) : Prop :=
  ∀ s, ∀ b ∈ m.bindings s, b.2.HasType T m (T b.1)

/-- The memory is typed, and the known names are bound in the scope. -/
structure Memory.Provides (T : String → Ty) (scope : ScopeId) (known : List String) (m : Memory) :
    Prop where
  lt : scope < m.scopes.size
  typed : m.Typed T
  bound : ∀ name ∈ known, m.isBound scope name = true

theorem Value.HasType.grow {v : Value} {τ : Ty} (h : v.HasType T m τ) (hg : m.Grows m') :
    v.HasType T m' τ := by
  cases h with
  | integer n => exact .integer n
  | boolean b => exact .boolean b
  | string s => exact .string s
  | function hbound hbody =>
    exact .function (fun name hname => hg.bound _ name (hbound name hname)) hbody

theorem Value.HasType.isReturned {v : Value} {τ : Ty} (h : v.HasType T m τ) :
    v.isReturned = false := by
  cases h <;> rfl

namespace Memory

theorem Typed.get? (h : m.Typed T) {s : ScopeId} {name : String} {v : Value}
    (hv : m.get? s name = some v) : v.HasType T m (T name) := by
  obtain ⟨t, _, hget⟩ := List.exists_of_findSome?_eq_some hv
  exact h t _ (Bindings.mem_of_get? hget)

theorem Typed.define (h : m.Typed T) {s : ScopeId} {name : String} {v : Value}
    (hv : v.HasType T m (T name)) : (m.define s name v).Typed T := by
  intro t b hb
  refine Value.HasType.grow ?_ (grows_define s name v)
  rcases mem_bindings_define hb with rfl | hb
  · exact hv
  · exact h t b hb

theorem Typed.defineAll (h : m.Typed T) {s : ScopeId} {bs : List (String × Value)}
    (hbs : ∀ b ∈ bs, b.2.HasType T m (T b.1)) : (m.defineAll s bs).Typed T := by
  induction bs generalizing m with
  | nil => exact h
  | cons b bs ih =>
    obtain ⟨hb, hbs⟩ := List.forall_mem_cons.mp hbs
    exact ih (h.define hb) (fun c hc => (hbs c hc).grow (grows_define s b.1 b.2))

theorem Typed.innerScope (h : m.Typed T) (outer : ScopeId) : (m.innerScope outer).2.Typed T := by
  intro t b hb
  rw [bindings_innerScope] at hb
  exact (h t b hb).grow (grows_innerScope outer)

theorem Typed.stamp (h : m.Typed T) : m.stamp.2.Typed T :=
  fun s b hb => (h s b hb).grow (.stamp m)

namespace Provides

variable {scope : ScopeId} {known : List String}

theorem grow (h : m.Provides T scope known) (ht : m'.Typed T) (hg : m.Grows m') :
    m'.Provides T scope known :=
  ⟨Nat.lt_of_lt_of_le h.lt hg.size_le, ht, fun name hname => hg.bound _ name (h.bound name hname)⟩

theorem define (h : m.Provides T scope known) {name : String} {v : Value}
    (hv : v.HasType T m (T name)) : (m.define scope name v).Provides T scope (name :: known) := by
  refine ⟨by rw [m.size_define]; exact h.lt, h.typed.define hv, fun other hother => ?_⟩
  rcases List.mem_cons.mp hother with rfl | hother
  · rw [← isSome_get?, get?_define_self h.lt]
    rfl
  · exact (grows_define scope name v).bound scope other (h.bound other hother)

/-- The scope of a call provides the parameters, beside the names that the scope around it
provides. -/
theorem call (ht : m.Typed T) {outer : ScopeId}
    (hbound : ∀ name ∈ known, m.isBound outer name = true) {parameters : List String}
    {arguments : List Value}
    (ha : List.Forall₂ (fun σ v => v.HasType T m σ) (parameters.map T) arguments) :
    ((m.innerScope outer).2.defineAll m.scopes.size (parameters.zip arguments)).Provides T
      m.scopes.size (parameters ++ known) := by
  have hlt : m.scopes.size < (m.innerScope outer).2.scopes.size := lt_size_innerScope
  have hgrows : (m.innerScope outer).2.Grows _ :=
    grows_defineAll m.scopes.size (parameters.zip arguments)
  obtain ⟨hlength, hzip⟩ := List.forall₂_iff_zip.mp (List.forall₂_map_left_iff.mp ha)
  refine ⟨Nat.lt_of_lt_of_le hlt hgrows.size_le, ?_, fun name hname => ?_⟩
  · refine (ht.innerScope outer).defineAll ?_
    intro b hb
    exact (hzip hb).grow (grows_innerScope outer)
  · rcases List.mem_append.mp hname with hname | hname
    · have hmap : (parameters.zip arguments).map Prod.fst = parameters :=
        List.map_fst_zip (Nat.le_of_eq hlength)
      rw [← hmap] at hname
      obtain ⟨b, hb, rfl⟩ := List.mem_map.mp hname
      exact isBound_defineAll hlt hb
    · exact hgrows.bound _ name (isBound_innerScope (hbound name hname))

end Provides
end Memory
end Treewalk
