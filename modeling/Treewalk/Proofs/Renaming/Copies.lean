import Treewalk.Proofs.Renaming.Shift
import Treewalk.Proofs.Run.Alone
import Treewalk.Proofs.Run.Budget
import Treewalk.Proofs.Run.Frame
import Treewalk.Proofs.Run.Tidy
import Treewalk.Proofs.Values.Sameness

namespace Treewalk

open Evaluation

variable {φ ψ : Renaming} {m : Memory}

/-- All scopes of the first memory are in the second one, where they bind these names alike. They may
bind other names otherwise, and there may be more scopes. -/
structure Memory.AgreesOn (names : String → Prop) (m m' : Memory) : Prop where
  size_le : m.scopes.size ≤ m'.scopes.size
  enclosing : ∀ t < m.scopes.size, m'.enclosing t = m.enclosing t
  bindings : ∀ t < m.scopes.size, ∀ name, names name →
    (m'.bindings t).get? name = (m.bindings t).get? name

theorem Memory.Extends.agreesOn {m m' : Memory} (h : m.Extends m') (names : String → Prop) :
    m.AgreesOn names m' :=
  ⟨h.size_le, h.enclosing, fun t ht name _ => by rw [h.bindings t ht]⟩

/-- The renaming takes nothing to where it is not. -/
theorem Value.rename_eq_self (hnames : φ.KeepsNames) (hscope : ∀ s, φ.scope s = s)
    (hstamp : ∀ n, φ.stamp n = n) (v : Value) : v.rename φ = v := by
  induction v using Value.induct with
  | simple v hv => exact rename_of_isSimple hv
  | returned v ih => rw [rename, ih]
  | function n parameters body s =>
    rw [rename, renameStatements_eq_self hnames, hscope, hstamp, funext hnames, List.map_id']
  | array n vs ih =>
    rw [rename, renameElements_eq, List.map_congr_left ih, List.map_id', hstamp]
  | hash n entries ih =>
    have hentry : ∀ e ∈ entries, (e.1, e.2.rename φ) = e :=
      fun e he => Prod.ext rfl (ih e he)
    rw [rename, renameEntries_eq, List.map_congr_left hentry, List.map_id', hstamp]

theorem Value.rename_identity (v : Value) : v.rename (.shift 0 0) = v :=
  v.rename_eq_self Renaming.keepsNames_shift (fun _ => rfl) (fun _ => rfl)

/-- For the value it does not matter what becomes of scopes and stamps that do not exist yet. -/
theorem Value.rename_congr (hφ : φ.KeepsNames) (hψ : ψ.KeepsNames)
    (hscope : ∀ s < m.scopes.size, φ.scope s = ψ.scope s)
    (hstamp : ∀ n < m.nextStamp, φ.stamp n = ψ.stamp n) (v : Value) (hv : v.Within m) :
    v.rename φ = v.rename ψ := by
  induction v using Value.induct with
  | simple v hsimple => rw [rename_of_isSimple hsimple, rename_of_isSimple hsimple]
  | returned v ih => rw [rename, rename, ih (within_returned.mp hv)]
  | function n parameters body s =>
    obtain ⟨hn, hs⟩ := within_function.mp hv
    rw [rename, rename, renameStatements_eq_self hφ, renameStatements_eq_self hψ, hstamp n hn,
      hscope s hs, funext hφ, funext hψ]
  | array n vs ih =>
    obtain ⟨hn, hvs⟩ := within_array.mp hv
    rw [rename, rename, renameElements_eq, renameElements_eq, hstamp n hn,
      List.map_congr_left (fun w hw => ih w hw (hvs w hw))]
  | hash n entries ih =>
    obtain ⟨hn, hentries⟩ := within_hash.mp hv
    have hentry : ∀ e ∈ entries, (e.1, e.2.rename φ) = (e.1, e.2.rename ψ) :=
      fun e he => Prod.ext rfl (ih e he (hentries e he))
    rw [rename, rename, renameEntries_eq, renameEntries_eq, hstamp n hn,
      List.map_congr_left hentry]

/-- What becomes of scopes and stamps that exist is enough. -/
theorem Value.rename_eq_of_within (hnames : φ.KeepsNames) (hscope : ∀ s < m.scopes.size, φ.scope s = s)
    (hstamp : ∀ n < m.nextStamp, φ.stamp n = n) {v : Value} (hv : v.Within m) : v.rename φ = v := by
  rw [v.rename_congr hnames Renaming.keepsNames_shift (ψ := .shift 0 0) hscope hstamp hv,
    v.rename_identity]

theorem Event.seen_rename (h : φ.KeepsNames) (e : Event) : (e.rename φ).seen = e.seen := by
  cases e with
  | printed v => exact congrArg (fun text => printed (.string text)) (v.inspect_rename h)
  | _ => rfl

theorem Event.deeper_rename (k : Nat) (e : Event) :
    (e.rename φ).deeper k = (e.deeper k).rename φ := by
  cases e <;> rfl

namespace Renaming

/-- The same below `s`, and from there on the numbers from `s'` on. -/
def resume (f : Nat → Nat) (s s' n : Nat) : Nat := if n < s then f n else s' + (n - s)

section
variable {f : Nat → Nat} {s s' n : Nat}

theorem resume_of_lt (h : n < s) : resume f s s' n = f n := if_pos h

theorem resume_add (i : Nat) : resume f s s' (s + i) = s' + i := by
  rw [resume, if_neg (Nat.not_lt_of_le (Nat.le_add_right s i)), Nat.add_sub_cancel_left]

theorem resume_injective (hf : Function.Injective f) (h : ∀ n < s, f n < s') :
    Function.Injective (resume f s s') := by
  intro n k hnk
  unfold resume at hnk
  by_cases hn : n < s <;> by_cases hk : k < s <;> simp only [hn, hk, if_true, if_false] at hnk
  · exact hf hnk
  · have := h n hn
    omega
  · have := h k hk
    omega
  · omega

end

/-- Scopes and stamps that are made from now on get other numbers. -/
def onward (φ : Renaming) {s s' n n' : Nat} (hscope : ∀ t < s, φ.scope t < s')
    (hstamp : ∀ k < n, φ.stamp k < n') : Renaming :=
  { φ with
    scope := resume φ.scope s s'
    stamp := resume φ.stamp n n'
    scope_injective := resume_injective φ.scope_injective hscope
    stamp_injective := resume_injective φ.stamp_injective hstamp }

theorem Image.stamp_lt {m m' : Memory} (h : φ.Image m m') {k : Nat} (hk : k < m.nextStamp) :
    φ.stamp k < m'.nextStamp := by
  refine Nat.lt_of_not_le (fun hle => ?_)
  obtain ⟨i, hi⟩ := Nat.exists_eq_add_of_le hle
  obtain rfl := φ.stamp_injective (hi.trans (h.stamp i).symm)
  exact Nat.not_lt_of_le (Nat.le_add_right _ i) hk

section
variable {m' m'' μ : Memory} {hscope : ∀ t < m'.scopes.size, φ.scope t < μ.scopes.size}
  {hstamp : ∀ k < m'.nextStamp, φ.stamp k < μ.nextStamp}

theorem size_le_onward {t : ScopeId} (h : m'.scopes.size ≤ t) :
    μ.scopes.size ≤ (φ.onward hscope hstamp).scope t := by
  obtain ⟨i, rfl⟩ := Nat.exists_eq_add_of_le h
  rw [show (φ.onward hscope hstamp).scope _ = _ from resume_add i]
  exact Nat.le_add_right _ i

/-- A value that exists already is renamed as before. -/
theorem rename_onward (h : φ.KeepsNames) (v : Value) (hv : v.Within m') :
    v.rename (φ.onward hscope hstamp) = v.rename φ :=
  v.rename_congr (φ := φ.onward hscope hstamp) h h (fun _ ht => resume_of_lt ht)
    (fun _ hk => resume_of_lt hk) hv

/-- The image of the memory is still in a memory that goes on from it, where the known names are
concerned. -/
theorem Image.onward (hnames : φ.KeepsNames) (htidy : m'.Tidy) (h : φ.Image m' m'')
    (hagree : m''.AgreesOn φ.known μ) : (φ.onward hscope hstamp).Image m' μ := by
  have hold : ∀ t < m'.scopes.size, (φ.onward hscope hstamp).scope t = φ.scope t :=
    fun t ht => resume_of_lt ht
  refine ⟨h.fits, resume_add, resume_add, ?_, ?_, ?_⟩
  · intro s hkept
    by_cases hlt : s < m'.scopes.size
    · rw [hold s hlt, hagree.enclosing _ (h.lt_iff.mpr hlt), htidy.map_enclosing_congr hold,
        h.enclosing s hkept]
    · have hle := Nat.le_of_not_lt hlt
      rw [Memory.enclosing_of_le hle, Memory.enclosing_of_le (size_le_onward hle)]
      rfl
  · intro s hkept name hname
    have hsame : (φ.onward hscope hstamp).name name = name := hnames name
    rw [hsame]
    by_cases hlt : s < m'.scopes.size
    · have hbound := h.bindings s hkept name hname
      rw [hnames name] at hbound
      rw [hold s hlt, hagree.bindings _ (h.lt_iff.mpr hlt) name hname, hbound,
        htidy.map_get?_congr (rename_onward hnames)]
    · have hle := Nat.le_of_not_lt hlt
      rw [Memory.bindings_of_le hle, Memory.bindings_of_le (size_le_onward hle)]
      rfl
  · intro s _ name hname
    exact absurd (hnames name) (hname name)

end

/-- What leaves everything where it is turns a memory into itself. -/
theorem image_self (hnames : φ.KeepsNames) (hscope : ∀ s, φ.scope s = s)
    (hstamp : ∀ n, φ.stamp n = n) (hfits : m.Fits φ.forgotten φ.Says) : φ.Image m m := by
  refine ⟨hfits, fun i => hscope _, fun i => hstamp _, ?_, ?_, ?_⟩
  · intro s _
    rw [hscope, funext hscope, List.map_id']
  · intro s _ name _
    rw [hscope, hnames, funext (Value.rename_eq_self hnames hscope hstamp), Option.map_id']
  · intro s _ name hname
    exact absurd (hnames name) (hname name)

/-- The memory `m''` holds a copy of all that is in `m'`. What was in `m` already is where it
was. -/
structure Copies (φ : Renaming) (m m' m'' : Memory) : Prop where
  total : φ.Total
  names : φ.KeepsNames
  image : φ.Image m' m''
  tidy : m'.Tidy
  later : m.Later m'
  scope : ∀ s < m.scopes.size, φ.scope s = s
  stamp : ∀ n < m.nextStamp, φ.stamp n = n

theorem copies_self (h : m.Tidy) : (shift 0 0).Copies m m m :=
  ⟨total_shift, keepsNames_shift,
    image_self keepsNames_shift (fun _ => rfl) (fun _ => rfl) (memoryFits_shift m), h, .refl m,
    fun _ _ => rfl, fun _ _ => rfl⟩

namespace Copies

variable {m' m'' : Memory} (h : φ.Copies m m' m'')
include h

theorem rename_eq {v : Value} (hv : v.Within m) : v.rename φ = v :=
  Value.rename_eq_of_within h.names h.scope h.stamp hv

/-- As more is made in the memory with the copy, what is copied next gets other numbers. -/
theorem onward {μ : Memory} (hext : m''.Extends μ) (hstamp : m''.nextStamp ≤ μ.nextStamp) :
    ∃ ψ : Renaming, ψ.Copies m m' μ ∧ ∀ v : Value, v.Within m' → v.rename ψ = v.rename φ := by
  have hs : ∀ t < m'.scopes.size, φ.scope t < μ.scopes.size :=
    fun t ht => Nat.lt_of_lt_of_le (h.image.lt_iff.mpr ht) hext.size_le
  have hn : ∀ k < m'.nextStamp, φ.stamp k < μ.nextStamp :=
    fun k hk => Nat.lt_of_lt_of_le (h.image.stamp_lt hk) hstamp
  refine ⟨φ.onward hs hn, ?_, rename_onward h.names⟩
  refine ⟨⟨h.total.known, h.total.kept⟩, h.names, h.image.onward h.names h.tidy (hext.agreesOn _),
    h.tidy, h.later, ?_, ?_⟩
  · intro s hlt
    exact (resume_of_lt (Nat.lt_of_lt_of_le hlt h.later.size_le)).trans (h.scope s hlt)
  · intro k hlt
    exact (resume_of_lt (Nat.lt_of_lt_of_le hlt h.later.stamp_le)).trans (h.stamp k hlt)

end Copies

end Renaming

section
variable {callee v : Value} {arguments : List Value} {n k : Nat} {m' : Memory} {M r : Machine}

/-- A call that ends by itself ends so anywhere, and within any larger budget. -/
theorem Value.call_alone (hle : n ≤ k) {outcome : Outcome Value}
    (h : callee.call n arguments (.ofMemory M.memory) = (outcome, r)) (hne : outcome ≠ .exhausted) :
    callee.call k arguments M = (outcome, M.followedBy r) := by
  have hbuilt : Built (callee.call k arguments) := .callValue (.evaluate k) callee arguments
  have hmore : callee.call k arguments (.ofMemory M.memory) = (outcome, r) := by
    rw [call_of_le hle (by rwa [h]), h]
  rw [hbuilt.alone M, hmore]

namespace Renaming

theorem Likeness.seen_followedBy (hφ : φ.KeepsNames) {q : Machine} (h : φ.Likeness r q) :
    (M.followedBy q).seen = M.seen ++ (r.events.map (Event.deeper M.callDepth)).map Event.seen := by
  have hseen : ∀ e : Event, ((e.rename φ).deeper M.callDepth).seen = (e.deeper M.callDepth).seen := by
    intro e
    rw [e.deeper_rename, Event.seen_rename hφ]
  rw [Machine.seen_followedBy, h.events]
  simp [hseen]

namespace Copies

variable (h : φ.Copies m m' M.memory)
include h

/-- With the copies of callee and arguments, a call ends as it does with themselves. -/
theorem call_ends :
    φ.Ends φ.Match (callee.call n arguments (.ofMemory m'))
      ((callee.rename φ).call n (arguments.map (·.rename φ)) (.ofMemory M.memory)) :=
  tracks_callValue (φ.tracksEval_evaluate n) ⟨rfl, h.total.fits callee⟩
    ⟨rfl, fun v _ => h.total.fits v⟩ _ _ ⟨h.image, rfl, rfl⟩

/-- Where a call succeeds, the call with the copies comes to the copy of the value, and all that
there is then is copied. -/
theorem call_done (hle : n ≤ k) (hc : callee.Within m') (ha : ∀ v ∈ arguments, v.Within m')
    (hr : callee.call n arguments (.ofMemory m') = (.done v, r)) :
    ∃ M', (callee.rename φ).call k (arguments.map (·.rename φ)) M = (.done (v.rename φ), M') ∧
      φ.Copies m r.memory M'.memory ∧ m'.Later r.memory ∧ v.Within r.memory ∧
      M'.seen = M.seen ++ (r.events.map (Event.deeper M.callDepth)).map Event.seen := by
  have htidied := tidied_call n (m := .ofMemory m') h.tidy hc ha
  have hends : φ.Ends φ.Match (callee.call n arguments (.ofMemory m'))
      ((callee.rename φ).call n (arguments.map (·.rename φ)) (.ofMemory M.memory)) := h.call_ends
  obtain ⟨⟨htidy, hlater⟩, _, hresult⟩ := htidied
  cases hq : (callee.rename φ).call n (arguments.map (·.rename φ)) (.ofMemory M.memory) with
  | mk outcome q =>
    rw [hr] at hends htidy hlater hresult
    rw [hq] at hends
    cases hends with
    | done hv hm =>
      obtain ⟨rfl, _⟩ := hv
      refine ⟨M.followedBy q, Value.call_alone hle hq nofun, ?_, hlater, hresult v rfl,
        hm.seen_followedBy h.names⟩
      exact ⟨h.total, h.names, hm.memory, htidy, h.later.trans hlater, h.scope, h.stamp⟩

/-- Where a call fails, the call with the copies fails in the same way. -/
theorem call_failed (hle : n ≤ k) {fault : Fault}
    (hr : callee.call n arguments (.ofMemory m') = (.failed fault, r)) :
    ∃ M', (callee.rename φ).call k (arguments.map (·.rename φ)) M = (.failed fault, M') ∧
      M'.seen = M.seen ++ (r.events.map (Event.deeper M.callDepth)).map Event.seen := by
  have hends : φ.Ends φ.Match (callee.call n arguments (.ofMemory m'))
      ((callee.rename φ).call n (arguments.map (·.rename φ)) (.ofMemory M.memory)) := h.call_ends
  cases hq : (callee.rename φ).call n (arguments.map (·.rename φ)) (.ofMemory M.memory) with
  | mk outcome q =>
    rw [hr, hq] at hends
    cases hends with
    | failed _ hm =>
      rw [fault.rename_eq_self h.names] at hq
      exact ⟨M.followedBy q, Value.call_alone hle hq nofun, hm.seen_followedBy h.names⟩

end Copies

end Renaming

end

end Treewalk
