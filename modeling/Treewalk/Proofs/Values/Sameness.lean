import Mathlib.Data.List.Forall2
import Mathlib.Data.List.Perm.Subperm
import Treewalk.Proofs.Run.Hashes
import Treewalk.Proofs.Values.Identity

namespace Treewalk

namespace Entries

variable {α : Type}

/-- No two entries match. -/
def Distinct (entries : Entries α) : Prop := (entries.map (fun e => e.1.hashKey)).Nodup

variable {entries : Entries α} {wanted : HashKey} {e : Key × α}

theorem mem_of_find? (h : find? wanted entries = some e) :
    e ∈ entries ∧ e.1.hashKey = wanted := by
  induction entries with
  | nil => contradiction
  | cons first rest ih =>
    obtain ⟨k, a⟩ := first
    rw [find?] at h
    split at h
    · next hkey =>
      obtain rfl := Option.some.inj h
      exact ⟨List.mem_cons_self, hkey⟩
    · exact (ih h).imp_left (List.mem_cons_of_mem _)

theorem Distinct.find? (h : Distinct entries) (he : e ∈ entries) :
    find? e.1.hashKey entries = some e := by
  induction entries with
  | nil => contradiction
  | cons first rest ih =>
    obtain ⟨k, a⟩ := first
    obtain ⟨hnot, hrest⟩ := List.nodup_cons.mp h
    rcases List.mem_cons.mp he with rfl | he
    · rw [Entries.find?, if_pos rfl]
    · have hne : k.hashKey ≠ e.1.hashKey :=
        fun heq => hnot (List.mem_map.mpr ⟨e, he, heq.symm⟩)
      rw [Entries.find?, if_neg hne, ih hrest he]

/-- No matter in which order the entries stand. -/
theorem Distinct.perm (h : Distinct entries) {others : Entries α} (hperm : entries.Perm others) :
    Distinct others :=
  (hperm.map _).nodup_iff.mp h

theorem Distinct.congr (h : Distinct entries) {β : Type} {others : Entries β}
    (hkeys : entries.map Prod.fst = others.map Prod.fst) : Distinct others := by
  have hhash : others.map (fun e => e.1.hashKey) = entries.map (fun e => e.1.hashKey) := by
    have hmap := congrArg (List.map Key.hashKey) hkeys
    rw [List.map_map, List.map_map] at hmap
    exact hmap.symm
  rw [Distinct, hhash]
  exact h

theorem fst_eq_of_mem_zip {β : Type} {others : Entries β}
    (hkeys : entries.map Prod.fst = others.map Prod.fst) {f : Key × β}
    (h : (e, f) ∈ entries.zip others) : e.1 = f.1 := by
  obtain ⟨i, hi, heq⟩ := List.mem_iff_getElem.mp h
  have hi' : i < entries.length ∧ i < others.length := by
    rwa [List.length_zip, Nat.lt_min] at hi
  obtain ⟨rfl, rfl⟩ := Prod.mk.inj (List.getElem_zip.symm.trans heq)
  simpa [hi'.1, hi'.2] using congrArg (fun ks => ks[i]?) hkeys

end Entries

theorem exists_mem_zip {α β : Type} {vs : List α} {ws : List β} (h : vs.length ≤ ws.length) {v : α}
    (hv : v ∈ vs) : ∃ w, (v, w) ∈ vs.zip ws := by
  rw [← List.map_fst_zip h] at hv
  obtain ⟨⟨v, w⟩, hmem, rfl⟩ := List.mem_map.mp hv
  exact ⟨w, hmem⟩

attribute [local grind =] Value.same sameElements entriesWithin

theorem sameElements_iff {vs ws : List Value} :
    sameElements vs ws = true ↔ List.Forall₂ (fun v w => v.same w = true) vs ws := by
  induction vs generalizing ws with
  | nil =>
    cases ws with
    | nil => simp [sameElements]
    | cons w ws => exact iff_of_false Bool.false_ne_true (fun h => by cases h)
  | cons v vs ih =>
    cases ws with
    | nil => exact iff_of_false Bool.false_ne_true (fun h => by cases h)
    | cons w ws => rw [sameElements, Bool.and_eq_true, ih, List.forall₂_cons]

/-- What swaps for the elements of one list swaps for the lists. -/
theorem forall₂_symm {α : Type} {R : α → α → Prop} {vs ws : List α} (h : List.Forall₂ R vs ws)
    (hsymm : ∀ v ∈ vs, ∀ w, R v w → R w v) : List.Forall₂ R ws vs := by
  induction h with
  | nil => exact .nil
  | cons hvw _ ih =>
    obtain ⟨hv, hvs⟩ := List.forall_mem_cons.mp hsymm
    exact .cons (hv _ hvw) (ih hvs)

theorem forall₂_trans {α : Type} {R : α → α → Prop} {vs ws us : List α}
    (h : List.Forall₂ R vs ws) (h' : List.Forall₂ R ws us)
    (htrans : ∀ v ∈ vs, ∀ w u, R v w → R w u → R v u) : List.Forall₂ R vs us := by
  induction h generalizing us with
  | nil => exact h'
  | cons hvw _ ih =>
    obtain ⟨hv, hvs⟩ := List.forall_mem_cons.mp htrans
    cases h' with
    | cons hwu hrest => exact .cons (hv _ _ hvw hwu) (ih hrest hvs)

theorem entriesWithin_iff {entries others : Entries Value} :
    entriesWithin entries others = true ↔
      ∀ e ∈ entries, ∃ w, Entries.find? e.1.hashKey others = some (e.1, w) ∧ e.2.same w = true := by
  induction entries with
  | nil => simp [entriesWithin]
  | cons e rest ih =>
    obtain ⟨k, v⟩ := e
    rw [entriesWithin, Bool.and_eq_true, ih, List.forall_mem_cons]
    refine and_congr_left' ?_
    cases hfind : Entries.find? k.hashKey others with
    | none => simp
    | some f =>
      obtain ⟨l, w⟩ := f
      simp [and_assoc, eq_comm (a := l)]

namespace Value

/-- Whatever holds of a value as soon as it holds of those it is made of holds of all values. -/
@[elab_as_elim]
theorem induct {P : Value → Prop} (simple : ∀ v : Value, v.isSimple = true → P v)
    (returned : ∀ v, P v → P (.returned v))
    (function : ∀ n parameters body scope, P (.function n parameters body scope))
    (array : ∀ n vs, (∀ v ∈ vs, P v) → P (.array n vs))
    (hash : ∀ n entries, (∀ e ∈ entries, P e.2) → P (.hash n entries)) : ∀ v, P v
  | .returned v => returned v (induct simple returned function array hash v)
  | .function n parameters body scope => function n parameters body scope
  | .array n vs => array n vs (fun v _ => induct simple returned function array hash v)
  | .hash n entries =>
    hash n entries (fun e _ => induct simple returned function array hash e.2)
  | .integer n => simple _ rfl
  | .boolean b => simple _ rfl
  | .string s => simple _ rfl
  | .null => simple _ rfl
  | .error message => simple _ rfl
  | .builtin b => simple _ rfl
termination_by v => sizeOf v
decreasing_by
  · simp
  · next hv =>
    have hlt := List.sizeOf_lt_of_mem hv
    simp only [Value.array.sizeOf_spec]
    omega
  · next he =>
    have hlt := List.sizeOf_lt_of_mem he
    obtain ⟨k, v⟩ := e
    simp only [Value.hash.sizeOf_spec, Prod.mk.sizeOf_spec] at hlt ⊢
    omega

/-- If the value is a hash, no two of its entries match. -/
def Keyed : Value → Prop
  | hash _ entries => Entries.Distinct entries
  | _ => True

/-- The second value is the first one with the entries of hashes in another order, at any depth.
Other stamps of arrays and hashes make no difference. -/
inductive Rearranged : Value → Value → Prop where
  | refl (v : Value) : Rearranged v v
  | returned {v w : Value} (h : Rearranged v w) : Rearranged (.returned v) (.returned w)
  | array {m n : Nat} {vs ws : List Value} (hlength : vs.length = ws.length)
    (h : ∀ p ∈ vs.zip ws, Rearranged p.1 p.2) : Rearranged (.array m vs) (.array n ws)
  | hash {m n : Nat} {entries others shuffled : Entries Value}
    (hkeys : entries.map Prod.fst = others.map Prod.fst)
    (h : ∀ p ∈ entries.zip others, Rearranged p.1.2 p.2.2) (hperm : others.Perm shuffled) :
    Rearranged (.hash m entries) (.hash n shuffled)

/-- Functions, arrays and hashes in the value are those that are recorded under their stamps. -/
def RecordedIn (made : Nat → Value) (v : Value) : Prop :=
  v.Throughout (fun w => ∀ n, w.stamp? = some n → w = made n)

end Value

/-- A value whose hashes are maps, and so are all hashes that it holds. -/
def KeyedValue : Type := { v : Value // v.Throughout Value.Keyed }

namespace Value

variable {a b c : Value}

theorem throughout_iff {Q : Value → Prop} : a.Throughout Q ↔ a.Fits (fun _ => False) Q :=
  ⟨fun h => ⟨h, fun _ _ h => h⟩, And.left⟩

theorem keyed_of_isSimple (h : a.isSimple = true) : a.Keyed := by
  cases a with
  | hash _ _ => contradiction
  | _ => trivial

theorem keyed_of_throughout {n : Nat} {entries : Entries Value}
    (h : (hash n entries).Throughout Keyed) : Entries.Distinct entries :=
  h _ .itself

theorem throughout_returned {Q : Value → Prop} (h : (returned a).Throughout Q) : a.Throughout Q :=
  fun w hw => h w (.returned hw)

theorem throughout_element {Q : Value → Prop} {n : Nat} {vs : List Value}
    (h : (array n vs).Throughout Q) {v : Value} (hv : v ∈ vs) : v.Throughout Q :=
  fun w hw => h w (.element hv hw)

theorem throughout_entry {Q : Value → Prop} {n : Nat} {entries : Entries Value}
    (h : (hash n entries).Throughout Q) {e : Key × Value} (he : e ∈ entries) : e.2.Throughout Q :=
  fun w hw => h w (.entry he hw)

theorem same_array {m n : Nat} {vs ws : List Value} :
    (array m vs).same (array n ws) = true ↔ List.Forall₂ (fun v w => v.same w = true) vs ws := by
  rw [same, sameElements_iff]

theorem same_hash {m n : Nat} {entries others : Entries Value} :
    (hash m entries).same (hash n others) = true ↔ entries.length = others.length ∧
      ∀ e ∈ entries, ∃ w, Entries.find? e.1.hashKey others = some (e.1, w) ∧
        e.2.same w = true := by
  rw [same, Bool.and_eq_true, beq_iff_eq, entriesWithin_iff]

theorem same_self (h : a.Throughout Keyed) : a.same a = true := by
  induction a using induct with
  | simple v hv => cases v <;> first | contradiction | grind
  | returned v ih => exact ih (throughout_returned h)
  | function => grind
  | array n vs ih =>
    rw [same_array, List.forall₂_same]
    exact fun v hv => ih v hv (throughout_element h hv)
  | hash n entries ih =>
    refine same_hash.mpr ⟨rfl, fun e he => ⟨e.2, ?_, ih e he (throughout_entry h he)⟩⟩
    exact (keyed_of_throughout h).find? he

/-- Entries that are found in as many others leave none of these over. -/
theorem exists_match {entries others : Entries Value} (hdistinct : Entries.Distinct entries)
    (hlength : entries.length = others.length)
    (h : ∀ e ∈ entries, ∃ w, Entries.find? e.1.hashKey others = some (e.1, w) ∧ e.2.same w = true)
    {f : Key × Value} (hf : f ∈ others) :
    ∃ v, (f.1, v) ∈ entries ∧ v.same f.2 = true := by
  have hsub : entries.map (fun e => e.1.hashKey) ⊆ others.map (fun e => e.1.hashKey) := by
    intro wanted hwanted
    obtain ⟨e, he, rfl⟩ := List.mem_map.mp hwanted
    obtain ⟨w, hfind, _⟩ := h e he
    exact List.mem_map.mpr ⟨_, (Entries.mem_of_find? hfind).1, rfl⟩
  -- The keys do not repeat and there are as many of the others, so these are all of the others.
  have hperm : (entries.map (fun e => e.1.hashKey)).Perm (others.map (fun e => e.1.hashKey)) :=
    (List.subperm_of_subset hdistinct hsub).perm_of_length_le (by simp [hlength])
  have hothers : Entries.Distinct others := hperm.nodup_iff.mp hdistinct
  obtain ⟨e, he, hkey⟩ := List.mem_map.mp (hperm.mem_iff.mpr (List.mem_map.mpr ⟨f, hf, rfl⟩))
  obtain ⟨w, hfind, hsame⟩ := h e he
  rw [hkey, hothers.find? hf] at hfind
  obtain rfl := Option.some.inj hfind
  exact ⟨e.2, he, hsame⟩

theorem same_symm (ha : a.Throughout Keyed) (h : a.same b = true) : b.same a = true := by
  induction a using induct generalizing b with
  | simple v hv =>
    cases v <;> first | contradiction | skip
    all_goals
      cases b <;> first | contradiction | skip
    all_goals
      simp only [same, beq_iff_eq] at h ⊢
    all_goals
      exact h.symm
  | returned v ih =>
    cases b <;> first | contradiction | skip
    exact ih (throughout_returned ha) h
  | function n parameters body scope =>
    cases b <;> first | contradiction | skip
    simp only [same, beq_iff_eq] at h ⊢
    exact h.symm
  | array n vs ih =>
    cases b <;> first | contradiction | skip
    rw [same_array] at h ⊢
    exact forall₂_symm h (fun v hv w => ih v hv (throughout_element ha hv))
  | hash n entries ih =>
    cases b <;> first | contradiction | skip
    next m others =>
    obtain ⟨hlength, hfound⟩ := same_hash.mp h
    have hdistinct := keyed_of_throughout ha
    refine same_hash.mpr ⟨hlength.symm, fun f hf => ?_⟩
    obtain ⟨v, hv, hsame⟩ := exists_match hdistinct hlength hfound hf
    exact ⟨v, hdistinct.find? hv, ih _ hv (throughout_entry ha hv) hsame⟩

theorem same_trans (hab : a.same b = true) (hbc : b.same c = true) : a.same c = true := by
  induction a using induct generalizing b c with
  | simple v hv =>
    cases v <;> first | contradiction | skip
    all_goals
      cases b <;> first | contradiction | skip
    all_goals
      cases c <;> first | contradiction | skip
    all_goals
      simp only [same, beq_iff_eq] at hab hbc ⊢
    all_goals
      exact hab.trans hbc
  | returned v ih =>
    cases b <;> first | contradiction | skip
    cases c <;> first | contradiction | skip
    exact ih hab hbc
  | function n parameters body scope =>
    cases b <;> first | contradiction | skip
    cases c <;> first | contradiction | skip
    simp only [same, beq_iff_eq] at hab hbc ⊢
    exact hab.trans hbc
  | array n vs ih =>
    cases b <;> first | contradiction | skip
    cases c <;> first | contradiction | skip
    rw [same_array] at hab hbc ⊢
    exact forall₂_trans hab hbc (fun v hv w u => ih v hv)
  | hash n entries ih =>
    cases b <;> first | contradiction | skip
    cases c <;> first | contradiction | skip
    obtain ⟨hab, hwithin⟩ := same_hash.mp hab
    obtain ⟨hbc, hwithin'⟩ := same_hash.mp hbc
    refine same_hash.mpr ⟨hab.trans hbc, fun e he => ?_⟩
    obtain ⟨v, hv, hsame⟩ := hwithin e he
    obtain ⟨w, hw, hsame'⟩ := hwithin' _ (Entries.mem_of_find? hv).1
    exact ⟨w, hw, ih e he hsame hsame'⟩

theorem same_of_rearranged (ha : a.Throughout Keyed) (h : a.Rearranged b) : a.same b = true := by
  induction h with
  | refl v => exact same_self ha
  | returned _ ih => exact ih (throughout_returned ha)
  | @array m n vs ws hlength _ ih =>
    rw [same_array, List.forall₂_iff_zip]
    exact ⟨hlength, fun hp => ih _ hp (throughout_element ha (List.of_mem_zip hp).1)⟩
  | @hash m n entries others shuffled hkeys _ hperm ih =>
    have hdistinct := ((keyed_of_throughout ha).congr hkeys).perm hperm
    have hlength : entries.length = others.length := by
      simpa using congrArg List.length hkeys
    refine same_hash.mpr ⟨hlength.trans hperm.length_eq, fun e he => ?_⟩
    obtain ⟨f, hf⟩ := exists_mem_zip (Nat.le_of_eq hlength) he
    have hmem : f ∈ shuffled := hperm.mem_iff.mp (List.of_mem_zip hf).2
    have hkey : e.1 = f.1 := Entries.fst_eq_of_mem_zip hkeys hf
    refine ⟨f.2, ?_, ih _ hf (throughout_entry ha he)⟩
    rw [hkey]
    exact hdistinct.find? hmem

theorem hashKey?_eq_of_same (h : a.same b = true) : a.hashKey? = b.hashKey? := by
  cases a <;> cases b <;> first | contradiction | rfl | skip
  all_goals
    simp only [same, beq_iff_eq] at h
  all_goals
    rw [h]

/-- What has one stamp is one value. -/
theorem same_of_identical {made : Nat → Value} (ha : a.Throughout Keyed)
    (hrecorded : a.RecordedIn made) (hrecorded' : b.RecordedIn made)
    (h : a.identical b = true) : a.same b = true := by
  cases hstamp : a.stamp? with
  | some n =>
    have hb : b.stamp? = some n := (stamp?_eq_of_identical h).symm.trans hstamp
    obtain rfl : a = b := (hrecorded a .itself n hstamp).trans (hrecorded' b .itself n hb).symm
    exact same_self ha
  | none =>
    cases a <;> cases b <;> first | contradiction | exact h

end Value

/-- On values whose hashes are maps, equality of content is an equivalence. Entries of hashes may
stand in any order, at any depth. Values that programs see as equal have the same content, if
functions, arrays and hashes are told apart by their stamps; and values of the same content are the
same keys, or are none. -/
theorem same_equivalence :
    Equivalence (fun a b : KeyedValue => a.1.same b.1 = true) ∧
    (∀ (a : KeyedValue) (b : Value), a.1.Rearranged b → a.1.same b = true) ∧
    (∀ (a b : KeyedValue) (made : Nat → Value), a.1.RecordedIn made → b.1.RecordedIn made →
      a.1.identical b.1 = true → a.1.same b.1 = true) ∧
    ∀ a b : Value, a.same b = true → a.hashKey? = b.hashKey? :=
  ⟨⟨fun a => Value.same_self a.2, fun {a _} h => Value.same_symm a.2 h, Value.same_trans⟩,
    fun a _ h => Value.same_of_rearranged a.2 h,
    fun a _ _ ha hb h => Value.same_of_identical a.2 ha hb h,
    fun _ _ h => Value.hashKey?_eq_of_same h⟩

/-- A hash in an array, with its entries in one order or the other. -/
def nestedHash (entries : Entries Value) : Value := .array 0 [.hash 1 entries, .null]

theorem throughout_nestedHash {Q : Value → Prop} {entries : Entries Value}
    (harray : Q (nestedHash entries)) (hhash : Q (.hash 1 entries))
    (hsimple : ∀ v : Value, v.isSimple = true → Q v)
    (hentries : ∀ e ∈ entries, e.2.isSimple = true) : (nestedHash entries).Throughout Q := by
  have hfits : ∀ v : Value, v.isSimple = true → v.Fits (fun _ => False) Q :=
    fun v hv => Value.fits_of_isSimple hv (hsimple v hv)
  refine Value.throughout_iff.mpr ((Value.fits_array harray).mpr (fun v hv => ?_))
  rcases List.mem_cons.mp hv with rfl | hv
  · exact (Value.fits_hash hhash).mpr (fun e he => hfits _ (hentries e he))
  · obtain rfl := List.mem_singleton.mp hv
    exact hfits _ rfl

theorem same_equivalence_nested :
    let a : Entries Value := [(.integer 1, .null), (.string "k", .builtin .len)]
    let b : Entries Value := [(.string "k", .builtin .len), (.integer 1, .null)]
    (nestedHash a).Throughout Value.Keyed ∧ (nestedHash a).Rearranged (nestedHash b) ∧
      (nestedHash a).same (nestedHash b) = true ∧ (nestedHash b).same (nestedHash a) = true ∧
      (nestedHash a).identical (nestedHash a) = true ∧
      (nestedHash a).same (nestedHash a) = true := by
  intro a b
  have ha : (nestedHash a).Throughout Value.Keyed :=
    throughout_nestedHash trivial (by unfold Value.Keyed Entries.Distinct; decide)
      (fun _ => Value.keyed_of_isSimple) (by decide)
  have hb : (nestedHash b).Throughout Value.Keyed :=
    throughout_nestedHash trivial (by unfold Value.Keyed Entries.Distinct; decide)
      (fun _ => Value.keyed_of_isSimple) (by decide)
  have hinner : (Value.hash 1 a).Rearranged (.hash 1 b) :=
    @Value.Rearranged.hash 1 1 a a b rfl
      (List.forall_mem_cons.mpr ⟨.refl _, List.forall_mem_singleton.mpr (.refl _)⟩) (.swap _ _ _)
  have hrearranged : (nestedHash a).Rearranged (nestedHash b) :=
    .array rfl (List.forall_mem_cons.mpr ⟨hinner, List.forall_mem_singleton.mpr (.refl _)⟩)
  have hsame := same_equivalence.2.1 ⟨_, ha⟩ _ hrearranged
  have hrecorded : (nestedHash a).RecordedIn
      (fun n => if n = 0 then nestedHash a else .hash 1 a) := by
    refine throughout_nestedHash ?_ ?_ (fun v hv n hn => ?_) (by decide)
    · rintro n hn
      obtain rfl := Option.some.inj hn
      rfl
    · rintro n hn
      obtain rfl := Option.some.inj hn
      rfl
    · cases v <;> contradiction
  have hidentical : (nestedHash a).identical (nestedHash a) = true := rfl
  exact ⟨ha, hrearranged, hsame, same_equivalence.1.symm (x := ⟨_, ha⟩) (y := ⟨_, hb⟩) hsame,
    hidentical, same_equivalence.2.2.1 ⟨_, ha⟩ ⟨_, ha⟩ _ hrecorded hrecorded hidentical⟩

end Treewalk
