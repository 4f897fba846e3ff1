import Mathlib.Data.List.Nodup
import Mathlib.Data.String.Basic
import Treewalk.Proofs.Run.Sight

namespace Treewalk

/-- The bytes of a text in UTF-8. Comparing by bytes and by characters comes to the same, because
the bytes of a smaller character are smaller. -/
def utf8 (s : String) : List UInt8 := s.toUTF8.data.toList

theorem utf8_eq (s : String) : utf8 s = s.toList.flatMap String.utf8EncodeChar := by
  rw [utf8, String.toUTF8_eq_toByteArray, ← String.utf8Encode_toList, List.utf8Encode,
    List.data_toByteArray]

theorem ofNat_cons_lt_iff {m n : Nat} (hm : m < 256) (hn : n < 256) {xs ys : List UInt8} :
    UInt8.ofNat m :: xs < UInt8.ofNat n :: ys ↔ m < n ∨ m = n ∧ xs < ys := by
  rw [List.cons_lt_cons_iff, UInt8.lt_iff_toNat_lt, ← UInt8.toNat_inj,
    UInt8.toNat_ofNat_of_lt' hm, UInt8.toNat_ofNat_of_lt' hn]

/-- Two different characters differ in a byte that both of them have. -/
theorem utf8EncodeChar_append_lt {c d : Char} (h : c < d) (xs ys : List UInt8) :
    String.utf8EncodeChar c ++ xs < String.utf8EncodeChar d ++ ys := by
  have hlt : c.val.toNat < d.val.toNat := h
  have hd : d.val.toNat < 0x110000 := by
    have hvalid := d.valid
    simp only [UInt32.isValidChar, Nat.isValidChar] at hvalid
    omega
  have hdigits : ∀ n, n / 4096 = n / 64 / 64 ∧ n / 262144 = n / 64 / 64 / 64 := fun n => by omega
  simp only [String.utf8EncodeChar, hdigits]
  generalize c.val.toNat = v at hlt ⊢
  generalize d.val.toNat = w at hlt hd ⊢
  split_ifs
  all_goals
    simp (disch := omega) only [List.cons_append, List.nil_append, ofNat_cons_lt_iff]
    omega

theorem flatMap_utf8EncodeChar_lt {cs ds : List Char} (h : cs < ds) :
    cs.flatMap String.utf8EncodeChar < ds.flatMap String.utf8EncodeChar := by
  induction h with
  | @nil d ds =>
    obtain ⟨b, bs, hd⟩ := List.exists_cons_of_ne_nil (String.utf8EncodeChar_ne_nil (c := d))
    rw [List.flatMap_nil, List.flatMap_cons, hd]
    exact .nil
  | rel hlt => exact utf8EncodeChar_append_lt hlt _ _
  | cons _ ih => exact List.append_left_lt ih

theorem utf8_lt {s t : String} (h : s < t) : utf8 s < utf8 t := by
  rw [utf8_eq, utf8_eq]
  exact flatMap_utf8EncodeChar_lt (String.lt_iff_toList_lt.mp h)

namespace Bindings

variable {name other : String} {v w : Value} {bs : Bindings}

/-- Each name is bound once. -/
def Distinct (bs : Bindings) : Prop := (bs.map Prod.fst).Nodup

theorem mem_names_set :
    other ∈ (set name v bs).map Prod.fst ↔ other = name ∨ other ∈ bs.map Prod.fst := by
  induction bs with
  | nil => simp [set]
  | cons b bs ih =>
    obtain ⟨n, w⟩ := b
    by_cases h : n = name
    · subst h
      simp [set]
    · simp only [set, h, if_false, List.map_cons, List.mem_cons, ih]
      exact or_left_comm

theorem Distinct.set (h : Distinct bs) : Distinct (set name v bs) := by
  induction bs with
  | nil => exact List.nodup_singleton name
  | cons b bs ih =>
    obtain ⟨n, w⟩ := b
    obtain ⟨hn, hbs⟩ := List.nodup_cons.mp h
    by_cases hname : n = name
    · subst hname
      rw [Bindings.set, if_pos rfl]
      exact h
    · rw [Bindings.set, if_neg hname]
      refine List.nodup_cons.mpr ⟨fun hmem => ?_, ih hbs⟩
      exact (mem_names_set.mp hmem).elim hname hn

theorem Distinct.get?_eq_some_iff (h : Distinct bs) :
    get? name bs = some v ↔ (name, v) ∈ bs := by
  refine ⟨mem_of_get?, fun hmem => ?_⟩
  induction bs with
  | nil => contradiction
  | cons b bs ih =>
    obtain ⟨n, w⟩ := b
    obtain ⟨hn, hbs⟩ := List.nodup_cons.mp h
    rcases List.mem_cons.mp hmem with heq | hmem
    · obtain ⟨rfl, rfl⟩ := Prod.mk.inj heq
      rw [get?, if_pos rfl]
    · have hne : n ≠ name := fun heq => hn (List.mem_map.mpr ⟨_, hmem, heq.symm⟩)
      rw [get?, if_neg hne]
      exact ih hbs hmem

theorem insertSorted_perm : (insertSorted name v bs).Perm ((name, v) :: bs) := by
  induction bs with
  | nil => exact .refl _
  | cons b bs ih =>
    obtain ⟨n, w⟩ := b
    rw [insertSorted]
    split
    · exact .refl _
    · exact (ih.cons _).trans (.swap _ _ _)

theorem sorted_perm : (sorted bs).Perm bs := by
  induction bs with
  | nil => exact .refl _
  | cons b bs ih => exact insertSorted_perm.trans (ih.cons _)

theorem pairwise_insertSorted (h : bs.Pairwise (fun b c => b.1 < c.1))
    (hname : ∀ b ∈ bs, b.1 ≠ name) :
    (insertSorted name v bs).Pairwise (fun b c => b.1 < c.1) := by
  induction bs with
  | nil => exact List.pairwise_singleton _ _
  | cons b bs ih =>
    obtain ⟨n, w⟩ := b
    obtain ⟨hfirst, hbs⟩ := List.pairwise_cons.mp h
    obtain ⟨hne, hrest⟩ := List.forall_mem_cons.mp hname
    rw [insertSorted]
    split
    next hlt =>
      exact .cons (List.forall_mem_cons.mpr ⟨hlt, fun b hb => lt_trans hlt (hfirst b hb)⟩) h
    next hle =>
      refine .cons (fun b hb => ?_) (ih hbs hrest)
      rcases List.mem_cons.mp (insertSorted_perm.subset hb) with rfl | hb
      · exact lt_of_le_of_ne (not_lt.mp hle) hne
      · exact hfirst b hb

/-- Sorted bindings come in the order of their names. -/
theorem Distinct.pairwise_sorted (h : Distinct bs) :
    (sorted bs).Pairwise (fun b c => b.1 < c.1) := by
  induction bs with
  | nil => exact .nil
  | cons b bs ih =>
    obtain ⟨hn, hbs⟩ := List.nodup_cons.mp h
    refine pairwise_insertSorted (ih hbs) (fun c hc heq => hn ?_)
    exact heq ▸ List.mem_map_of_mem (sorted_perm.subset hc)

end Bindings

namespace Memory

variable {m : Memory}

/-- Each scope binds a name once. -/
def Distinct (m : Memory) : Prop := ∀ s, (m.bindings s).Distinct

theorem distinct_empty : Distinct .empty := fun s => by
  rw [bindings_of_le (Nat.zero_le s)]
  exact List.nodup_nil

theorem Distinct.addScope (h : m.Distinct) (enclosing : List ScopeId) :
    (m.addScope enclosing).2.Distinct := fun s => by
  rw [bindings_addScope]
  exact h s

theorem Distinct.define (h : m.Distinct) (s : ScopeId) (name : String) (v : Value) :
    (m.define s name v).Distinct := fun t => by
  rw [bindings_define]
  split
  · exact (h t).set
  · exact h t

/-- A scope is listed with its own bindings, each name once and in the order of bytes. -/
theorem Distinct.pairwise_ownBindings (h : m.Distinct) (s : ScopeId) :
    (m.ownBindings s).Pairwise (fun b c => utf8 b.1 < utf8 c.1) :=
  (h s).pairwise_sorted.imp utf8_lt

theorem Distinct.mem_ownBindings_iff (h : m.Distinct) {s : ScopeId} {name : String} {v : Value} :
    (name, v) ∈ m.ownBindings s ↔ (m.bindings s).get? name = some v := by
  rw [ownBindings, Bindings.sorted_perm.mem_iff, (h s).get?_eq_some_iff]

end Memory

end Treewalk
