import Mathlib.Data.List.Induction
import Treewalk.Proofs.Run.Sight

namespace Treewalk

open Evaluation

namespace Key

/-- No two different strings among the keys have the same hash. -/
def Apart (ks : List Key) : Prop :=
  ∀ s t, .string s ∈ ks → .string t ∈ ks → (string s).number = (string t).number → s = t

/-- Keys that match have one type, and only strings may match without being equal. -/
theorem tag_eq_of_hashKey {k l : Key} (h : k.hashKey = l.hashKey) :
    k.tag = l.tag ∧ (k.tag ≠ .string → k = l) := by
  obtain ⟨htag, hnumber⟩ := HashKey.mk.inj h
  refine ⟨htag, fun hstring => ?_⟩
  cases k with
  | integer m =>
    cases l with
    | integer n =>
      exact congrArg integer (Function.LeftInverse.injective Int64.toInt64_toUInt64 hnumber)
    | boolean _ | string _ => contradiction
  | boolean b =>
    cases l with
    | boolean c => cases b <;> cases c <;> first | rfl | contradiction
    | integer _ | string _ => contradiction
  | string _ => exact absurd rfl hstring

theorem Apart.hashKey_inj {ks : List Key} (h : Apart ks) {k l : Key} (hk : k ∈ ks) (hl : l ∈ ks) :
    k.hashKey = l.hashKey ↔ k = l := by
  refine ⟨fun heq => ?_, congrArg hashKey⟩
  obtain ⟨htag, hsame⟩ := tag_eq_of_hashKey heq
  by_cases hstring : k.tag = .string
  · cases k <;> cases l <;> first | contradiction | skip
    exact congrArg string (h _ _ hk hl (HashKey.mk.inj heq).2)
  · exact hsame hstring

theorem Apart.mono {ks ls : List Key} (h : Apart ls) (hsub : ks ⊆ ls) : Apart ks :=
  fun s t hs ht => h s t (hsub hs) (hsub ht)

end Key

namespace Entries

variable {α : Type}

theorem ofList_concat (pairs : List (Key × α)) (k : Key) (a : α) :
    ofList (pairs ++ [(k, a)]) = insert k a (ofList pairs) := by
  rw [ofList, List.foldl_append]
  rfl

theorem nodup_insert (k : Key) (a : α) {entries : Entries α}
    (h : (entries.map (fun e => e.1.hashKey)).Nodup) :
    ((insert k a entries).map (fun e => e.1.hashKey)).Nodup := by
  induction entries with
  | nil => simp [insert]
  | cons e rest ih =>
    obtain ⟨l, b⟩ := e
    rw [List.map_cons, List.nodup_cons] at h
    rw [insert]
    split
    · next hkey =>
      rw [List.map_cons, List.nodup_cons, ← hkey]
      exact h
    · next hkey =>
      rw [List.map_cons, List.nodup_cons]
      refine ⟨fun hmem => ?_, ih h.2⟩
      obtain ⟨e, he, heq⟩ := List.mem_map.mp hmem
      rcases mem_insert he with rfl | he
      · exact hkey heq.symm
      · exact h.1 (List.mem_map.mpr ⟨e, he, heq⟩)

theorem fst_mem_of_mem_ofList {pairs : List (Key × α)} {e : Key × α} (h : e ∈ ofList pairs) :
    e.1 ∈ pairs.map Prod.fst := by
  induction pairs using List.reverseRecOn with
  | nil => contradiction
  | append_singleton pairs pair ih =>
    rw [ofList_concat] at h
    rw [List.map_append, List.mem_append]
    rcases mem_insert h with rfl | h
    · exact .inr (List.mem_singleton_self _)
    · exact .inl (ih h)

/-- No two entries match. -/
theorem nodup_ofList (pairs : List (Key × α)) :
    ((ofList pairs).map (fun e => e.1.hashKey)).Nodup := by
  induction pairs using List.reverseRecOn with
  | nil => exact .nil
  | append_singleton pairs pair ih =>
    rw [ofList_concat]
    exact nodup_insert _ _ ih

theorem get?_of_mem {entries : Entries α} (h : (entries.map (fun e => e.1.hashKey)).Nodup)
    {k : Key} {a : α} (hmem : (k, a) ∈ entries) : get? k.hashKey entries = some a := by
  induction entries with
  | nil => contradiction
  | cons e rest ih =>
    obtain ⟨l, b⟩ := e
    rw [List.map_cons, List.nodup_cons] at h
    rcases List.mem_cons.mp hmem with heq | hrest
    · obtain ⟨rfl, rfl⟩ := Prod.mk.inj heq
      simp [get?, find?]
    · have hne : l.hashKey ≠ k.hashKey :=
        fun heq => h.1 (List.mem_map.mpr ⟨_, hrest, heq.symm⟩)
      have hfound := ih h.2 hrest
      rwa [get?, find?, if_neg hne]

/-- A hash gives for each key what was put there last. -/
theorem get?_ofList {pairs : List (Key × α)} {key : Key}
    (h : Key.Apart (key :: pairs.map Prod.fst)) :
    get? key.hashKey (ofList pairs) = pairs.reverse.lookup key := by
  induction pairs using List.reverseRecOn with
  | nil => rfl
  | append_singleton pairs pair ih =>
    obtain ⟨k, a⟩ := pair
    rw [List.map_append, List.map_singleton] at h
    have hmatch : k.hashKey = key.hashKey ↔ k = key := h.hashKey_inj (by simp) (by simp)
    rw [ofList_concat, get?_insert, ih (h.mono (by simp)), List.reverse_concat]
    by_cases hkey : key = k
    · rw [if_pos (hmatch.mpr hkey.symm), hkey, List.lookup_cons_self]
    · rw [if_neg (fun heq => hkey (hmatch.mp heq).symm), List.lookup_cons, beq_false_of_ne hkey]

theorem lookup_of_mem_ofList {pairs : List (Key × α)} (h : Key.Apart (pairs.map Prod.fst))
    {k : Key} {a : α} (hmem : (k, a) ∈ ofList pairs) : pairs.reverse.lookup k = some a := by
  have hk : k ∈ pairs.map Prod.fst := fst_mem_of_mem_ofList hmem
  rw [← get?_ofList (h.mono (List.cons_subset.mpr ⟨hk, List.Subset.refl _⟩))]
  exact get?_of_mem (nodup_ofList pairs) hmem

theorem map_fst_insert {k : Key} {a : α} {entries : Entries α}
    (h : ∀ e ∈ entries, e.1.hashKey = k.hashKey → e.1 = k) :
    (insert k a entries).map Prod.fst =
      if k ∈ entries.map Prod.fst then entries.map Prod.fst else entries.map Prod.fst ++ [k] := by
  induction entries with
  | nil => rfl
  | cons e rest ih =>
    obtain ⟨l, b⟩ := e
    obtain ⟨hl, hrest⟩ := List.forall_mem_cons.mp h
    rw [insert]
    by_cases hkey : l.hashKey = k.hashKey
    · obtain rfl : l = k := hl hkey
      simp
    · have hne : k ≠ l := fun heq => hkey (heq ▸ rfl)
      rw [if_neg hkey, List.map_cons, ih hrest]
      by_cases hmem : k ∈ rest.map Prod.fst
      · rw [if_pos hmem, List.map_cons, if_pos (List.mem_cons_of_mem _ hmem)]
      · rw [if_neg hmem, List.map_cons, if_neg (by simpa [hne] using hmem), List.cons_append]

/-- The keys stand in the order in which they came first. -/
theorem map_fst_ofList {pairs : List (Key × α)} (h : Key.Apart (pairs.map Prod.fst)) :
    (ofList pairs).map Prod.fst = (pairs.map Prod.fst).eraseDups := by
  induction pairs using List.reverseRecOn with
  | nil => rfl
  | append_singleton pairs pair ih =>
    obtain ⟨k, a⟩ := pair
    rw [List.map_append, List.map_singleton] at h ⊢
    have hmatch : ∀ e ∈ ofList pairs, e.1.hashKey = k.hashKey → e.1 = k := fun e he =>
      (h.hashKey_inj (List.mem_append_left _ (fst_mem_of_mem_ofList he)) (by simp)).mp
    rw [ofList_concat, map_fst_insert hmatch, ih (h.mono (by simp)), List.eraseDups_append]
    by_cases hmem : k ∈ pairs.map Prod.fst
    · rw [if_pos (List.mem_eraseDups.mpr hmem)]
      simp [List.removeAll, hmem]
    · rw [if_neg (fun hin => hmem (List.mem_eraseDups.mp hin))]
      simp [List.removeAll, hmem, List.eraseDups_cons]

end Entries

/-- Evaluated one after the other, each key before its value, the pairs of expressions have these
keys and values. -/
inductive PairsYield (eval : Expression → Evaluation Value) :
    List (Expression × Expression) → Machine → List (Key × Value) → Machine → Prop where
  | nil {m : Machine} : PairsYield eval [] m [] m
  | cons {k e : Expression} {pairs : List (Expression × Expression)} {m m₁ m₂ m' : Machine}
      {v w : Value} {key : Key} {entries : List (Key × Value)} (hk : eval k m = (.done v, m₁))
      (hkey : v.key? = some key) (he : eval e m₁ = (.done w, m₂))
      (rest : PairsYield eval pairs m₂ entries m') :
    PairsYield eval ((k, e) :: pairs) m ((key, w) :: entries) m'

theorem PairsYield.evalPairs_eq {eval : Expression → Evaluation Value}
    {pairs : List (Expression × Expression)} {m m' : Machine} {kvs : List (Key × Value)}
    (h : PairsYield eval pairs m kvs m') (entries : Entries Value) :
    evalPairs eval pairs entries m =
      (.done (kvs.foldl (fun entries pair => entries.insert pair.1 pair.2) entries), m') := by
  induction h generalizing entries with
  | nil => rfl
  | @cons k e pairs m m₁ m₂ m' v w key kvs hk hkey he _ ih =>
    have hofKey : ofExcept v.toKey m₁ = (.done key, m₁) := by
      rw [Value.toKey, hkey]
      rfl
    rw [evalPairs, bind_of_done hk, bind_of_done hofKey, bind_of_done he, ih]
    rfl

/-- A hash literal is the map of its pairs: its keys stand in the order in which they came first,
each with the value that came for it last, and that is what an index gives, as far as no two
different strings among the keys and the index have the same hash. Other keys match only when they
are equal. -/
theorem hash_ordered_map {n : Nat} {scope : ScopeId} {pairs : List (Expression × Expression)}
    {m m' : Machine} {kvs : List (Key × Value)}
    (h : PairsYield (evaluate n scope) pairs m kvs m') (hapart : Key.Apart (kvs.map Prod.fst)) :
    (∃ entries : Entries Value,
      evaluate (n + 1) scope (.hash pairs) m =
        (.done (.hash m'.memory.nextStamp entries), { m' with memory := m'.memory.stamp.2 }) ∧
      entries.map Prod.fst = (kvs.map Prod.fst).eraseDups ∧
      (∀ key v, (key, v) ∈ entries → kvs.reverse.lookup key = some v) ∧
      ∀ q key, q.key? = some key → Key.Apart (key :: kvs.map Prod.fst) →
        (∀ stamp, (Value.hash stamp entries).at q = .ok ((kvs.reverse.lookup key).getD .null)) ∧
        ∀ index m'',
          evaluate (n + 1) scope index { m' with memory := m'.memory.stamp.2 } = (.done q, m'') →
            evaluate (n + 2) scope (.index (.hash pairs) index) m =
              (.done ((kvs.reverse.lookup key).getD .null), m'')) ∧
    ∀ k l : Key, k.hashKey = l.hashKey → k.tag = l.tag ∧ (k.tag ≠ .string → k = l) := by
  have hliteral : evaluate (n + 1) scope (.hash pairs) m =
      (.done (.hash m'.memory.nextStamp (Entries.ofList kvs)),
        { m' with memory := m'.memory.stamp.2 }) :=
    (bind_of_done (h.evalPairs_eq [])).trans (newHash_apply _ _)
  refine ⟨⟨Entries.ofList kvs, hliteral, Entries.map_fst_ofList hapart,
    fun key v => Entries.lookup_of_mem_ofList hapart, fun q key hq hkey => ?_⟩,
    fun k l => Key.tag_eq_of_hashKey⟩
  have hat : ∀ stamp, (Value.hash stamp (Entries.ofList kvs)).at q =
      .ok ((kvs.reverse.lookup key).getD .null) := by
    intro stamp
    rw [Value.at, Value.toKey, hq, ← Entries.get?_ofList hkey]
    rfl
  refine ⟨hat, fun index m'' hindex => ?_⟩
  rw [evaluate, evalNode, bind_of_done hliteral, bind_of_done hindex, hat]
  rfl

def repeatedPairs : List (Expression × Expression) :=
  [(.string "a", .integer 1), (.integer 2, .integer 3), (.string "ab", .integer 5),
    (.string "a", .integer 4)]

theorem apart_repeated : Key.Apart [.string "b", .string "a", .integer 2, .string "ab"] := by
  intro s t hs ht hnumber
  have hcases : ∀ u, Key.string u ∈ [.string "b", .string "a", .integer 2, .string "ab"] →
      u = "b" ∨ u = "a" ∨ u = "ab" := by simp
  rcases hcases s hs with rfl | rfl | rfl <;> rcases hcases t ht with rfl | rfl | rfl <;>
    first | rfl | exact absurd hnumber (by decide +kernel)

/-- One string is among the keys twice, another one once, and a third one is missing. -/
theorem hash_ordered_map_repeated :
    ∃ entries : Entries Value,
      evaluate 2 0 (.hash repeatedPairs) (.ofMemory .empty) =
        (.done (.hash 0 entries), .ofMemory Memory.empty.stamp.2) ∧
      entries.map Prod.fst = [.string "a", .integer 2, .string "ab"] ∧
      evaluate 3 0 (.index (.hash repeatedPairs) (.string "a")) (.ofMemory .empty) =
        (.done (.integer 4), .ofMemory Memory.empty.stamp.2) ∧
      evaluate 3 0 (.index (.hash repeatedPairs) (.string "ab")) (.ofMemory .empty) =
        (.done (.integer 5), .ofMemory Memory.empty.stamp.2) ∧
      evaluate 3 0 (.index (.hash repeatedPairs) (.string "b")) (.ofMemory .empty) =
        (.done .null, .ofMemory Memory.empty.stamp.2) := by
  have hpairs : PairsYield (evaluate 1 0) repeatedPairs (.ofMemory .empty)
      [(.string "a", .integer 1), (.integer 2, .integer 3), (.string "ab", .integer 5),
        (.string "a", .integer 4)] (.ofMemory .empty) :=
    .cons rfl rfl rfl (.cons rfl rfl rfl (.cons rfl rfl rfl (.cons rfl rfl rfl .nil)))
  obtain ⟨⟨entries, hliteral, hkeys, _, hindex⟩, _⟩ :=
    hash_ordered_map hpairs (apart_repeated.mono (by simp))
  refine ⟨entries, hliteral, hkeys, ?_, ?_, ?_⟩
  · exact (hindex (.string "a") _ rfl (apart_repeated.mono (by simp))).2 (.string "a") _ rfl
  · exact (hindex (.string "ab") _ rfl (apart_repeated.mono (by simp))).2 (.string "ab") _ rfl
  · exact (hindex (.string "b") _ rfl (apart_repeated.mono (by simp))).2 (.string "b") _ rfl

end Treewalk
