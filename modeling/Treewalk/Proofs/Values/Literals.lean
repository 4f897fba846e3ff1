import Treewalk.Proofs.Grammar.Canonical
import Treewalk.Proofs.Reading.Completeness
import Treewalk.Proofs.Run.Nesting
import Treewalk.Proofs.Values.Sameness

namespace Treewalk

open Evaluation

def Key.value : Key → Value
  | integer n => .integer n
  | boolean b => .boolean b
  | string s => .string s

/-- Values made of integers and booleans. The least integer is none of them: it cannot be written
down, as its literal is the negation of a number that is too large. -/
inductive Value.IsData : Value → Prop where
  | integer {n : Int64} (h : n ≠ Int64.minValue) : IsData (.integer n)
  | boolean {b : Bool} : IsData (.boolean b)
  | array {stamp : Nat} {vs : List Value} (h : ∀ v ∈ vs, IsData v) : IsData (.array stamp vs)
  | hash {stamp : Nat} {entries : Entries Value} (hdistinct : Entries.Distinct entries)
      (hkeys : ∀ e ∈ entries, IsData e.1.value) (h : ∀ e ∈ entries, IsData e.2) :
    IsData (.hash stamp entries)

def integerLiteralOf (n : Int64) : Expression :=
  if n < 0 then .unary .negate (.integer (-n)) else .integer n

def Key.literal : Key → Expression
  | integer n => integerLiteralOf n
  | boolean b => .boolean b
  | string s => .string s

mutual

/-- The expression that builds the value, if it is data. -/
def Value.literal : Value → Expression
  | .integer n => integerLiteralOf n
  | .boolean b => .boolean b
  | .string s => .string s
  | .array _ elements => .array (elementLiterals elements)
  | .hash _ entries => .hash (entryLiterals entries)
  | _ => default

def elementLiterals : List Value → List Expression
  | [] => []
  | v :: rest => v.literal :: elementLiterals rest

def entryLiterals : List (Key × Value) → List (Expression × Expression)
  | [] => []
  | (k, v) :: rest => (k.literal, v.literal) :: entryLiterals rest

end

theorem Key.literal_value (k : Key) : k.value.literal = k.literal := by
  cases k <;> rfl

theorem Key.inspect_value (k : Key) : k.value.inspect = k.inspect := by
  cases k <;> rfl

theorem toInt_neg_of_ne_minValue {n : Int64} (h : n ≠ Int64.minValue) : (-n).toInt = -n.toInt := by
  have hne : n.toInt ≠ -2 ^ 63 := fun heq => h (Int64.toInt_inj.mp heq)
  have hle := n.le_toInt
  have hlt := n.toInt_lt
  rw [Int64.toInt_neg]
  exact Int.bmod_eq_of_le (by omega) (by omega)

theorem toString_of_neg {z : Int} (h : z < 0) : toString z = "-" ++ toString (-z) := by
  obtain ⟨k, rfl⟩ := Int.eq_negSucc_of_lt_zero h
  rfl

theorem printable_integerLiteralOf {n : Int64} (h : n ≠ Int64.minValue) :
    (integerLiteralOf n).Printable := by
  unfold integerLiteralOf
  split
  · next hneg =>
    have hlt := Int64.lt_iff_toInt_lt.mp hneg
    rw [Int64.toInt_zero] at hlt
    simp only [Expression.Printable, toInt_neg_of_ne_minValue h]
    omega
  · next hnonneg =>
    rw [Int64.lt_iff_toInt_lt, Int64.toInt_zero] at hnonneg
    exact Int.not_lt.mp hnonneg

/-- A minus sign and the literal behind it. -/
theorem writes_negated {text : String} {e : Expression} (h : Writes text (SpellsBare .tidy e))
    (hp : Position.operand.Admits e) :
    Writes ("-" ++ text) (SpellsBare .tidy (.unary .negate e)) := by
  intro rest cs hrest hcs
  obtain ⟨ws, hws, hspells⟩ := h rest cs hrest hcs
  refine ⟨.sign .minus :: ws, ?_, .unary (.bare hp hspells)⟩
  have hsign : Parted (.sign .minus :: ws) (TokenKind.minus.spelling ++ (text.toList ++ cs)) :=
    hws.cons (fun _ _ => rfl)
  simpa [TokenKind.spelling] using hsign

theorem Writes.whole {text : String} {e : Expression} (h : Writes text (SpellsBare .tidy e)) :
    Writes text (Spells .tidy .whole e) := by
  intro rest cs hrest hcs
  obtain ⟨ws, hws, hspells⟩ := h rest cs hrest hcs
  exact ⟨ws, hws, .bare trivial hspells⟩

theorem writes_integerLiteralOf {n : Int64} (h : n ≠ Int64.minValue) :
    Writes (toString n.toInt) (SpellsBare .tidy (integerLiteralOf n)) := by
  have hp := printable_integerLiteralOf h
  unfold integerLiteralOf at hp ⊢
  split
  · next hneg =>
    have hlt := Int64.lt_iff_toInt_lt.mp hneg
    rw [if_pos hneg] at hp
    rw [toString_of_neg hlt, ← toInt_neg_of_ne_minValue h]
    exact writes_negated (writes_integer hp) trivial
  · next hnonneg =>
    rw [if_neg hnonneg] at hp
    exact writes_integer hp

theorem writes_boolean (b : Bool) :
    Writes (if b then "true" else "false") (SpellsBare .tidy (.boolean b)) := by
  cases b with
  | true => exact .terminal (.sign .trueWord) rfl (fun _ => .truth)
  | false => exact .terminal (.sign .falseWord) rfl (fun _ => .falsehood)

/-- The text of the value spells its literal. -/
def Value.WritesLiteral (v : Value) : Prop := Writes v.inspect (Spells .tidy .whole v.literal)

theorem itemGap_elementLiterals (vs : List Value) : itemGap (elementLiterals vs) = itemGap vs := by
  cases vs <;> rfl

theorem itemGap_entryLiterals (entries : Entries Value) :
    itemGap (entryLiterals entries) = itemGap entries := by
  cases entries <;> rfl

theorem writes_elementLiterals {vs : List Value} (h : ∀ v ∈ vs, v.WritesLiteral) :
    Writes (inspectElements vs) (Listed (Spells .tidy .whole) (elementLiterals vs)) := by
  induction vs with
  | nil => exact fun rest _ hrest _ => ⟨rest, hrest, .none⟩
  | cons v vs ih =>
    obtain ⟨hv, hvs⟩ := List.forall_mem_cons.mp h
    have hlast : elementLiterals vs = [] → inspectElements vs = "" := by
      cases vs with
      | nil => exact fun _ => rfl
      | cons _ _ => exact nofun
    rw [inspectElements, elementLiterals, ← itemGap_elementLiterals]
    exact Writes.listed hv (ih hvs) hlast

theorem writes_entryLiterals {entries : Entries Value} (hkeys : ∀ e ∈ entries, e.1.value.WritesLiteral)
    (h : ∀ e ∈ entries, e.2.WritesLiteral) :
    Writes (inspectEntries entries) (Listed (SpellsPair .tidy) (entryLiterals entries)) := by
  induction entries with
  | nil => exact fun rest _ hrest _ => ⟨rest, hrest, .none⟩
  | cons e entries ih =>
    obtain ⟨k, v⟩ := e
    obtain ⟨hk, hkeys⟩ := List.forall_mem_cons.mp hkeys
    obtain ⟨hv, h⟩ := List.forall_mem_cons.mp h
    rw [Value.WritesLiteral, k.inspect_value, k.literal_value] at hk
    have hlast : entryLiterals entries = [] → inspectEntries entries = "" := by
      cases entries with
      | nil => exact fun _ => rfl
      | cons _ _ => exact nofun
    rw [inspectEntries, entryLiterals, ← itemGap_entryLiterals]
    exact Writes.listed (writes_pair hk hv) (ih hkeys h) hlast

theorem Value.IsData.writesLiteral {v : Value} (h : v.IsData) : v.WritesLiteral := by
  induction h with
  | integer h => exact (writes_integerLiteralOf h).whole
  | @boolean b => exact (writes_boolean b).whole
  | array _ ih => exact (writes_array (writes_elementLiterals ih)).whole
  | hash _ _ _ ihkeys ih => exact (writes_hash (writes_entryLiterals ihkeys ih)).whole

theorem printable_elementLiterals {vs : List Value} (h : ∀ v ∈ vs, v.literal.Printable) :
    PrintableExpressions (elementLiterals vs) := by
  induction vs with
  | nil => trivial
  | cons v vs ih =>
    obtain ⟨hv, hvs⟩ := List.forall_mem_cons.mp h
    exact ⟨hv, ih hvs⟩

theorem printable_entryLiterals {entries : Entries Value}
    (hkeys : ∀ e ∈ entries, e.1.value.literal.Printable)
    (h : ∀ e ∈ entries, e.2.literal.Printable) : PrintablePairs (entryLiterals entries) := by
  induction entries with
  | nil => trivial
  | cons e entries ih =>
    obtain ⟨hk, hkeys⟩ := List.forall_mem_cons.mp hkeys
    obtain ⟨hv, h⟩ := List.forall_mem_cons.mp h
    exact ⟨e.1.literal_value ▸ hk, hv, ih hkeys h⟩

theorem Value.IsData.printable {v : Value} (h : v.IsData) : v.literal.Printable := by
  induction h with
  | integer h => exact printable_integerLiteralOf h
  | boolean => trivial
  | array _ ih => exact printable_elementLiterals ih
  | hash _ _ _ ihkeys ih => exact printable_entryLiterals ihkeys ih

theorem Value.IsData.parse_inspect {v : Value} (h : v.IsData) :
    parse v.inspect = .ok ⟨[.expression v.literal]⟩ ∧ (read v.inspect).raised = [] := by
  have hblank : Parted [] [] := .blanks (by simp)
  obtain ⟨ws, hws, hspells⟩ := h.writesLiteral [] [] hblank (by simp [Detached])
  rw [List.append_nil] at hws
  have hspelled : Program.Spelled .tidy ⟨[.expression v.literal]⟩ ws :=
    .cons (.expression hspells) (.last (.inl rfl)) .nil
  have hprintable : Program.Printable ⟨[.expression v.literal]⟩ := ⟨h.printable, trivial⟩
  obtain ⟨hprogram, hraised⟩ := read_of_parted hprintable hspelled hws
  have hparse := Reading.program?_of_raised_eq_nil hraised
  rw [hprogram] at hparse
  exact ⟨hparse, hraised⟩

/-- The machine that has handed out other stamps. -/
def Machine.withStamp (n : Nat) (m : Machine) : Machine :=
  { m with memory := { m.memory with nextStamp := n } }

mutual

/-- The value with the same stamp for all arrays and hashes. The entries of its hashes stay in their
order. -/
def Value.unstamped : Value → Value
  | .returned v => .returned v.unstamped
  | .array _ elements => .array 0 (unstampedElements elements)
  | .hash _ entries => .hash 0 (unstampedEntries entries)
  | v => v

def unstampedElements : List Value → List Value
  | [] => []
  | v :: rest => v.unstamped :: unstampedElements rest

def unstampedEntries : List (Key × Value) → List (Key × Value)
  | [] => []
  | (k, v) :: rest => (k, v.unstamped) :: unstampedEntries rest

end

theorem exists_eq_succ_of_height_le {e : Expression} {budget : Nat} (h : e.height ≤ budget) :
    ∃ b, budget = b + 1 :=
  Nat.exists_eq_succ_of_ne_zero (Nat.ne_of_gt (Nat.lt_of_lt_of_le e.height_pos h))

theorem evaluate_integerLiteralOf {n : Int64} {budget : Nat}
    (hb : (integerLiteralOf n).height ≤ budget) (scope : ScopeId) (m : Machine) :
    evaluate budget scope (integerLiteralOf n) m = (.done (.integer n), m) := by
  by_cases hneg : n < 0
  · rw [integerLiteralOf, if_pos hneg] at hb ⊢
    obtain ⟨b, rfl⟩ := Nat.exists_eq_add_of_le' hb
    have hinner : evaluate (b + 1) scope (.integer (-n)) m = (.done (.integer (-n)), m) := rfl
    refine (bind_of_done hinner).trans ?_
    rw [UnaryOperator.apply, Int64.neg_neg]
    rfl
  · rw [integerLiteralOf, if_neg hneg] at hb ⊢
    obtain ⟨b, rfl⟩ := exists_eq_succ_of_height_le hb
    rfl

theorem evaluate_keyLiteral {k : Key} {budget : Nat} (hb : k.literal.height ≤ budget)
    (scope : ScopeId) (m : Machine) :
    evaluate budget scope k.literal m = (.done k.value, m) := by
  cases k with
  | integer n => exact evaluate_integerLiteralOf hb scope m
  | boolean b | string s =>
    obtain ⟨b, rfl⟩ := exists_eq_succ_of_height_le hb
    rfl

/-- Wherever it is evaluated, the literal of the value gives the value with other stamps, and these
are all that is used up. -/
def Value.Rebuilt (v : Value) : Prop :=
  ∀ budget scope m, v.literal.height ≤ budget → ∃ w n,
    evaluate budget scope v.literal m = (.done w, m.withStamp n) ∧ w.unstamped = v.unstamped

section
variable {budget : Nat} (scope : ScopeId)

theorem evalAll_elementLiterals {vs : List Value} (h : ∀ v ∈ vs, v.Rebuilt)
    (hb : listHeight (elementLiterals vs) ≤ budget) (m : Machine) :
    ∃ ws n, evalAll (evaluate budget scope) (elementLiterals vs) m = (.done ws, m.withStamp n) ∧
      unstampedElements ws = unstampedElements vs := by
  induction vs generalizing m with
  | nil => exact ⟨[], m.memory.nextStamp, rfl, rfl⟩
  | cons v vs ih =>
    obtain ⟨hv, hvs⟩ := List.forall_mem_cons.mp h
    obtain ⟨hbv, hbvs⟩ := Nat.max_le.mp hb
    obtain ⟨w, k, hw, hsame⟩ := hv budget scope m hbv
    obtain ⟨ws, n, hws, hall⟩ := ih hvs hbvs (m.withStamp k)
    refine ⟨w :: ws, n, ?_, by rw [unstampedElements, unstampedElements, hsame, hall]⟩
    rw [elementLiterals, evalAll, bind_of_done hw, bind_of_done hws]
    rfl

theorem exists_pairsYield {entries : Entries Value} (h : ∀ e ∈ entries, e.2.Rebuilt)
    (hb : pairsHeight (entryLiterals entries) ≤ budget) (m : Machine) :
    ∃ others n, PairsYield (evaluate budget scope) (entryLiterals entries) m others (m.withStamp n) ∧
      unstampedEntries others = unstampedEntries entries := by
  induction entries generalizing m with
  | nil => exact ⟨[], m.memory.nextStamp, .nil, rfl⟩
  | cons e entries ih =>
    obtain ⟨k, v⟩ := e
    obtain ⟨hv, h⟩ := List.forall_mem_cons.mp h
    obtain ⟨hbfirst, hbrest⟩ := Nat.max_le.mp hb
    obtain ⟨hbk, hbv⟩ := Nat.max_le.mp hbfirst
    obtain ⟨w, n, hw, hsame⟩ := hv budget scope m hbv
    obtain ⟨others, n', hyield, hall⟩ := ih h hbrest (m.withStamp n)
    have hkey : k.value.key? = some k := by cases k <;> rfl
    exact ⟨(k, w) :: others, n', .cons (evaluate_keyLiteral hbk scope m) hkey hw hyield,
      by rw [unstampedEntries, unstampedEntries, hsame, hall]⟩

end

theorem fst_unstampedEntries (entries : Entries Value) :
    (unstampedEntries entries).map Prod.fst = entries.map Prod.fst := by
  induction entries with
  | nil => rfl
  | cons e entries ih => exact congrArg (e.1 :: ·) ih

namespace Entries

theorem insert_of_not_mem {α : Type} {k : Key} {a : α} {entries : Entries α}
    (h : k.hashKey ∉ entries.map (fun e => e.1.hashKey)) :
    insert k a entries = entries ++ [(k, a)] := by
  induction entries with
  | nil => rfl
  | cons e entries ih =>
    obtain ⟨hne, hrest⟩ := List.ne_and_not_mem_of_not_mem_cons h
    rw [insert, if_neg hne.symm, ih hrest]
    rfl

/-- Pairs of which no two match are the entries as they stand. -/
theorem Distinct.ofList_eq {α : Type} {entries : Entries α} (h : Distinct entries) :
    ofList entries = entries := by
  induction entries using List.reverseRecOn with
  | nil => rfl
  | append_singleton entries e ih =>
    rw [Distinct, List.map_append, List.nodup_append] at h
    obtain ⟨hfront, _, hapart⟩ := h
    rw [ofList_concat, ih hfront]
    exact insert_of_not_mem (fun hmem => hapart _ hmem _ (List.mem_singleton_self _) rfl)

end Entries

theorem Value.IsData.rebuilt {v : Value} (h : v.IsData) : v.Rebuilt := by
  induction h with
  | integer _ =>
    exact fun budget scope m hb =>
      ⟨_, m.memory.nextStamp, evaluate_integerLiteralOf hb scope m, rfl⟩
  | @boolean b =>
    exact fun budget scope m hb =>
      ⟨_, m.memory.nextStamp, evaluate_keyLiteral (k := .boolean b) hb scope m, rfl⟩
  | @array _ vs _ ih =>
    intro budget scope m hb
    obtain ⟨b, rfl⟩ := exists_eq_succ_of_height_le hb
    obtain ⟨ws, n, hws, hsame⟩ :=
      evalAll_elementLiterals scope ih (Nat.le_of_succ_le_succ hb) m
    refine ⟨.array n ws, n + 1, bind_of_done hws, ?_⟩
    rw [unstamped, unstamped, hsame]
  | @hash _ entries hdistinct _ _ _ ih =>
    intro budget scope m hb
    obtain ⟨b, rfl⟩ := exists_eq_succ_of_height_le hb
    obtain ⟨others, n, hyield, hsame⟩ :=
      exists_pairsYield scope ih (Nat.le_of_succ_le_succ hb) m
    have hkeys : entries.map Prod.fst = others.map Prod.fst := by
      rw [← fst_unstampedEntries entries, ← hsame, fst_unstampedEntries]
    -- No two keys match, so each entry is appended and none takes the place of another.
    have hothers : Entries.ofList others = others := (hdistinct.congr hkeys).ofList_eq
    have hpairs := hyield.evalPairs_eq []
    refine ⟨.hash n others, n + 1, (bind_of_done hpairs).trans ?_, ?_⟩
    · rw [← Entries.ofList, hothers]
      rfl
    · rw [unstamped, unstamped, hsame]

theorem unstampedElements_eq_map (vs : List Value) :
    unstampedElements vs = vs.map Value.unstamped := by
  induction vs with
  | nil => rfl
  | cons v vs ih => rw [unstampedElements, ih, List.map_cons]

theorem unstampedEntries_eq_map (entries : Entries Value) :
    unstampedEntries entries = entries.map (fun e => (e.1, e.2.unstamped)) := by
  induction entries with
  | nil => rfl
  | cons e entries ih => rw [unstampedEntries, ih, List.map_cons]

theorem eq_of_mem_zip {α β γ : Type} {f : α → γ} {g : β → γ} {as : List α} {bs : List β}
    (h : as.map f = bs.map g) {p : α × β} (hp : p ∈ as.zip bs) : f p.1 = g p.2 := by
  rw [← List.forall₂_eq_eq_eq, List.forall₂_map_left_iff, List.forall₂_map_right_iff] at h
  exact (List.forall₂_iff_zip.mp h).2 hp

namespace Value

theorem unstamped_of_isSimple {v : Value} (h : v.isSimple = true) : v.unstamped = v := by
  cases v <;> first | contradiction | rfl

/-- Only other stamps. -/
theorem rearranged_of_unstamped {v w : Value} (h : v.unstamped = w.unstamped) : v.Rearranged w := by
  induction v using induct generalizing w with
  | simple v hv =>
    rw [unstamped_of_isSimple hv] at h
    subst h
    cases w <;> first | exact .refl _ | contradiction
  | returned v ih =>
    cases w <;> first | contradiction | skip
    exact .returned (ih (returned.inj h))
  | function n parameters body scope =>
    cases w <;> first | contradiction | skip
    obtain ⟨rfl, rfl, rfl, rfl⟩ := function.inj h
    exact .refl _
  | array n vs ih =>
    cases w <;> first | contradiction | skip
    next ws =>
    have hall := (array.inj h).2
    rw [unstampedElements_eq_map, unstampedElements_eq_map] at hall
    exact .array (by simpa using congrArg List.length hall)
      (fun p hp => ih _ (List.of_mem_zip hp).1 (eq_of_mem_zip hall hp))
  | hash n entries ih =>
    cases w <;> first | contradiction | skip
    next others =>
    have hall := (hash.inj h).2
    have hkeys : entries.map Prod.fst = others.map Prod.fst := by
      rw [← fst_unstampedEntries entries, hall, fst_unstampedEntries]
    rw [unstampedEntries_eq_map, unstampedEntries_eq_map] at hall
    refine .hash hkeys (fun p hp => ?_) (.refl _)
    exact ih _ (List.of_mem_zip hp).1 (congrArg Prod.snd (eq_of_mem_zip hall hp))

theorem IsData.keyed {v : Value} (h : v.IsData) : v.Throughout Keyed := by
  induction h with
  | integer _ | boolean => exact throughout_iff.mpr (fits_of_isSimple rfl trivial)
  | array _ ih =>
    exact throughout_iff.mpr ((fits_array trivial).mpr (fun v hv => throughout_iff.mp (ih v hv)))
  | hash hdistinct _ _ _ ih =>
    exact throughout_iff.mpr ((fits_hash hdistinct).mpr (fun e he => throughout_iff.mp (ih e he)))

end Value

theorem Value.isReturned_unstamped (v : Value) : v.unstamped.isReturned = v.isReturned := by
  cases v <;> rfl

theorem Value.IsData.isReturned {v : Value} (h : v.IsData) : v.isReturned = false := by
  cases h <;> rfl

/-- A program that is one expression has its value, unless this is the marker of a `return`. -/
theorem Program.run_expression {e : Expression} {budget : Nat} {scope : ScopeId} {m m' : Machine}
    {v : Value} (h : evaluate budget scope e m = (.done v, m')) (hv : v.isReturned = false) :
    Program.run ⟨[.expression e]⟩ budget scope m = (.done v, m') := by
  have hblock : runBlock (evaluate budget) scope [.expression e] m = (.done v, m') := by
    refine (bind_of_done h).trans ?_
    rw [hv]
    rfl
  refine (bind_of_done hblock).trans ?_
  cases v <;> first | rfl | contradiction

/-- The text of data is read as one expression, with nothing found wrong. Wherever this is run, its
value is the same data, with the entries of all hashes in their order; nothing is printed, nothing
is bound, and only stamps are used up. -/
theorem inspect_reread {v : Value} (h : v.IsData) :
    parse v.inspect = .ok ⟨[.expression v.literal]⟩ ∧ (read v.inspect).raised = [] ∧
    ∀ budget scope m, v.literal.height ≤ budget → ∃ w n,
      Program.run ⟨[.expression v.literal]⟩ budget scope m = (.done w, m.withStamp n) ∧
      v.same w = true ∧ w.unstamped = v.unstamped := by
  refine ⟨h.parse_inspect.1, h.parse_inspect.2, fun budget scope m hb => ?_⟩
  obtain ⟨w, n, hw, hsame⟩ := h.rebuilt budget scope m hb
  have hreturned : w.isReturned = false := by
    rw [← w.isReturned_unstamped, hsame, v.isReturned_unstamped, h.isReturned]
  exact ⟨w, n, Program.run_expression hw hreturned,
    Value.same_of_rearranged h.keyed (Value.rearranged_of_unstamped hsame.symm), hsame⟩

/-- A hash in which the smaller key stands behind the larger one, and a hash and a negative number
in it. -/
def ledger (a b c d : Nat) : Value :=
  .hash a [(.integer 5, .array b [.integer (-12), .boolean true]),
    (.integer (-1), .hash c [(.boolean false, .array d [])])]

theorem inspect_reread_ledger :
    (ledger 7 3 9 4).IsData ∧
      (ledger 7 3 9 4).inspect = "\x7b5: [-12, true], -1: \x7bfalse: []\x7d\x7d" ∧
      parse (ledger 7 3 9 4).inspect = .ok ⟨[.expression (ledger 7 3 9 4).literal]⟩ ∧
      Program.run ⟨[.expression (ledger 7 3 9 4).literal]⟩ 4 0 (.ofMemory .empty) =
        (.done (ledger 3 0 2 1), (Machine.ofMemory .empty).withStamp 4) ∧
      (ledger 7 3 9 4).same (ledger 3 0 2 1) = true := by
  have hkey : ∀ n : Int64, n ≠ Int64.minValue → (Key.integer n).value.IsData := fun _ => .integer
  have hfirst : (Value.array 3 [.integer (-12), .boolean true]).IsData :=
    .array (List.forall_mem_cons.mpr ⟨.integer (by decide), List.forall_mem_singleton.mpr .boolean⟩)
  have hsecond : (Value.hash 9 [(.boolean false, .array 4 [])]).IsData :=
    .hash (by unfold Entries.Distinct; decide) (List.forall_mem_singleton.mpr .boolean)
      (List.forall_mem_singleton.mpr (.array (by simp)))
  have hdata : (ledger 7 3 9 4).IsData :=
    .hash (by unfold Entries.Distinct; decide)
      (List.forall_mem_cons.mpr
        ⟨hkey 5 (by decide), List.forall_mem_singleton.mpr (hkey (-1) (by decide))⟩)
      (List.forall_mem_cons.mpr ⟨hfirst, List.forall_mem_singleton.mpr hsecond⟩)
  have hrun : Program.run ⟨[.expression (ledger 7 3 9 4).literal]⟩ 4 0 (.ofMemory .empty) =
      (.done (ledger 3 0 2 1), (Machine.ofMemory .empty).withStamp 4) := by rfl
  obtain ⟨hparse, _, hevaluated⟩ := inspect_reread hdata
  obtain ⟨w, n, hw, hsame, _⟩ := hevaluated 4 0 (.ofMemory .empty) (by decide)
  obtain rfl := Outcome.done.inj (congrArg Prod.fst (hrun.symm.trans hw))
  exact ⟨hdata, rfl, hparse, hrun, hsame⟩

end Treewalk
