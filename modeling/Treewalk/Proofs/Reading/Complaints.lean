import Mathlib.Data.List.Basic
import Treewalk.Proofs.Reading.Pace

namespace Treewalk

/-- The diagnostic raised, and the token at which it was raised. -/
def ReadingStep.complaint? : ReadingStep → Option (Diagnostic × Token)
  | raise d t => some (d, t)
  | _ => none

/-- The diagnostics raised, each with the token that was the current one. -/
def Reading.complaints (r : Reading) : List (Diagnostic × Token) :=
  r.steps.filterMap ReadingStep.complaint?

/-- The diagnostics raised before the cursor, in order. -/
def Cursor.complaints (c : Cursor) : List (Diagnostic × Token) :=
  c.trail.reverse.filterMap ReadingStep.complaint?

theorem Reading.raised_eq (r : Reading) : r.raised = r.complaints.map Prod.fst := by
  rw [raised, complaints, List.map_filterMap]
  congr 1
  funext s
  cases s <;> rfl

theorem ReadingStep.complaint?_eq_some {s : ReadingStep} {x : Diagnostic × Token}
    (h : s.complaint? = some x) : s = .raise x.1 x.2 := by
  unfold complaint? at h
  split at h
  · obtain rfl := Option.some.inj h
    rfl
  · contradiction

theorem Diagnostic.Names.span_eq {d : Diagnostic} {t : Token} (h : d.Names t) : d.span = t.span := by
  cases d with
  | unexpected expected found span => exact h.2
  | noRule found span => exact h.2
  | integerTooLarge literal span => exact h.2.2

/-- Entries with rising keys up to a bound: those below it, and then one at most that reaches it. -/
theorem exists_append_of_pairwise_lt {α : Type} {key : α → Nat} {k : Nat} {xs : List α}
    (hxs : xs.Pairwise (fun x y => key x < key y)) (h : ∀ x ∈ xs, key x ≤ k) :
    ∃ early late, xs = early ++ late ∧ (∀ x ∈ early, key x < k) ∧ late.length ≤ 1 ∧
      ∀ x ∈ late, key x = k := by
  induction xs with
  | nil => exact ⟨[], [], rfl, by simp, by simp, by simp⟩
  | cons x xs ih =>
    obtain ⟨hx, hxs⟩ := List.pairwise_cons.mp hxs
    obtain ⟨hle, hrest⟩ := List.forall_mem_cons.mp h
    rcases Nat.lt_or_eq_of_le hle with hlt | heq
    · obtain ⟨early, late, rfl, hearly, hlate⟩ := ih hxs hrest
      exact ⟨x :: early, late, rfl, List.forall_mem_cons.mpr ⟨hlt, hearly⟩, hlate⟩
    · have hnil : xs = [] := by
        refine List.eq_nil_iff_forall_not_mem.mpr (fun y hy => ?_)
        have hlt := hx y hy
        have hle := hrest y hy
        omega
      exact ⟨[], [x], by rw [hnil]; rfl, by simp, by simp, by simpa using heq⟩

theorem length_le_one_of_pairwise_lt {α : Type} {key : α → Nat} {k : Nat} {xs : List α}
    (hxs : xs.Pairwise (fun x y => key x < key y)) (h : ∀ x ∈ xs, key x = k) : xs.length ≤ 1 := by
  match xs with
  | [] | [_] => simp
  | x :: y :: _ =>
    have hlt := (List.pairwise_cons.mp hxs).1 y List.mem_cons_self
    rw [h x (by simp), h y (by simp)] at hlt
    exact absurd hlt (Nat.lt_irrefl k)

namespace Tape

variable {T : Tape} {c : Cursor} {d : Diagnostic} {t u : Token} {before after : List Token}

theorem around (hall : T.all = before ++ t :: after) :
    (∀ u ∈ before, u.span.start < t.span.start) ∧ ∀ u ∈ after, t.span.start < u.span.start := by
  have hstarts := T.starts
  rw [← all, hall, List.pairwise_append, List.pairwise_cons] at hstarts
  exact ⟨fun u hu => hstarts.2.2 u hu t List.mem_cons_self, hstarts.2.1.1⟩

theorem eq_of_start (ht : t ∈ T.all) (hu : u ∈ T.all) (h : t.span.start = u.span.start) :
    t = u := by
  obtain ⟨before, after, hall⟩ := List.append_of_mem ht
  obtain ⟨hbefore, hafter⟩ := around hall
  rw [hall, List.mem_append, List.mem_cons] at hu
  rcases hu with hu | rfl | hu
  · exact absurd h (Nat.ne_of_gt (hbefore u hu))
  · rfl
  · exact absurd h (Nat.ne_of_lt (hafter u hu))

theorem finish_mem : T.finish ∈ T.all := by simp [all]

theorem start_le_finish (ht : t ∈ T.all) : t.span.start ≤ T.finish.span.start := by
  rcases List.mem_append.mp ht with ht | ht
  · have hall : T.all = T.tokens ++ T.finish :: [] := rfl
    exact Nat.le_of_lt ((around hall).1 t ht)
  · rw [List.mem_singleton.mp ht]

theorem headD_mem (hall : T.all = before ++ t :: after) : after.headD T.finish ∈ T.all := by
  cases after with
  | nil => exact finish_mem
  | cons u rest => simp [hall]

/-- What starts behind a token does not start before the next one. -/
theorem headD_le (hall : T.all = before ++ t :: after) (hu : u ∈ T.all)
    (h : t.span.start < u.span.start) : (after.headD T.finish).span.start ≤ u.span.start := by
  cases after with
  | nil =>
    rw [hall, List.mem_append, List.mem_singleton] at hu
    rcases hu with hu | rfl
    · exact absurd h (Nat.lt_asymm ((around hall).1 u hu))
    · exact absurd h (Nat.lt_irrefl _)
  | cons v rest =>
    have hnext : T.all = (before ++ [t]) ++ v :: rest := by simp [hall]
    rw [hnext, List.mem_append, List.mem_cons] at hu
    rcases hu with hu | rfl | hu
    · rcases List.mem_append.mp hu with hu | hu
      · exact absurd h (Nat.lt_asymm ((around hall).1 u hu))
      · rw [List.mem_singleton.mp hu] at h
        exact absurd h (Nat.lt_irrefl _)
    · exact Nat.le_refl _
    · exact Nat.le_of_lt ((around hnext).2 u hu)

/-- The token named is the current one or the next, so that no token is between the two. -/
theorem Placed.names (h : T.Placed (.raise d t)) : ∃ u ∈ T.all, d.Names u ∧
    t.span.start ≤ u.span.start ∧ ∀ v ∈ T.all, t.span.start < v.span.start →
      u.span.start ≤ v.span.start := by
  obtain ⟨before, after, hall, hnames | ⟨kind, rfl⟩⟩ := h
  · exact ⟨t, by simp [hall], hnames, Nat.le_refl _, fun v _ hlt => Nat.le_of_lt hlt⟩
  · refine ⟨after.headD T.finish, headD_mem hall, ⟨rfl, rfl⟩, ?_, fun v hv hlt => ?_⟩
    · cases after with
      | nil => exact start_le_finish (by simp [hall])
      | cons u rest => exact Nat.le_of_lt ((around hall).2 u List.mem_cons_self)
    · exact headD_le hall hv hlt

/-- A token other than the end of input is named where it is the current one, or as the next one of
the token before it. -/
theorem Placed.current_or_next (h : T.Placed (.raise d t)) (hall : T.all = before ++ u :: after)
    (hu : u ≠ T.finish) (hspan : d.span = u.span) :
    t = u ∧ d.Names u ∨
      before.getLast? = some t ∧ ∃ kind, d = .unexpected kind u.kind u.span := by
  have hmem : u ∈ T.all := by simp [hall]
  obtain ⟨before', after', hall', hnames | ⟨kind, rfl⟩⟩ := h
  · obtain rfl : t = u :=
      eq_of_start (by simp [hall']) hmem (by rw [← hnames.span_eq, hspan])
    exact .inl ⟨rfl, hnames⟩
  · have hnext : after'.headD T.finish = u :=
      eq_of_start (headD_mem hall') hmem (congrArg Span.start hspan)
    cases after' with
    | nil => exact absurd hnext.symm hu
    | cons v rest =>
      obtain rfl : v = u := hnext
      have hsplit : T.all = (before' ++ [t]) ++ v :: rest := by simp [hall']
      obtain ⟨hbefore, hafter⟩ := around hsplit
      have hsame := (List.append_cons_inj_of_notMem
        (fun hv => Nat.lt_irrefl _ (hbefore v hv)) (fun hv => Nat.lt_irrefl _ (hafter v hv))).mp
        (hsplit.symm.trans hall)
      exact .inr ⟨by simp [← hsame.1], kind, rfl⟩

/-- Diagnostics are raised at later and later tokens, or more than once at the end of input. -/
theorem Steady.pairwise_complaints (h : T.Steady c) : c.complaints.Pairwise (fun x y =>
    x.2.span.start < y.2.span.start ∨
      x.2.span.start = y.2.span.start ∧ y.2.span.start = T.finish.span.start) := by
  rw [Cursor.complaints, List.pairwise_filterMap]
  refine (List.pairwise_reverse.mpr h.ordered).imp (fun hfollows x hx y hy => ?_)
  obtain rfl := ReadingStep.complaint?_eq_some hx
  obtain rfl := ReadingStep.complaint?_eq_some hy
  have horder := hfollows _ _ rfl rfl
  omega

theorem Steady.placed_complaints (h : T.Steady c) :
    ∀ x ∈ c.complaints, T.Placed (.raise x.1 x.2) := by
  intro x hx
  obtain ⟨s, hs, hcomplaint⟩ := List.mem_filterMap.mp hx
  rw [← ReadingStep.complaint?_eq_some hcomplaint]
  exact h.placed s (List.mem_reverse.mp hs)

/-- What is named later does not start before. -/
theorem Placed.start_le {x y : Diagnostic × Token} (hx : T.Placed (.raise x.1 x.2))
    (hy : T.Placed (.raise y.1 y.2)) (h : x.2.span.start < y.2.span.start ∨
      x.2.span.start = y.2.span.start ∧ y.2.span.start = T.finish.span.start) :
    x.1.span.start ≤ y.1.span.start := by
  obtain ⟨u, hu, hnames, _, hnext⟩ := hx.names
  obtain ⟨v, hv, hnames', hle, _⟩ := hy.names
  rw [hnames.span_eq, hnames'.span_eq]
  obtain ⟨before, after, hall, _⟩ := hy
  rcases h with hlt | ⟨_, hend⟩
  · exact Nat.le_trans (hnext _ (by simp [hall]) hlt) hle
  · exact Nat.le_trans (start_le_finish hu) (hend ▸ hle)

section
variable (h : T.Steady c) (hall : T.all = before ++ t :: after) (ht : t ≠ T.finish)
include h hall ht

/-- Where the diagnostics that name a token other than the end of input were raised. -/
theorem Steady.place_of_named : ∀ x ∈ c.complaints.filter (fun x => x.1.span = t.span),
    x.2 = t ∧ x.1.Names t ∨
      x.2.span.start < t.span.start ∧ before.getLast? = some x.2 ∧
        ∃ kind, x.1 = .unexpected kind t.kind t.span := by
  intro x hx
  obtain ⟨hx, hspan⟩ := List.mem_filter.mp hx
  rcases (h.placed_complaints x hx).current_or_next hall ht (of_decide_eq_true hspan)
    with hcurrent | hnext
  · exact .inl hcurrent
  · exact .inr ⟨(around hall).1 _ (List.mem_of_getLast? hnext.1), hnext⟩

theorem Steady.named_le : ∀ x ∈ c.complaints.filter (fun x => x.1.span = t.span),
    x.2.span.start ≤ t.span.start := by
  intro x hx
  rcases h.place_of_named hall ht x hx with ⟨heq, _⟩ | ⟨hlt, _⟩
  · exact Nat.le_of_eq (congrArg (fun u : Token => u.span.start) heq)
  · exact Nat.le_of_lt hlt

/-- They were not raised at the end of input, so each was raised at a later token. -/
theorem Steady.pairwise_named : (c.complaints.filter (fun x => x.1.span = t.span)).Pairwise
    (fun x y => x.2.span.start < y.2.span.start) := by
  have hmem : t ∈ T.all := by simp [hall]
  have hlt : t.span.start < T.finish.span.start :=
    Nat.lt_of_le_of_ne (start_le_finish hmem) (fun heq => ht (eq_of_start hmem finish_mem heq))
  refine (h.pairwise_complaints.filter _).imp_of_mem (fun _ hy horder => ?_)
  have hle := h.named_le hall ht _ hy
  exact horder.resolve_right (fun hend => by omega)

/-- One of them at most was raised at the token before it, and one at most at the token itself. -/
theorem Steady.named_twice : ∃ early late,
    c.complaints.filter (fun x => x.1.span = t.span) = early ++ late ∧
      early.length ≤ 1 ∧ late.length ≤ 1 ∧
      (∀ x ∈ early, before.getLast? = some x.2 ∧ ∃ kind, x.1 = .unexpected kind t.kind t.span) ∧
      ∀ x ∈ late, x.2 = t ∧ x.1.Names t := by
  have hplace := h.place_of_named hall ht
  have hrising := h.pairwise_named hall ht
  obtain ⟨early, late, hsplit, hearly, hlate, hreach⟩ :=
    exists_append_of_pairwise_lt hrising (h.named_le hall ht)
  rw [hsplit] at hplace hrising
  have hnext : ∀ x ∈ early, before.getLast? = some x.2 ∧
      ∃ kind, x.1 = .unexpected kind t.kind t.span := by
    intro x hx
    rcases hplace x (List.mem_append_left _ hx) with ⟨heq, _⟩ | ⟨_, hnext⟩
    · have hlt := hearly x hx
      rw [heq] at hlt
      exact absurd hlt (Nat.lt_irrefl _)
    · exact hnext
  -- All of them were raised at one token, so there cannot be two.
  have hsame : ∀ x ∈ early,
      x.2.span.start = (before.getLast?.map (fun u => u.span.start)).getD 0 := by
    intro x hx
    rw [(hnext x hx).1]
    rfl
  refine ⟨early, late, hsplit,
    length_le_one_of_pairwise_lt (List.pairwise_append.mp hrising).1 hsame, hlate, hnext,
    fun x hx => ?_⟩
  rcases hplace x (List.mem_append_right _ hx) with hcurrent | ⟨hlt, _⟩
  · exact hcurrent
  · exact absurd (hreach x hx) (Nat.ne_of_lt hlt)

end

end Tape

/-- A collector of diagnostics keeps the first ones up to its limit, and what is recorded has no
influence on the program that is read or on what is raised. Every diagnostic names a token, the end
of input among them, by its kind or literal and its span; none starts before an earlier one; and a
token other than the end of input is named twice at most, first as one that is unexpected behind the
current token and then as the current token. -/
theorem raised_in_order (source : String) :
    (∀ limit, ((read source).raised.foldl DiagnosticList.add (.empty source limit)).kept =
      (read source).raised.take limit) ∧
    (read source).diagnostics.kept = (read source).raised.take 100 ∧
    (∃ ts finish, tokens source = ts ++ [finish] ∧
      ∀ past, statementsUntil endsProgram (readExpression (ts.length + 1)) (ts.length + 1)
          ⟨ts, finish, 0, past⟩ =
        (some (read source).program.statements,
          ⟨[], finish, (read source).depth, (read source).steps.reverse ++ past⟩)) ∧
    (∀ d ∈ (read source).raised, ∃ t ∈ tokens source, d.Names t) ∧
    (read source).raised.Pairwise (fun d d' => d.span.start ≤ d'.span.start) ∧
    (read source).raised = (read source).complaints.map Prod.fst ∧
    ∀ before t after, tokens source = before ++ t :: after → t.kind ≠ .endOfInput →
      ∃ early late, (read source).complaints.filter (fun x => x.1.span = t.span) = early ++ late ∧
        early.length ≤ 1 ∧ late.length ≤ 1 ∧
        (∀ x ∈ early, before.getLast? = some x.2 ∧
          ∃ kind, x.1 = .unexpected kind t.kind t.span) ∧
        ∀ x ∈ late, x.2 = t ∧ x.1.Names t := by
  -- The cursor at the end has all the steps in its trail, so they are in order.
  obtain ⟨T, c, hall, hnil, hbefore, hsteps, hdepth, hread⟩ := exists_tape_read source
  have hkept : ∀ limit, ((read source).raised.foldl DiagnosticList.add (.empty source limit)).kept =
      (read source).raised.take limit := by
    intro limit
    rw [DiagnosticList.kept_foldl_add]
    rfl
  have hcomplaints : (read source).complaints = c.complaints := by
    rw [Reading.complaints, hsteps, Cursor.complaints]
  refine ⟨hkept, hkept 100, ⟨T.tokens, T.finish, hall, fun past => ?_⟩, ?_, ?_,
    (read source).raised_eq, fun before t after hsplit ht => ?_⟩
  · have hc : c = ⟨[], T.finish, c.depth, c.trail⟩ := by rw [← hnil, ← hbefore.finish]
    have hstart : (⟨T.tokens, T.finish, 0, past⟩ : Cursor) = T.first.withPast past := rfl
    rw [hstart, Reader.blind, hread _ _ (Nat.lt_succ_self _) (Nat.le_succ _), hsteps, hdepth,
      List.reverse_reverse, hc]
    rfl
  · intro d hd
    rw [Reading.raised_eq, hcomplaints] at hd
    obtain ⟨x, hx, rfl⟩ := List.mem_map.mp hd
    obtain ⟨u, hu, hnames, _⟩ := (hbefore.placed_complaints x hx).names
    exact ⟨u, hall ▸ hu, hnames⟩
  · rw [Reading.raised_eq, hcomplaints, List.pairwise_map]
    exact hbefore.pairwise_complaints.imp_of_mem (fun hx hy horder =>
      (hbefore.placed_complaints _ hx).start_le (hbefore.placed_complaints _ hy) horder)
  · rw [hcomplaints]
    refine hbefore.named_twice (hall.symm.trans hsplit) (fun heq => ht ?_)
    rw [heq, T.kind_finish]

end Treewalk
