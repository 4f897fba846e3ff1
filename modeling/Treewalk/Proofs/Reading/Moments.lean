import Treewalk.Proofs.Scanning.Cut
import Treewalk.Reading.Basic

namespace Treewalk

/-- The tokens of a text with the end of input apart; each begins behind the one before it. -/
structure Tape where
  tokens : List Token
  finish : Token
  starts : (tokens ++ [finish]).Pairwise (fun t u => t.span.start < u.span.start)
  kind_ne : ∀ t ∈ tokens, t.kind ≠ .endOfInput
  kind_finish : finish.kind = .endOfInput

theorem Cut.starts {offset : Nat} {cs : List Char} {ts : List Token} {finish : Token}
    (h : Cut offset cs ts finish) :
    (ts ++ [finish]).Pairwise (fun t u => t.span.start < u.span.start) := by
  refine List.pairwise_append.mpr ⟨?_, List.pairwise_singleton _ _, fun t ht u hu => ?_⟩
  · refine (List.pairwise_iff_getElem.mpr (fun i j hi hj hij => ?_))
    have hstop := List.pairwise_iff_getElem.mp h.pairwise i j hi hj hij
    exact Nat.lt_of_lt_of_le (h.bounds _ (List.getElem_mem hi)).2.1 hstop
  · obtain rfl := List.mem_singleton.mp hu
    obtain ⟨_, hlt, hle⟩ := h.bounds t ht
    exact Nat.lt_of_lt_of_le hlt hle

theorem exists_tape (source : String) : ∃ T : Tape, tokens source = T.tokens ++ [T.finish] := by
  obtain ⟨ts, finish, hts, hcut⟩ := (Scanner.ofText source).cut
  have hfinish : finish.kind = .endOfInput := by
    rw [hcut.finish_eq]
    rfl
  exact ⟨⟨ts, finish, hcut.starts, hcut.kind_ne_endOfInput, hfinish⟩, hts⟩

/-- The number of a step that comes at most once at a token. First a statement may begin there, then
an expression, then a diagnostic may be raised; the cursor moves on before any of these could come
again, unless it is at the end of input. -/
def ReadingStep.moment? : ReadingStep → Option Nat
  | enter .statement _ t => some (3 * t.span.start)
  | enter .expression _ t => some (3 * t.span.start + 1)
  | raise _ t => some (3 * t.span.start + 2)
  | _ => none

/-- What the diagnostic tells is true of the token. -/
def Diagnostic.Names (t : Token) : Diagnostic → Prop
  | unexpected _ found span => found = t.kind ∧ span = t.span
  | noRule found span => found = t.kind ∧ span = t.span
  | integerTooLarge literal span => t.kind = .integer ∧ literal = t.literal ∧ span = t.span

namespace Tape

variable (T : Tape)

def all : List Token := T.tokens ++ [T.finish]

/-- The step takes place at a token, and statements begin before the end of input. A diagnostic names
the token at which it is raised, or says that the one after it is unexpected. -/
def Placed : ReadingStep → Prop
  | .enter .statement _ t => t ∈ T.tokens
  | .enter .expression _ t => t ∈ T.all
  | .raise d t => ∃ before after, T.all = before ++ t :: after ∧
      (d.Names t ∨ ∃ kind,
        d = .unexpected kind (after.headD T.finish).kind (after.headD T.finish).span)
  | _ => True

/-- If both steps have moments, they come in this order. -/
def Follows (later earlier : ReadingStep) : Prop :=
  ∀ k l, earlier.moment? = some k → later.moment? = some l →
    k < l ∨ k = l ∧ l = 3 * T.finish.span.start + 2

/-- The cursor is over the tokens, and its steps are placed and in order. -/
structure Steady (c : Cursor) : Prop where
  finish : c.finish = T.finish
  pending : c.pending <:+ T.tokens
  placed : ∀ s ∈ c.trail, T.Placed s
  ordered : c.trail.Pairwise T.Follows

/-- All moments so far are before the one with this number at the current token. -/
structure Before (i : Nat) (c : Cursor) : Prop extends T.Steady c where
  moments : ∀ s ∈ c.trail, ∀ k, s.moment? = some k → k < 3 * c.current.span.start + i

/-- The current token is not the end of input, and all moments are before the one given. -/
structure At (i : Nat) (c : Cursor) : Prop extends T.Before i c where
  ne_nil : c.pending ≠ []

/-- No diagnostic has been raised at the current token, unless it is the end of input. -/
def Quiet (c : Cursor) : Prop := T.Before 2 c ∨ c.pending = [] ∧ T.Before 3 c

/-- Nothing has happened at the current token, unless it is the end of input. -/
def Ready (c : Cursor) : Prop := T.Before 0 c ∨ c.pending = [] ∧ T.Before 3 c

variable {T} {c : Cursor} {i j : Nat}

theorem placed_of_moment? {s : ReadingStep} (h : s.moment? = none) : T.Placed s := by
  unfold ReadingStep.moment? at h
  split at h <;> first | contradiction | skip
  unfold Placed
  split <;> simp_all

namespace Steady

theorem split (h : T.Steady c) :
    ∃ before after, T.all = before ++ c.current :: after ∧ after.headD T.finish = c.upcoming := by
  obtain ⟨before, hbefore⟩ := h.pending
  cases hp : c.pending with
  | nil =>
    rw [hp, List.append_nil] at hbefore
    exact ⟨before, [], by simp [all, Cursor.current, hp, hbefore, h.finish],
      by simp [Cursor.upcoming, hp, h.finish]⟩
  | cons t ts =>
    rw [hp] at hbefore
    refine ⟨before, ts ++ [T.finish], by simp [all, Cursor.current, hp, ← hbefore], ?_⟩
    cases ts <;> simp [Cursor.upcoming, hp, h.finish]

theorem current_mem (h : T.Steady c) (hp : c.pending ≠ []) : c.current ∈ T.tokens := by
  obtain ⟨t, ts, hts⟩ := List.exists_cons_of_ne_nil hp
  exact h.pending.subset (by simp [Cursor.current, hts])

theorem current_mem_all (h : T.Steady c) : c.current ∈ T.all := by
  obtain ⟨before, after, hall, _⟩ := h.split
  simp [hall]

theorem ne_nil (h : T.Steady c) (hk : c.current.kind ≠ .endOfInput) : c.pending ≠ [] := by
  intro hnil
  rw [Cursor.current, hnil, List.headD_nil, h.finish] at hk
  exact hk T.kind_finish

theorem kind_current (h : T.Steady c) (hp : c.pending = []) : c.current.kind = .endOfInput := by
  rw [Cursor.current, hp, List.headD_nil, h.finish, T.kind_finish]

theorem kind_upcoming (h : T.Steady c) (hp : c.pending = []) : c.upcoming.kind = .endOfInput := by
  rw [Cursor.upcoming, hp, List.tail_nil, List.headD_nil, h.finish, T.kind_finish]

theorem advance (h : T.Steady c) : T.Steady c.advance :=
  ⟨h.finish, (List.tail_suffix _).trans h.pending, h.placed, h.ordered⟩

/-- The current token is before the next one. -/
theorem start_lt (h : T.Steady c) (hp : c.pending ≠ []) :
    c.current.span.start < c.advance.current.span.start := by
  obtain ⟨t, ts, hts⟩ := List.exists_cons_of_ne_nil hp
  obtain ⟨before, hbefore⟩ := h.pending
  have hstarts := T.starts
  rw [← hbefore, hts, List.append_assoc, List.pairwise_append, List.cons_append,
    List.pairwise_cons] at hstarts
  have hcurrent : c.current = t := by simp [Cursor.current, hts]
  have hnext : c.advance.current = (ts ++ [T.finish]).headD T.finish := by
    cases ts <;> simp [Cursor.advance, Cursor.current, hts, h.finish]
  rw [hcurrent, hnext]
  refine hstarts.2.1.1 _ ?_
  cases ts <;> simp

theorem start_finish (h : T.Steady c) (hp : c.pending = []) :
    c.current.span.start = T.finish.span.start := by
  rw [Cursor.current, hp, List.headD_nil, h.finish]

theorem placed_current (h : T.Steady c) {d : Diagnostic} (hd : d.Names c.current) :
    T.Placed (.raise d c.current) := by
  obtain ⟨before, after, hall, _⟩ := h.split
  exact ⟨before, after, hall, .inl hd⟩

theorem placed_upcoming (h : T.Steady c) (kind : TokenKind) :
    T.Placed (.raise (.unexpected kind c.upcoming.kind c.upcoming.span) c.current) := by
  obtain ⟨before, after, hall, hnext⟩ := h.split
  exact ⟨before, after, hall, .inr ⟨kind, by rw [hnext]⟩⟩

theorem cons (h : T.Steady c) {s : ReadingStep} {depth : Nat} (hs : T.Placed s)
    (hfollows : ∀ earlier ∈ c.trail, T.Follows s earlier) :
    T.Steady { c with depth, trail := s :: c.trail } :=
  ⟨h.finish, h.pending, List.forall_mem_cons.mpr ⟨hs, h.placed⟩, .cons hfollows h.ordered⟩

end Steady

namespace Before

theorem mono (h : T.Before i c) (hij : i ≤ j) : T.Before j c :=
  ⟨h.toSteady, fun s hs k hk => Nat.lt_of_lt_of_le (h.moments s hs k hk) (by omega)⟩

theorem advance (h : T.Before 3 c) (hp : c.pending ≠ []) : T.Before 0 c.advance := by
  refine ⟨h.toSteady.advance, fun s hs k hk => ?_⟩
  have hlt := h.toSteady.start_lt hp
  have hk := h.moments s hs k hk
  omega

/-- A step that has no moment. -/
theorem pass (h : T.Before i c) {s : ReadingStep} (hs : s.moment? = none) (depth : Nat) :
    T.Before i { c with depth, trail := s :: c.trail } := by
  refine ⟨h.toSteady.cons (placed_of_moment? hs) (fun earlier _ k l _ hl => ?_), ?_⟩
  · rw [hs] at hl
    contradiction
  · refine List.forall_mem_cons.mpr ⟨fun k hk => ?_, h.moments⟩
    rw [hs] at hk
    contradiction

/-- A step of the next moment at the current token. -/
theorem record (h : T.Before i c) {s : ReadingStep} {depth : Nat}
    (hs : s.moment? = some (3 * c.current.span.start + i)) (hplaced : T.Placed s) :
    T.Before (i + 1) { c with depth, trail := s :: c.trail } := by
  refine ⟨h.toSteady.cons hplaced (fun earlier hearlier k l hk hl => .inl ?_), ?_⟩
  · obtain rfl := Option.some.inj (hs.symm.trans hl)
    exact h.moments earlier hearlier k hk
  · refine List.forall_mem_cons.mpr ⟨fun k hk => ?_, fun s hs k hk => ?_⟩
    · obtain rfl := Option.some.inj (hs.symm.trans hk)
      exact Nat.lt_succ_self _
    · exact Nat.lt_succ_of_lt (h.moments s hs k hk)

end Before

theorem Quiet.spent (h : T.Quiet c) : T.Before 3 c := by
  rcases h with h | ⟨_, h⟩
  · exact h.mono (by decide)
  · exact h

theorem Ready.quiet (h : T.Ready c) : T.Quiet c := h.imp_left (fun h => h.mono (Nat.zero_le 2))

theorem Ready.at (h : T.Ready c) (hk : c.current.kind ≠ .endOfInput) : T.At 0 c := by
  have hp : c.pending ≠ [] := h.quiet.spent.ne_nil hk
  exact ⟨h.resolve_right (fun hnil => hp hnil.1), hp⟩

/-- The end of input may be passed any number of times. -/
theorem Before.ready_advance (h : T.Before 3 c) : T.Ready c.advance := by
  by_cases hp : c.pending = []
  · have hstay : c.advance = c := by
      obtain ⟨pending, finish, depth, trail⟩ := c
      obtain rfl : pending = [] := hp
      rfl
    rw [hstay]
    exact .inr ⟨hp, h⟩
  · exact .inl (h.advance hp)

theorem Before.quiet (h : T.Before i c) (hi : i ≤ 2) : T.Quiet c := .inl (h.mono hi)

theorem At.mono (h : T.At i c) (hij : i ≤ j) : T.At j c := ⟨h.toBefore.mono hij, h.ne_nil⟩

/-- Whatever was raised at the end of input, more may be raised there. -/
theorem Quiet.raise (h : T.Quiet c) {d : Diagnostic} (hd : T.Placed (.raise d c.current)) :
    T.Before 3 (c.raise d) := by
  rcases h with h | ⟨hnil, h⟩
  · exact h.record rfl hd
  · have hfinish := h.toSteady.start_finish hnil
    refine ⟨h.toSteady.cons hd (fun earlier hearlier k l hk hl => ?_), ?_⟩
    · have hlt := h.moments earlier hearlier k hk
      obtain rfl := Option.some.inj hl
      omega
    · refine List.forall_mem_cons.mpr ⟨fun k hk => ?_, h.moments⟩
      obtain rfl := Option.some.inj hk
      exact Nat.lt_succ_self _

end Tape

end Treewalk
