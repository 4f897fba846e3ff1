import Mathlib.Data.List.Basic
import Treewalk.Proofs.Grammar.Balance
import Treewalk.Proofs.Reading.Pace
import Treewalk.Proofs.Reading.Soundness

namespace Treewalk

open Reader

/-- A token of the kind leads from `o` open braces to `o'`. -/
def TokenKind.Nests : TokenKind → Nat → Nat → Prop
  | .leftBrace, o, o' => o' = o + 1
  | .rightBrace, o, o' => o = o' + 1
  | _, o, o' => o' = o

theorem TokenKind.Nests.eq {k : TokenKind} {o o' : Nat} (h : k.Nests o o') :
    (o' : Int) = o + Bracket.brace.surplus [k] := by
  have hopen : Bracket.brace.surplus [.leftBrace] = 1 := rfl
  have hclose : Bracket.brace.surplus [.rightBrace] = -1 := rfl
  cases k
  case leftBrace =>
    obtain rfl : o' = o + 1 := h
    rw [hopen, Int.natCast_succ]
  case rightBrace =>
    obtain rfl : o = o' + 1 := h
    rw [hclose]
    omega
  all_goals
    obtain rfl : o' = o := h
    exact (Int.add_zero _).symm

/-- What may come behind a text and the braces that close its blocks: more tokens, and the end of
input. -/
structure Sequel where
  tokens : List Token
  finish : Token
  kind_finish : finish.kind = .endOfInput

namespace Sequel

variable (S : Sequel)

/-- If `o` braces are open before the tokens `us`, these tokens may come behind them: a closing
brace for each that is open in the end, or the sequel if none is and the last token is a semicolon.
The brace says the same as the end of input to all rules but the one for blocks. -/
inductive Behind (o : Nat) (us : List Token) : List Token → Prop where
  | braces {left : List Token} (hnil : S.tokens = []) (hall : ∀ t ∈ left, t.kind = .rightBrace)
      (hcount : (left.length : Int) = o + Bracket.brace.surplus (us.map Token.kind)) :
    Behind o us left
  | seam (hcount : o + Bracket.brace.surplus (us.map Token.kind) = 0)
      (hlast : ∀ t ∈ us.getLast?, t.kind = .semicolon) : Behind o us S.tokens

/-- The second list of tokens is the first one with what may come behind it. -/
def At (o : Nat) (us vs : List Token) : Prop := ∃ left, vs = us ++ left ∧ S.Behind o us left

/-- Both lists begin with the same token. -/
def On (o : Nat) (t : Token) (us vs : List Token) : Prop := S.At o us vs ∧ us.head? = some t

/-- The first token of each list is done with. If nothing follows it in the first list, a brace or
nothing follows in the second. -/
structure Ended (o : Nat) (us vs : List Token) : Prop where
  behind : S.At o us.tail vs.tail
  inert : us.tail = [] → ∀ t ∈ vs.tail.head?, t.kind = .rightBrace

variable {S} {o o' : Nat} {t : Token} {us vs left : List Token} {k : TokenKind}

theorem Behind.cons (h : S.Behind o (t :: us) left) (hn : t.kind.Nests o o') :
    S.Behind o' us left := by
  have hlevel := hn.eq
  cases h with
  | braces hnil hall hcount =>
    rw [List.map_cons, Bracket.surplus_cons] at hcount
    exact .braces hnil hall (by omega)
  | seam hcount hlast =>
    rw [List.map_cons, Bracket.surplus_cons] at hcount
    exact .seam (by omega) (fun u hu => hlast u (List.mem_getLast?_cons hu))

/-- At the end of a block that stays open its closing brace comes behind. -/
theorem Behind.closing (h : S.Behind (o + 1) [] left) : ∃ brace braces, left = brace :: braces ∧
    brace.kind = .rightBrace ∧ (∀ t ∈ braces, t.kind = .rightBrace) ∧ S.Behind o [] braces := by
  cases h with
  | braces hnil hall hcount =>
    simp only [List.map_nil, Bracket.surplus_nil] at hcount
    cases left with
    | nil =>
      rw [List.length_nil] at hcount
      omega
    | cons brace braces =>
      obtain ⟨hbrace, hbraces⟩ := List.forall_mem_cons.mp hall
      rw [List.length_cons] at hcount
      refine ⟨brace, braces, rfl, hbrace, hbraces, .braces hnil hbraces ?_⟩
      simp only [List.map_nil, Bracket.surplus_nil]
      omega
  | seam hcount _ =>
    simp only [List.map_nil, Bracket.surplus_nil] at hcount
    omega

theorem Behind.eq_tokens (h : S.Behind 0 [] left) : left = S.tokens := by
  cases h with
  | braces hnil _ hcount =>
    simp only [List.map_nil, Bracket.surplus_nil] at hcount
    rw [hnil]
    exact List.length_eq_zero_iff.mp (by omega)
  | seam _ _ => rfl

theorem Behind.inert (h : S.Behind o [t] left) (ht : t.kind ≠ .semicolon) :
    ∀ u ∈ left.head?, u.kind = .rightBrace := by
  cases h with
  | braces _ hall _ => exact fun u hu => hall u (List.mem_of_mem_head? hu)
  | seam _ hlast => exact absurd (hlast t rfl) ht

theorem On.past (h : S.On o t us vs) (hk : t.kind = k) (hn : k.Nests o o') :
    S.At o' us.tail vs.tail := by
  obtain ⟨⟨left, rfl, hbehind⟩, hhead⟩ := h
  obtain ⟨us, rfl⟩ := List.head?_eq_some_iff.mp hhead
  exact ⟨left, rfl, hbehind.cons (hk ▸ hn)⟩

theorem On.ended (h : S.On o t us vs) (hk : t.kind = k) (hn : k.Nests o o')
    (hs : k ≠ .semicolon) : S.Ended o' us vs := by
  refine ⟨h.past hk hn, fun hnil => ?_⟩
  obtain ⟨⟨left, rfl, hbehind⟩, hhead⟩ := h
  obtain ⟨us, rfl⟩ := List.head?_eq_some_iff.mp hhead
  obtain rfl : us = [] := hnil
  exact hbehind.inert (by rw [hk]; exact hs)

/-- Before a token that both see. -/
theorem On.ended_before (h : S.On o t us.tail vs.tail) : S.Ended o us vs := by
  refine ⟨h.1, fun hnil => ?_⟩
  have hhead := h.2
  rw [hnil] at hhead
  contradiction

theorem At.eq_nil_or_on (h : S.At o us vs) : us = [] ∨ ∃ t, S.On o t us vs := by
  cases us with
  | nil => exact .inl rfl
  | cons t us => exact .inr ⟨t, h, rfl⟩

section
variable {c d : Cursor}

theorem On.current_eq (h : S.On o t c.pending d.pending) : c.current = t ∧ d.current = t := by
  obtain ⟨⟨left, hleft, _⟩, hhead⟩ := h
  obtain ⟨us, hus⟩ := List.head?_eq_some_iff.mp hhead
  rw [hus] at hleft
  simp [Cursor.current, hus, hleft]

theorem On.upcoming_eq (h : S.On o t c.pending.tail d.pending.tail) :
    c.upcoming = t ∧ d.upcoming = t := On.current_eq (c := c.advance) (d := d.advance) h

theorem On.kind_ne (h : S.On o t us vs) (hs : ∀ u ∈ us, u.Sound) : t.kind ≠ .endOfInput :=
  (hs t (List.mem_of_mem_head? h.2)).kind_ne_endOfInput

/-- Both see the same next token, or the one sees the end of input and the other a brace or the end
of input. -/
theorem Ended.upcoming (h : S.Ended o c.pending d.pending) (hc : c.Sound)
    (hd : d.finish = S.finish) :
    (∃ t, t.kind ≠ .endOfInput ∧ S.On o t c.pending.tail d.pending.tail) ∨
      c.upcoming.kind = .endOfInput ∧
        (d.upcoming.kind = .rightBrace ∨ d.upcoming.kind = .endOfInput) := by
  rcases h.behind.eq_nil_or_on with hnil | ⟨t, hon⟩
  · refine .inr ⟨by rw [Cursor.upcoming, hnil]; exact hc.finish, ?_⟩
    have hinert := h.inert hnil
    unfold Cursor.upcoming
    cases hv : d.pending.tail with
    | nil => exact .inr (by rw [List.headD_nil, hd, S.kind_finish])
    | cons v vs => exact .inl (hinert v (by rw [hv]; rfl))
  · exact .inl ⟨t, hon.kind_ne (fun u hu => hc.pending u (List.mem_of_mem_tail hu)), hon⟩

end

end Sequel

theorem Reader.quiet_of_bind {α β : Type} {p : Reader α} {f : α → Reader β} {c : Cursor}
    (h : ((p >>= f) c).2.raised = c.raised) : (p c).2.raised = c.raised := by
  have hon := p.onward c
  cases hr : p.run c with
  | mk result c' =>
    rw [hr] at hon
    cases result with
    | none =>
      rw [bind_of_none hr] at h
      exact h
    | some a =>
      rw [bind_of_some hr] at h
      have hmid := ((f a).onward c').raised
      rw [h] at hmid
      exact hmid.eq_of_length_le hon.raised.length_le

/-- The first cursor has at most so many tokens left. If the first action raises nothing there, both
have the same result, the second one raises nothing either, and `Q` holds of what is left. -/
def Reader.Concur {α : Type} (S : Sequel) (bound : Nat) (P : List Token → List Token → Prop)
    (p q : Reader α) (Q : List Token → List Token → Prop) : Prop :=
  ∀ c d, c.Sound → d.finish = S.finish → P c.pending d.pending → c.pending.length ≤ bound →
    (p c).2.raised = c.raised → ∃ a, (p c).1 = some a ∧ (q d).1 = some a ∧
      (q d).2.raised = d.raised ∧ (q d).2.depth = d.depth ∧ Q (p c).2.pending (q d).2.pending

/-- The action finds fault with the end of input. -/
def Reader.Starves {α : Type} (p : Reader α) : Prop := Accepts p [] (fun _ _ => False)

namespace Reader.Concur

variable {S : Sequel} {α β : Type} {b : Nat} {o : Nat} {t : Token} {k : TokenKind}
  {P P' Q R : List Token → List Token → Prop} {p q : Reader α} {f g : α → Reader β}

theorem pre (hP : ∀ us vs, P' us vs → P us vs) (h : Concur S b P p q Q) : Concur S b P' p q Q :=
  fun c d hc hd hP' => h c d hc hd (hP _ _ hP')

theorem mono {b' : Nat} (h : Concur S b P p q Q) (hb : b' ≤ b) : Concur S b' P p q Q :=
  fun c d hc hd hP hb' => h c d hc hd hP (Nat.le_trans hb' hb)

theorem weaken (h : Concur S (b + 1) P p q Q) : Concur S b P p q Q := h.mono (Nat.le_succ b)

theorem pure {a : α} (h : ∀ us vs, P us vs → Q us vs) :
    Concur S b P (Pure.pure a) (Pure.pure a) Q :=
  fun _ _ _ _ hP _ _ => ⟨a, rfl, rfl, rfl, rfl, h _ _ hP⟩

theorem raise {d : Diagnostic} : Concur S b P (raise d : Reader α) q Q := by
  intro c _ _ _ _ _ hquiet
  simp at hquiet

theorem bind (hp : Concur S b P p q Q) (hf : ∀ a, Concur S b Q (f a) (g a) R) :
    Concur S b P (p >>= f) (q >>= g) R := by
  intro c d hc hd hP hb hquiet
  have hon := p.onward c
  have hfirst := quiet_of_bind hquiet
  obtain ⟨a, hpa, hqa, hraised, hdepth, hQ⟩ := hp c d hc hd hP hb hfirst
  have hpc : p c = (some a, (p c).2) := Prod.ext hpa rfl
  have hqd : q d = (some a, (q d).2) := Prod.ext hqa rfl
  rw [bind_of_some hpc] at hquiet ⊢
  rw [bind_of_some hqd]
  obtain ⟨b, hfb, hgb, hraised', hdepth', hR⟩ := hf a _ _ (hc.onward hon)
    ((q.onward d).finish.trans hd) hQ (Nat.le_trans hon.pending.length_le hb)
    (hquiet.trans hfirst.symm)
  exact ⟨b, hfb, hgb, hraised'.trans hraised, hdepth'.trans hdepth, hR⟩

/-- Where the first action finds fault, there is nothing to compare. -/
theorem of_faulty (cond : List Terminal → Prop)
    (hp : ∀ ws, cond ws → Accepts p ws (fun _ _ => False))
    (h : Concur S b (fun us vs => P us vs ∧ ¬ cond (us.map Token.terminal)) p q Q) :
    Concur S b P p q Q := by
  intro c d hc hd hP hb hquiet
  refine h c d hc hd ⟨hP, fun hcond => ?_⟩ hb hquiet
  obtain ⟨_, _, hfalse⟩ := hp _ hcond c hc rfl hquiet
  exact hfalse

theorem of_on (hp : p.Starves) (h : ∀ t, Concur S b (S.On o t) p q Q) :
    Concur S b (S.At o) p q Q := by
  refine of_faulty (· = []) (fun ws hnil => hnil ▸ hp) ?_
  rintro c d hc hd ⟨hat, hne⟩ hb hquiet
  obtain ⟨t, hon⟩ := hat.eq_nil_or_on.resolve_left (fun hnil => hne (by rw [hnil]; rfl))
  exact h t c d hc hd hon hb hquiet

theorem within {routine : Routine} (h : Concur S b P p q Q) :
    Concur S b P (within routine p) (within routine q) Q := by
  intro c d hc hd hP hb hquiet
  obtain ⟨a, hpa, hqa, hraised, hdepth, hQ⟩ := h (c.enter routine) (d.enter routine)
    (hc.onward (c.onward_enter routine)) hd hP hb hquiet
  exact ⟨a, hpa, hqa, hraised, congrArg (· - 1) hdepth, hQ⟩

theorem current_bind {f g : Token → Reader β} (hf : Concur S b (S.On o t) (f t) (g t) R) :
    Concur S b (S.On o t) (current >>= f) (current >>= g) R := by
  intro c d hc hd hon hb hquiet
  obtain ⟨hcurrent, hcurrent'⟩ := hon.current_eq
  rw [bind_of_some (current_apply c), hcurrent] at hquiet ⊢
  rw [bind_of_some (current_apply d), hcurrent']
  exact hf c d hc hd hon hb hquiet

theorem advance_bind {f g : Unit → Reader β} (hf : Concur S b P (f ()) (g ()) R) :
    Concur S (b + 1) (fun us vs => P us.tail vs.tail) (advance >>= f) (advance >>= g) R := by
  intro c d hc hd hP hb hquiet
  rw [bind_of_some (advance_apply c)] at hquiet ⊢
  rw [bind_of_some (advance_apply d)]
  refine hf c.advance d.advance (hc.onward c.onward_advance) hd hP ?_ hquiet
  rw [Cursor.advance, List.length_tail]
  omega

/-- The next token, which there is. -/
theorem next_bind {f g : Token → Reader β}
    (hf : ∀ t, t.kind ≠ .endOfInput →
      Concur S b (fun us vs => S.On o t us.tail vs.tail) (f t) (g t) R) :
    Concur S b (fun us vs => S.At o us.tail vs.tail ∧ us.tail ≠ []) (upcoming >>= f)
      (upcoming >>= g) R := by
  rintro c d hc hd ⟨hat, hne⟩ hb hquiet
  obtain ⟨t, hon⟩ := hat.eq_nil_or_on.resolve_left hne
  obtain ⟨hupcoming, hupcoming'⟩ := hon.upcoming_eq
  have hk := hon.kind_ne (fun u hu => hc.pending u (List.mem_of_mem_tail hu))
  rw [bind_of_some (upcoming_apply c), hupcoming] at hquiet ⊢
  rw [bind_of_some (upcoming_apply d), hupcoming']
  exact hf t hk c d hc hd hon hb hquiet

theorem upcoming_bind {f g : Token → Reader β}
    (hf : ∀ t, t.kind ≠ .endOfInput →
      Concur S b (fun us vs => S.On o t us.tail vs.tail) (f t) (g t) R)
    (hend : ∀ t u, t.kind = .endOfInput → u.kind = .rightBrace ∨ u.kind = .endOfInput →
      Concur S b (S.Ended o) (f t) (g u) R) :
    Concur S b (S.Ended o) (upcoming >>= f) (upcoming >>= g) R := by
  intro c d hc hd hended hb hquiet
  rcases hended.upcoming hc hd with ⟨t, _, hon⟩ | ⟨hk, hk'⟩
  · refine next_bind hf c d hc hd ⟨hended.behind, fun hnil => ?_⟩ hb hquiet
    have hhead := hon.2
    rw [hnil] at hhead
    contradiction
  · rw [bind_of_some (upcoming_apply c)] at hquiet ⊢
    rw [bind_of_some (upcoming_apply d)]
    exact hend _ _ hk hk' c d hc hd hended hb hquiet

theorem expect_bind (hk : k ≠ .endOfInput) {f g : Unit → Reader β}
    (hf : ∀ t, t.kind = k → Concur S b (S.On o t) (f ()) (g ()) R) :
    Concur S (b + 1) (S.Ended o) (expect k >>= f) (expect k >>= g) R := by
  intro c d hc hd hended hb hquiet
  by_cases hu : c.upcoming.kind = k
  · obtain ⟨t, _, hon⟩ := (hended.upcoming hc hd).resolve_right
      (fun hend => hk (hu.symm.trans hend.1))
    obtain ⟨hupcoming, hupcoming'⟩ := hon.upcoming_eq
    have ht : t.kind = k := hupcoming ▸ hu
    have hstep := advance_bind (hf t ht) c d hc hd hon hb
    rw [bind_of_some (expect_apply_of_eq hu)] at hquiet ⊢
    rw [bind_of_some (expect_apply_of_eq (by rw [hupcoming', ht]))]
    exact hstep hquiet
  · rw [bind_of_none (expect_apply_of_ne hu)] at hquiet
    simp at hquiet

theorem skip_bind (hk : k ≠ .endOfInput) (hbrace : k ≠ .rightBrace) {f g : Unit → Reader β}
    (hf : ∀ t, t.kind = k → Concur S b (S.On o t) (f ()) (g ()) R)
    (hstay : Concur S b (S.Ended o) (f ()) (g ()) R) :
    Concur S b (S.Ended o) (skip k >>= f) (skip k >>= g) R := by
  intro c d hc hd hended hb hquiet
  rw [bind_of_some (skip_apply k c)] at hquiet ⊢
  rw [bind_of_some (skip_apply k d)]
  rcases hended.upcoming hc hd with ⟨t, _, hon⟩ | ⟨hend, hend'⟩
  · obtain ⟨hupcoming, hupcoming'⟩ := hon.upcoming_eq
    rw [hupcoming] at hquiet ⊢
    rw [hupcoming']
    by_cases ht : t.kind = k
    · rw [if_pos ht] at hquiet ⊢
      rw [if_pos ht]
      exact hf t ht c.advance d.advance (hc.onward c.onward_advance) hd hon
        (Nat.le_trans c.onward_advance.pending.length_le hb) hquiet
    · rw [if_neg ht] at hquiet ⊢
      rw [if_neg ht]
      exact hstay c d hc hd hended hb hquiet
  · have hne : ¬ c.upcoming.kind = k := fun heq => hk (heq.symm.trans hend)
    have hne' : ¬ d.upcoming.kind = k := by
      rcases hend' with heq | heq <;> rw [heq]
      · exact hbrace.symm
      · exact hk.symm
    rw [if_neg hne] at hquiet ⊢
    rw [if_neg hne']
    exact hstay c d hc hd hended hb hquiet

end Reader.Concur

end Treewalk
