import Treewalk.Proofs.Scanning.Lexemes

namespace Treewalk

theorem byteWidth_toList (s : String) : byteWidth s.toList = s.utf8ByteSize := by
  have hwidth : ∀ cs : List Char, byteWidth cs = (String.ofList cs).utf8ByteSize := by
    intro cs
    induction cs with
    | nil => rfl
    | cons c cs ih =>
      have hcons : String.ofList (c :: cs) = String.singleton c ++ String.ofList cs := by
        rw [String.singleton_eq_ofList, ← String.ofList_append]
        rfl
      rw [hcons, String.utf8ByteSize_append, String.utf8ByteSize_singleton, byteWidth_cons, ih]
  rw [hwidth, String.ofList_toList]

theorem byteWidth_pos {cs : List Char} (h : cs ≠ []) : 0 < byteWidth cs := by
  cases cs with
  | nil => contradiction
  | cons c cs =>
    have := c.utf8Size_pos
    rw [byteWidth_cons]
    omega

/-- Where in two lists after one another an element stands. -/
theorem at_or_behind {α : Type} {xs ys before after : List α} {a : α}
    (h : xs ++ ys = before ++ a :: after) :
    (∃ tail, xs = before ++ a :: tail) ∨ ∃ front, before = xs ++ front ∧ ys = front ++ a :: after := by
  rcases List.append_eq_append_iff.mp h with ⟨front, hbefore, hys⟩ | ⟨tail, hxs, hafter⟩
  · exact .inr ⟨front, hbefore, hys⟩
  · cases tail with
    | nil => exact .inr ⟨[], by simpa using hxs.symm, by simpa using hafter.symm⟩
    | cons b tail =>
      obtain ⟨rfl, _⟩ := List.cons.inj hafter
      exact .inl ⟨tail, hxs⟩

/-- The characters, of which the first has `offset` bytes before it, are the texts of the tokens with
blanks before and between them and behind the last, where the token `finish` stands. -/
inductive Cut : (offset : Nat) → List Char → List Token → (finish : Token) → Prop where
  | blanks {offset : Nat} {gap : List Char} (hgap : ∀ c ∈ gap, isSpace c = true) :
      Cut offset gap [] (.atEnd (offset + byteWidth gap))
  | token {offset : Nat} {gap covered after : List Char} {t finish : Token} {ts : List Token}
      (hgap : ∀ c ∈ gap, isSpace c = true)
      (hstart : t.span.start = offset + byteWidth gap)
      (hstop : t.span.stop = t.span.start + byteWidth covered)
      (hforms : Forms t.kind t.literal.toList covered after)
      (rest : Cut t.span.stop after ts finish) :
      Cut offset (gap ++ covered ++ after) (t :: ts) finish

namespace Cut

variable {offset : Nat} {cs : List Char} {ts : List Token} {finish : Token}

theorem finish_eq (h : Cut offset cs ts finish) : finish = .atEnd (offset + byteWidth cs) := by
  induction h with
  | blanks _ => rfl
  | token _ hstart hstop _ _ ih =>
    rw [ih, hstop, hstart]
    simp only [byteWidth_append, Nat.add_assoc]

theorem kind_ne_endOfInput (h : Cut offset cs ts finish) : ∀ t ∈ ts, t.kind ≠ .endOfInput := by
  induction h with
  | blanks _ => simp
  | token _ _ _ hforms _ ih => exact List.forall_mem_cons.mpr ⟨hforms.kind_ne_endOfInput, ih⟩

theorem bounds (h : Cut offset cs ts finish) :
    ∀ t ∈ ts, offset ≤ t.span.start ∧ t.span.start < t.span.stop ∧
      t.span.stop ≤ finish.span.start := by
  rw [h.finish_eq]
  induction h with
  | blanks _ => simp
  | @token offset gap covered after t _ _ _ hstart hstop hforms _ ih =>
    have hpos := byteWidth_pos hforms.covered_ne_nil
    have hend : t.span.stop + byteWidth after = offset + byteWidth (gap ++ covered ++ after) := by
      simp only [byteWidth_append]
      omega
    rw [hend] at ih
    refine List.forall_mem_cons.mpr ⟨⟨by omega, by omega, ?_⟩, fun u hu => ?_⟩
    · show t.span.stop ≤ _
      rw [← hend]
      exact Nat.le_add_right _ _
    · obtain ⟨hle, hrest⟩ := ih u hu
      exact ⟨by omega, hrest⟩

theorem pairwise (h : Cut offset cs ts finish) :
    ts.Pairwise (fun t u => t.span.stop ≤ u.span.start) := by
  induction h with
  | blanks _ => exact .nil
  | token _ _ _ _ rest ih => exact .cons (fun u hu => (rest.bounds u hu).1) ih

/-- Every token is found at its place in the text. -/
theorem forms_of_mem (h : Cut offset cs ts finish) :
    ∀ t ∈ ts, ∃ before covered after, cs = before ++ covered ++ after ∧
      t.span = ⟨offset + byteWidth before, offset + byteWidth (before ++ covered)⟩ ∧
      Forms t.kind t.literal.toList covered after := by
  induction h with
  | blanks _ => simp
  | @token offset gap covered after t _ _ _ hstart hstop hforms _ ih =>
    refine List.forall_mem_cons.mpr ⟨⟨gap, covered, after, rfl, ?_, hforms⟩, fun u hu => ?_⟩
    · rw [byteWidth_append, ← Nat.add_assoc, ← hstart, ← hstop]
    · obtain ⟨before, covered', after', rfl, hspan, hforms'⟩ := ih u hu
      refine ⟨gap ++ covered ++ before, covered', after', by simp only [List.append_assoc], ?_, hforms'⟩
      rw [hspan, hstop, hstart]
      simp only [byteWidth_append, Nat.add_assoc]

/-- A character outside the tokens is a blank. -/
theorem isSpace_or_covered (h : Cut offset cs ts finish) {before after : List Char} {c : Char}
    (hcs : cs = before ++ c :: after) :
    isSpace c = true ∨ ∃ t ∈ ts, t.span.start ≤ offset + byteWidth before ∧
      offset + byteWidth before + c.utf8Size ≤ t.span.stop := by
  induction h generalizing before with
  | blanks hgap => exact .inl (hgap c (by simp [hcs]))
  | @token offset gap covered rest t _ _ hgap hstart hstop _ _ ih =>
    rw [List.append_assoc] at hcs
    rcases at_or_behind hcs with ⟨tail, rfl⟩ | ⟨front, rfl, hfront⟩
    · exact .inl (hgap c (by simp))
    rcases at_or_behind hfront with ⟨tail, rfl⟩ | ⟨before, rfl, hbefore⟩
    · simp only [byteWidth_append, byteWidth_cons] at hstop
      refine .inr ⟨t, by simp, ?_, ?_⟩ <;> rw [byteWidth_append] <;> omega
    · have hplace : offset + byteWidth (gap ++ (covered ++ before)) =
          t.span.stop + byteWidth before := by
        simp only [byteWidth_append]
        omega
      rw [hplace]
      rcases ih hbefore with hblank | ⟨u, hu, hcovers⟩
      · exact .inl hblank
      · exact .inr ⟨u, List.mem_cons_of_mem _ hu, hcovers⟩

end Cut

theorem Scanner.cut (s : Scanner) :
    ∃ ts finish, s.toList = ts ++ [finish] ∧ Cut s.offset s.rest ts finish := by
  induction hn : s.rest.length using Nat.strongRecOn generalizing s with
  | ind n ih =>
    have hsplit := List.takeWhile_append_dropWhile (p := isSpace) (l := s.rest)
    have hgap : ∀ c ∈ s.rest.takeWhile isSpace, isSpace c = true :=
      fun c hc => List.mem_takeWhile_imp hc
    rw [s.toList_eq]
    cases hd : s.rest.dropWhile isSpace with
    | nil =>
      have hend := s.isEnd_next_iff.mpr hd
      have htoken : s.next.1 = .atEnd (s.offset + byteWidth (s.rest.takeWhile isSpace)) := by
        simp [next, hd]
      rw [hd, List.append_nil] at hsplit
      rw [hsplit] at htoken hgap
      exact ⟨[], s.next.1, by simp [hend], htoken ▸ .blanks hgap⟩
    | cons c cs =>
      have hend : s.next.1.isEnd = false := by
        rw [Bool.eq_false_iff]
        intro hend
        rw [s.isEnd_next_iff.mp hend] at hd
        contradiction
      obtain ⟨ts, finish, hts, hcut⟩ := ih _ (hn ▸ length_next_rest_lt hend) s.next.2 rfl
      have hblank : isSpace c = false := by
        have hhead := head?_dropWhile_eq_false isSpace s.rest
        rw [hd] at hhead
        exact hhead c rfl
      -- The scanner passes the blanks and then what the lexeme covers.
      have hnext : s.next =
          (⟨(lexeme c cs).kind, String.ofList (lexeme c cs).literal,
            ⟨s.offset + byteWidth (s.rest.takeWhile isSpace),
              s.offset + byteWidth (s.rest.takeWhile isSpace) + byteWidth (lexeme c cs).covered⟩⟩,
            ⟨(lexeme c cs).rest,
              s.offset + byteWidth (s.rest.takeWhile isSpace) + byteWidth (lexeme c cs).covered⟩) := by
        simp [next, hd]
      refine ⟨s.next.1 :: ts, finish, by simp [hend, hts], ?_⟩
      rw [← hsplit, hd, ← lexeme_covers c cs, ← List.append_assoc]
      rw [hnext] at hcut ⊢
      exact .token hgap rfl rfl (by simpa using forms_lexeme hblank cs) hcut

namespace TokenStream

/-- What the stream hands out until it has nothing more. -/
inductive Yields : TokenStream → List Token → Prop where
  | nothing {s : TokenStream} (h : s.next?.1 = none) : Yields s []
  | token {s : TokenStream} {t : Token} {ts : List Token} (h : s.next?.1 = some t)
      (rest : Yields s.next?.2 ts) : Yields s (t :: ts)

theorem yields_toList (source : String) (scanner : Scanner) :
    Yields ⟨source, scanner, false⟩ scanner.toList := by
  induction hn : scanner.rest.length using Nat.strongRecOn generalizing scanner with
  | ind n ih =>
    rw [scanner.toList_eq]
    refine .token rfl ?_
    have hnext : (next? ⟨source, scanner, false⟩).2 =
        ⟨source, scanner.next.2, scanner.next.1.isEnd⟩ := rfl
    rw [hnext]
    cases hend : scanner.next.1.isEnd with
    | true => exact .nothing rfl
    | false => exact ih _ (hn ▸ Scanner.length_next_rest_lt hend) _ rfl

end TokenStream

/-- The stream over a text hands out finitely many tokens. The last one, and no other, is the end of
input, behind the whole text. The others are in order and apart; each covers a part of the text that
forms a token of its kind and literal and of which no longer part does; and every character outside
of them is a blank. -/
theorem tokens_lossless (source : String) :
    (TokenStream.ofText source).Yields (tokens source) ∧
    ∃ ts, tokens source = ts ++ [.atEnd source.utf8ByteSize] ∧
      (∀ t ∈ ts, t.kind ≠ .endOfInput) ∧
      ts.Pairwise (fun t u => t.span.stop ≤ u.span.start) ∧
      (∀ t ∈ ts, t.span.start < t.span.stop ∧
        ∃ before covered after, source.toList = before ++ covered ++ after ∧
          t.span = ⟨byteWidth before, byteWidth (before ++ covered)⟩ ∧
          Forms t.kind t.literal.toList covered after) ∧
      ∀ before c after, source.toList = before ++ c :: after →
        isSpace c = true ∨ ∃ t ∈ ts, t.span.start ≤ byteWidth before ∧
          byteWidth before + c.utf8Size ≤ t.span.stop := by
  obtain ⟨ts, finish, hts, hcut⟩ := (Scanner.ofText source).cut
  have hfinish : finish = .atEnd source.utf8ByteSize := by
    rw [hcut.finish_eq, Scanner.ofText, Nat.zero_add, byteWidth_toList]
  refine ⟨TokenStream.yields_toList source _, ts, by rw [tokens, hts, hfinish],
    hcut.kind_ne_endOfInput, hcut.pairwise, fun t ht => ⟨(hcut.bounds t ht).2.1, ?_⟩, ?_⟩
  · simpa [Scanner.ofText] using hcut.forms_of_mem t ht
  · intro before c after hsource
    simpa [Scanner.ofText] using hcut.isSpace_or_covered hsource

end Treewalk
