import Treewalk.Proofs.Scanning.Cut

namespace Treewalk

/-- What a token is, wherever it stands. -/
def Token.content (t : Token) : TokenKind × String := (t.kind, t.literal)

theorem isLetter_of_mem_keywords {s : String} (h : s ∈ keywords) :
    ∀ c ∈ s.toList, isLetter c = true := by
  simp only [keywords, List.mem_cons, List.not_mem_nil, or_false] at h
  rcases h with rfl | rfl | rfl | rfl | rfl | rfl | rfl <;> exact List.all_eq_true.mp (by decide)

theorem lexeme_word {c : Char} {cs after : List Char} (h : ∀ d ∈ c :: cs, isLetter d = true)
    (hafter : ∀ d ∈ after.head?, isLetter d = false) :
    isSpace c = false ∧ lexeme c (cs ++ after) =
      ⟨.ofWord (String.ofList (c :: cs)), c :: cs, c :: cs, after⟩ := by
  have hc : isLetter c = true := h c List.mem_cons_self
  refine ⟨isSpace_eq_false_of_isLetter hc, ?_⟩
  rw [lexeme_of_isLetter hc, ← List.cons_append, wordLexeme_append h hafter]

theorem lexeme_illegal {c : Char} (h : ¬ StartsToken c) (cs : List Char) :
    lexeme c cs = ⟨.illegal, [c], [c], cs⟩ := by
  have hquote : (c == '"') = false := by
    refine Bool.eq_false_iff.mpr (fun hc => h (.inr (.inr (.inl ?_))))
    exact eq_of_beq hc
  have hletter : isLetter c = false := Bool.eq_false_iff.mpr (fun hc => h (.inl hc))
  have hdigit : c.isDigit = false := Bool.eq_false_iff.mpr (fun hc => h (.inr (.inl hc)))
  have hsymbol : TokenKind.ofSymbol? c = none := by
    refine Option.eq_none_iff_forall_not_mem.mpr (fun k hk => h (.inr (.inr (.inr ⟨k, ?_⟩))))
    rw [TokenKind.ofSymbol?_spelling hk]
    rfl
  simp only [lexeme, hquote, hletter, hdigit, Bool.false_eq_true, if_false]
  unfold symbolLexeme
  split
  · contradiction
  · contradiction
  · rw [hsymbol]
    rfl

theorem Forms.lexeme_eq {kind : TokenKind} {literal covered after : List Char}
    (h : Forms kind literal covered after) : ∃ c cs, covered = c :: cs ∧ isSpace c = false ∧
      lexeme c (cs ++ after) = ⟨kind, literal, covered, after⟩ := by
  cases h with
  | name hword hafter =>
    obtain ⟨hne, hletters, hkeyword⟩ := hword
    rw [String.toList_ofList] at hne hletters
    obtain ⟨c, cs, rfl⟩ := List.exists_cons_of_ne_nil hne
    obtain ⟨hspace, hlexeme⟩ := lexeme_word hletters hafter
    rw [TokenKind.ofWord_eq_identifier_iff.mpr hkeyword] at hlexeme
    exact ⟨c, cs, rfl, hspace, hlexeme⟩
  | number hdigits hafter =>
    obtain ⟨hne, hall⟩ := hdigits
    rw [String.toList_ofList] at hne hall
    obtain ⟨c, cs, rfl⟩ := List.exists_cons_of_ne_nil hne
    have hc : c.isDigit = true := hall c List.mem_cons_self
    refine ⟨c, cs, rfl, (isDigit_not_other hc).2.2, ?_⟩
    rw [lexeme_of_isDigit hc, ← List.cons_append, numberLexeme_append hall hafter]
  | sign hk hafter =>
    rcases kind.spelling_cases with hnil | ⟨hkeyword, hword⟩ | hsymbol | rfl | rfl
    · exact absurd hnil hk
    · have hletters := isLetter_of_mem_keywords hkeyword
      rw [String.toList_ofList] at hletters
      have hstops : ∀ d ∈ after.head?, isLetter d = false := by
        intro d hd
        rw [← takesIn_ofWord hkeyword, hword]
        exact hafter d hd
      obtain ⟨c, cs, hspelling⟩ := List.exists_cons_of_ne_nil hk
      rw [hspelling] at hletters hword ⊢
      obtain ⟨hspace, hlexeme⟩ := lexeme_word hletters hstops
      rw [hword] at hlexeme
      exact ⟨c, cs, rfl, hspace, hlexeme⟩
    · obtain ⟨hspace, hlexeme⟩ := lexeme_of_ofSymbol? hsymbol after
      rw [TokenKind.ofSymbol?_spelling hsymbol]
      exact ⟨_, [], rfl, hspace, hlexeme.trans (symbolLexeme_of_parted hsymbol hafter)⟩
    · exact ⟨'=', ['='], rfl, rfl, rfl⟩
    · exact ⟨'!', ['='], rfl, rfl, rfl⟩
  | closed hbody =>
    refine ⟨'"', literal ++ ['"'], rfl, rfl, ?_⟩
    rw [List.append_assoc]
    exact stringLexeme_append hbody
  | unclosed hbody =>
    have hall : ∀ c ∈ literal, (c != '"') = true := by
      intro c hc
      exact bne_iff_ne.mpr (fun hquote => hbody (hquote ▸ hc))
    obtain ⟨htake, hdrop⟩ := takeWhile_append_of_stop [] hall (by simp)
    have hstring : stringLexeme (literal ++ []) = ⟨.string, literal, '"' :: literal, []⟩ := by
      simp only [stringLexeme, htake, hdrop]
    exact ⟨'"', literal, rfl, rfl, hstring⟩
  | @illegal c _ hspace hc => exact ⟨c, [], rfl, hspace, lexeme_illegal hc after⟩

theorem Scanner.next_of_forms {t : Token} {offset : Nat} {gap covered after : List Char}
    (hgap : ∀ c ∈ gap, isSpace c = true) (hstart : t.span.start = offset + byteWidth gap)
    (hstop : t.span.stop = t.span.start + byteWidth covered)
    (hforms : Forms t.kind t.literal.toList covered after) :
    Scanner.next ⟨gap ++ covered ++ after, offset⟩ = (t, ⟨after, t.span.stop⟩) := by
  obtain ⟨c, cs, rfl, hspace, hlexeme⟩ := hforms.lexeme_eq
  obtain ⟨htake, hdrop⟩ :=
    takeWhile_append_of_stop (c :: (cs ++ after)) hgap (by simpa using hspace)
  have hsplit : gap ++ c :: cs ++ after = gap ++ c :: (cs ++ after) := by simp
  obtain ⟨kind, literal, start, stop⟩ := t
  simp only at hstart hstop hlexeme
  unfold next
  simp only [hsplit, htake, hdrop, hlexeme, String.ofList_toList, ← hstart, ← hstop]

/-- The scanner makes any cut that there is. -/
theorem Cut.toList_eq {offset : Nat} {cs : List Char} {ts : List Token} {finish : Token}
    (h : Cut offset cs ts finish) : Scanner.toList ⟨cs, offset⟩ = ts ++ [finish] := by
  induction h with
  | @blanks offset gap hgap =>
    have hdrop : gap.dropWhile isSpace = [] := List.dropWhile_eq_nil_iff.mpr hgap
    have htake : gap.takeWhile isSpace = gap := by
      simpa [hdrop] using List.takeWhile_append_dropWhile (p := isSpace) (l := gap)
    have hnext : Scanner.next ⟨gap, offset⟩ =
        (.atEnd (offset + byteWidth gap), ⟨[], offset + byteWidth gap⟩) := by
      simp [Scanner.next, hdrop, htake]
    rw [Scanner.toList_eq, hnext]
    rfl
  | token hgap hstart hstop hforms _ ih =>
    have hend := hforms.kind_ne_endOfInput
    rw [Scanner.toList_eq, Scanner.next_of_forms hgap hstart hstop hforms]
    simp [Token.isEnd, hend, ih]

section
variable {gap gap' : List Char} (hgap' : ∀ c ∈ gap', isSpace c = true) (hne : gap ≠ [])
  (hne' : gap' ≠ [])
include hgap' hne hne'

/-- A token stays if blanks somewhere behind it are exchanged. A string without an end would take
them in. -/
theorem Forms.regap {kind : TokenKind} {literal covered mid after : List Char}
    (h : Forms kind literal covered (mid ++ gap ++ after)) :
    Forms kind literal covered (mid ++ gap' ++ after) := by
  have hstops : ∀ w : Terminal, (∀ c ∈ (mid ++ gap ++ after).head?, w.takesIn c = false) →
      ∀ c ∈ (mid ++ gap' ++ after).head?, w.takesIn c = false := by
    intro w hw c hc
    cases mid with
    | nil =>
      obtain ⟨d, ds, rfl⟩ := List.exists_cons_of_ne_nil hne'
      obtain rfl := Option.some.inj hc
      exact w.takesIn_of_isSpace (hgap' d List.mem_cons_self)
    | cons d ds => exact hw c hc
  generalize hafter : mid ++ gap ++ after = behind at h hstops
  cases h with
  | name hword hstop => exact .name hword (hstops (.name "") hstop)
  | number hdigits hstop => exact .number hdigits (hstops (.number "") hstop)
  | sign hk hstop => exact .sign hk (hstops _ hstop)
  | closed hbody => exact .closed hbody
  | unclosed _ => simp [hne] at hafter
  | illegal hspace hc => exact .illegal hspace hc

end

/-- Of two beginnings of a text the shorter one is a beginning of the other. -/
theorem exists_append_of_byteWidth_le {xs ys zs ws : List Char} (h : xs ++ ys = zs ++ ws)
    (hle : byteWidth xs ≤ byteWidth zs) : ∃ mid, zs = xs ++ mid ∧ ys = mid ++ ws := by
  rcases List.append_eq_append_iff.mp h with ⟨mid, hzs, hys⟩ | ⟨mid, hxs, hws⟩
  · exact ⟨mid, hzs, hys⟩
  · have hmid : mid = [] := by
      refine Classical.byContradiction (fun hne => ?_)
      have hpos := byteWidth_pos hne
      rw [hxs, byteWidth_append] at hle
      omega
    subst hmid
    exact ⟨[], by simpa using hxs.symm, by simpa using hws.symm⟩

namespace Cut

variable {offset : Nat} {cs : List Char} {ts : List Token} {finish : Token}

theorem content_finish (h : Cut offset cs ts finish) : finish.content = (.endOfInput, "") := by
  rw [h.finish_eq]
  rfl

/-- A token that is moved, and what follows it. -/
theorem token_moved {gap covered after : List Char} {t : Token} (offset' : Nat)
    (hgap : ∀ c ∈ gap, isSpace c = true) (hforms : Forms t.kind t.literal.toList covered after)
    (hrest : ∀ place, ∃ ts' finish', Cut place after ts' finish' ∧
      ts'.map Token.content = ts.map Token.content) :
    ∃ ts' finish', Cut offset' (gap ++ covered ++ after) ts' finish' ∧
      ts'.map Token.content = (t :: ts).map Token.content := by
  obtain ⟨start, hstart⟩ : ∃ start, start = offset' + byteWidth gap := ⟨_, rfl⟩
  obtain ⟨ts', finish', hcut, hcontent⟩ := hrest (start + byteWidth covered)
  exact ⟨⟨t.kind, t.literal, start, start + byteWidth covered⟩ :: ts', finish',
    .token hgap hstart rfl hforms hcut, congrArg (t.content :: ·) hcontent⟩

/-- At another place a text is cut into the same tokens. -/
theorem elsewhere (h : Cut offset cs ts finish) (offset' : Nat) : ∃ ts' finish',
    Cut offset' cs ts' finish' ∧ ts'.map Token.content = ts.map Token.content := by
  induction h generalizing offset' with
  | blanks hgap => exact ⟨[], _, .blanks hgap, rfl⟩
  | token hgap _ _ hforms _ ih => exact token_moved offset' hgap hforms ih

/-- Blanks that no token touches may be exchanged. -/
theorem regap {gap gap' after : List Char} (hgap' : ∀ c ∈ gap', isSpace c = true) (hne : gap ≠ [])
    (hne' : gap' ≠ []) (h : Cut offset cs ts finish) {before : List Char}
    (hcs : cs = before ++ gap ++ after)
    (hclear : ∀ t ∈ ts, t.span.stop ≤ offset + byteWidth before ∨
      offset + byteWidth (before ++ gap) ≤ t.span.start) : ∃ ts' finish',
    Cut offset (before ++ gap' ++ after) ts' finish' ∧
      ts'.map Token.content = ts.map Token.content := by
  induction h generalizing before with
  | blanks hall =>
    refine ⟨[], _, .blanks ?_, rfl⟩
    simp only [hcs, List.mem_append] at hall ⊢
    grind
  | @token offset blank covered behind t finish ts hblank hstart hstop hforms rest ih =>
    rw [List.append_assoc] at hcs
    rcases hclear t List.mem_cons_self with hfront | hback
    · -- The token stands before the exchanged blanks and stays where it is.
      have hle : byteWidth (blank ++ covered) ≤ byteWidth before := by
        rw [byteWidth_append]
        omega
      rw [← List.append_assoc, List.append_assoc before] at hcs
      obtain ⟨mid, rfl, hmid⟩ := exists_append_of_byteWidth_le hcs hle
      rw [← List.append_assoc] at hmid
      have hplace : ∀ xs, offset + byteWidth (blank ++ covered ++ xs) =
          t.span.stop + byteWidth xs := by
        intro xs
        simp only [byteWidth_append]
        omega
      obtain ⟨ts', finish', hcut, hcontent⟩ := ih hmid (fun u hu => by
        rw [← hplace, ← hplace, ← List.append_assoc]
        exact hclear u (List.mem_cons_of_mem _ hu))
      refine ⟨t :: ts', finish', ?_, congrArg (t.content :: ·) hcontent⟩
      have hforms' := Forms.regap hgap' hne hne' (hmid ▸ hforms)
      have hsplit : blank ++ covered ++ mid ++ gap' ++ after =
          blank ++ covered ++ (mid ++ gap' ++ after) := by
        simp only [List.append_assoc]
      rw [hsplit]
      exact .token hblank hstart hstop hforms' hcut
    · -- The exchanged blanks stand before the token, so they are among those that precede it.
      have hle : byteWidth (before ++ gap) ≤ byteWidth blank := by omega
      obtain ⟨mid, rfl, hmid⟩ := exists_append_of_byteWidth_le hcs.symm hle
      have hall : ∀ c ∈ before ++ gap' ++ mid, isSpace c = true := by
        simp only [List.mem_append] at hblank ⊢
        grind
      have hsplit : before ++ gap' ++ after = before ++ gap' ++ mid ++ covered ++ behind := by
        rw [hmid]
        simp only [List.append_assoc]
      rw [hsplit]
      exact token_moved offset hall hforms rest.elsewhere

end Cut

/-- Blanks between tokens may be exchanged for others: the tokens keep their kinds and literals. -/
theorem tokens_regap {before gap gap' after : List Char} (hgap' : ∀ c ∈ gap', isSpace c = true)
    (hne : gap ≠ []) (hne' : gap' ≠ [])
    (hclear : ∀ t ∈ tokens (String.ofList (before ++ gap ++ after)),
      t.span.stop ≤ byteWidth before ∨ byteWidth (before ++ gap) ≤ t.span.start) :
    (tokens (String.ofList (before ++ gap' ++ after))).map Token.content =
      (tokens (String.ofList (before ++ gap ++ after))).map Token.content := by
  obtain ⟨ts, finish, hts, hcut⟩ := (Scanner.ofText (String.ofList (before ++ gap ++ after))).cut
  rw [tokens, tokens, hts]
  rw [tokens, hts] at hclear
  simp only [Scanner.ofText, String.toList_ofList] at hcut ⊢
  obtain ⟨ts', finish', hcut', hcontent⟩ := hcut.regap hgap' hne hne' rfl (fun t ht => by
    simpa only [Nat.zero_add] using hclear t (List.mem_append_left _ ht))
  rw [hcut'.toList_eq, List.map_append, List.map_append, hcontent, List.map_singleton,
    List.map_singleton, hcut.content_finish, hcut'.content_finish]

end Treewalk
