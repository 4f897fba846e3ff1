import Treewalk.Proofs.Scanning.Seams

namespace Treewalk

/-- A string that no quote closes: its opening quote and its literal are all that the text has from
there on. -/
def Token.IsUnclosed (source : String) (t : Token) : Prop :=
  t.kind = .string ∧ ∃ before, source.toList = before ++ '"' :: t.literal.toList ∧
    t.span = ⟨byteWidth before, source.utf8ByteSize⟩

def lastString? (ts : List Token) : Option Token := (ts.filter (·.kind == .string)).getLast?

namespace Cut

variable {offset : Nat} {cs : List Char} {ts : List Token} {finish : Token}

/-- An odd number of quotes leaves the last token open, and it is a string. -/
theorem unclosed_of_odd (h : Cut offset cs ts finish) (hodd : ¬ Even (cs.count '"')) :
    ∃ us t before, ts = us ++ [t] ∧ t.kind = .string ∧ cs = before ++ '"' :: t.literal.toList ∧
      t.span = ⟨offset + byteWidth before, offset + byteWidth cs⟩ := by
  induction h with
  | blanks hgap =>
    rw [count_quote_of_blank hgap] at hodd
    exact absurd Even.zero hodd
  | @token offset gap covered after t _ ts hgap hstart hstop hforms rest ih =>
    rcases hforms.even_or_unclosed with heven | ⟨hk, rfl, _, rfl⟩
    · obtain ⟨us, u, before, rfl, hk, hafter, hspan⟩ :=
        ih (fun hrest => hodd ((even_count_quote hgap heven).mpr hrest))
      refine ⟨t :: us, u, gap ++ covered ++ before, rfl, hk, ?_, ?_⟩
      · rw [hafter, List.append_assoc _ before]
      · rw [hspan, hstop, hstart]
        simp only [byteWidth_append, Nat.add_assoc]
    · refine ⟨[], t, gap, ?_, hk, by rw [List.append_nil], ?_⟩
      · rw [rest.eq_nil_of_nil]
        rfl
      · rw [List.append_nil, byteWidth_append, ← Nat.add_assoc, ← hstart, ← hstop]

/-- A string that covers only one quote has none after it, so it makes their number odd. -/
theorem odd_of_unclosed (h : Cut offset cs ts finish) : ∀ t ∈ ts, t.kind = .string →
    t.span.stop = t.span.start + byteWidth ('"' :: t.literal.toList) →
    ¬ Even (cs.count '"') := by
  induction h with
  | blanks _ => simp
  | @token offset gap covered after t _ ts hgap hstart hstop hforms rest ih =>
    refine List.forall_mem_cons.mpr ⟨fun hk hwidth => ?_, fun u hu hk hwidth => ?_⟩
    · have hcovered : byteWidth covered = byteWidth ('"' :: t.literal.toList) := by omega
      rw [hk] at hforms
      generalize t.literal.toList = literal at hforms hcovered
      cases hforms with
      | sign hspelling _ => exact absurd rfl hspelling
      | closed _ =>
        -- With a quote at its end the token would be wider.
        rw [byteWidth_append] at hcovered
        have hpos := byteWidth_pos (List.cons_ne_nil '"' [])
        omega
      | unclosed hbody => exact not_even_count_unclosed hgap hbody
    · rcases hforms.even_or_unclosed with heven | ⟨_, _, _, rfl⟩
      · exact fun hall => ih u hu hk hwidth ((even_count_quote hgap heven).mp hall)
      · rw [rest.eq_nil_of_nil] at hu
        contradiction

end Cut

theorem Token.shift_shift (t : Token) (m n : Nat) : (t.shift m).shift n = t.shift (n + m) := by
  simp only [shift, Span.shift, Nat.add_assoc, Nat.add_comm m n]

/-- Behind a blank outside of strings, any text has the tokens that it has alone. -/
theorem tokens_append_of_blank {a b : String} {ts us : List Token} {finish finish' : Token}
    (ha : tokens a = ts ++ [finish]) (heven : Even (a.toList.count '"'))
    (hblank : ∀ c ∈ b.toList.head?, isSpace c = true) (hb : tokens b = us ++ [finish']) :
    tokens (a ++ b) =
      ts ++ us.map (·.shift a.utf8ByteSize) ++ [finish'.shift a.utf8ByteSize] :=
  tokens_append_of_parted ha heven (fun _ _ w _ c hc => w.takesIn_of_isSpace (hblank c hc)) hb

/-- Blanks have no tokens, and move those of the text behind them. -/
theorem tokens_blank_append {w t : String} (hblank : ∀ c ∈ w.toList, isSpace c = true) :
    tokens (w ++ t) = (tokens t).map (·.shift w.utf8ByteSize) := by
  have hw : tokens w = [] ++ [.atEnd (0 + byteWidth w.toList)] := tokens_of_cut (.blanks hblank)
  have heven : Even (w.toList.count '"') := by
    rw [count_quote_of_blank hblank]
    exact Even.zero
  obtain ⟨us, finish, ht, _⟩ := exists_cut t
  rw [tokens_append_of_parted hw heven (by simp) ht, ht, List.map_append]
  rfl

theorem lastString?_isUnclosed_iff (source : String) :
    (∃ t, lastString? (tokens source) = some t ∧ t.IsUnclosed source) ↔
      ¬ Even (source.toList.count '"') := by
  obtain ⟨ts, finish, hts, hcut⟩ := exists_cut source
  have hfinish : finish.kind = .endOfInput := by
    rw [hcut.finish_eq]
    rfl
  have hlast : lastString? (tokens source) = lastString? ts := by
    simp [hts, lastString?, List.filter_append, hfinish]
  rw [hlast]
  constructor
  · rintro ⟨t, ht, hk, before, hsource, hspan⟩
    have hmem : t ∈ ts := (List.mem_filter.mp (List.mem_of_getLast? ht)).1
    refine hcut.odd_of_unclosed t hmem hk ?_
    rw [hspan, ← byteWidth_append, ← hsource, byteWidth_toList]
  · intro hodd
    obtain ⟨us, t, before, rfl, hk, hsource, hspan⟩ := hcut.unclosed_of_odd hodd
    rw [Nat.zero_add, Nat.zero_add, byteWidth_toList] at hspan
    exact ⟨t, by simp [lastString?, List.filter_append, hk], hk, before, hsource, hspan⟩

/-- Scanning is compositional: a text that closes its strings, blanks and any other text have the
tokens of the one up to its end and those of the other, at moved places. And a text leaves its last
string open exactly if the number of its quotes is odd. -/
theorem tokens_compositional :
    (∀ s w t : String, Even (s.toList.count '"') → w ≠ "" →
      (∀ c ∈ w.toList, isSpace c = true) →
      ∃ ts, tokens s = ts ++ [.atEnd s.utf8ByteSize] ∧
        tokens (s ++ w ++ t) = ts ++ (tokens t).map (·.shift (s ++ w).utf8ByteSize)) ∧
    ∀ source : String, (∃ t, lastString? (tokens source) = some t ∧ t.IsUnclosed source) ↔
      ¬ Even (source.toList.count '"') := by
  refine ⟨fun s w t heven hw hblank => ?_, lastString?_isUnclosed_iff⟩
  obtain ⟨ts, finish, hs, hcut⟩ := exists_cut s
  obtain ⟨us, finish', hwt, _⟩ := exists_cut (w ++ t)
  have hhead : ∀ c ∈ (w ++ t).toList.head?, isSpace c = true := by
    intro c hc
    rw [String.toList_append, List.head?_append_of_ne_nil _ (by simpa using hw)] at hc
    exact hblank c (List.mem_of_head? hc)
  have hmoved : us.map (·.shift s.utf8ByteSize) ++ [finish'.shift s.utf8ByteSize] =
      (tokens t).map (·.shift (s ++ w).utf8ByteSize) := calc
    _ = (tokens (w ++ t)).map (·.shift s.utf8ByteSize) := by rw [hwt, List.map_append]; rfl
    _ = (tokens t).map (·.shift (s ++ w).utf8ByteSize) := by
      rw [tokens_blank_append hblank, List.map_map, String.utf8ByteSize_append]
      exact List.map_congr_left (fun u _ => u.shift_shift _ _)
  refine ⟨ts, ?_, ?_⟩
  · rw [hs, hcut.finish_eq, Nat.zero_add, byteWidth_toList]
  · rw [String.append_assoc, tokens_append_of_blank hs heven hhead hwt, List.append_assoc, hmoved]

/-- A text of which the quotes are two, with a blank between them, and behind it one of which they
are odd. -/
theorem tokens_compositional_quoted :
    let s := "é==\"a b\""
    let t := "=\"a b"
    Even (s.toList.count '"') ∧ " \n" ≠ "" ∧ (∀ c ∈ " \n".toList, isSpace c = true) ∧
      tokens (s ++ " \n" ++ t) =
        (tokens s).dropLast ++ (tokens t).map (·.shift (s ++ " \n").utf8ByteSize) ∧
      ∃ u, lastString? (tokens t) = some u ∧ u.IsUnclosed t := by
  intro s t
  have heven : Even (s.toList.count '"') := by decide
  have hodd : ¬ Even (t.toList.count '"') := by decide
  have hblank : ∀ c ∈ " \n".toList, isSpace c = true := List.all_eq_true.mp rfl
  obtain ⟨ts, hts, htokens⟩ := tokens_compositional.1 s " \n" t heven (by decide) hblank
  refine ⟨heven, by decide, hblank, ?_, (tokens_compositional.2 t).mpr hodd⟩
  rw [htokens, hts, List.dropLast_concat]

end Treewalk
