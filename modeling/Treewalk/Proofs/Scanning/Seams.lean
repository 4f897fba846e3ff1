import Mathlib.Algebra.Ring.Parity
import Mathlib.Data.List.Basic
import Treewalk.Proofs.Scanning.Brackets
import Treewalk.Proofs.Scanning.Gaps

namespace Treewalk

/-- A token has an even number of quotes, unless it is a string without an end. -/
theorem Forms.even_or_unclosed {kind : TokenKind} {literal covered after : List Char}
    (h : Forms kind literal covered after) : Even (covered.count '"') ∨
      kind = .string ∧ covered = '"' :: literal ∧ '"' ∉ literal ∧ after = [] := by
  have hnone : ∀ {cs : List Char}, (∀ c ∈ cs, c ≠ '"') → Even (cs.count '"') := by
    intro cs hcs
    rw [List.count_eq_zero.mpr (fun hmem => hcs _ hmem rfl)]
    exact Even.zero
  cases h with
  | name hword _ =>
    exact .inl (hnone (fun c hc => (other_of_isLetter (hword.2.1 c (by simpa using hc))).2))
  | number hdigits _ =>
    exact .inl (hnone (fun c hc => (other_of_isDigit (hdigits.2 c (by simpa using hc))).2))
  | sign _ _ => exact .inl (by cases kind <;> decide)
  | closed hbody =>
    refine .inl ?_
    rw [List.cons_append, List.count_cons_self, List.count_append, List.count_eq_zero.mpr hbody]
    decide
  | unclosed hbody => exact .inr ⟨rfl, rfl, hbody, rfl⟩
  | illegal _ hc => exact .inl (hnone (by simpa using (other_of_not_startsToken hc).2))

theorem count_quote_of_blank {gap : List Char} (h : ∀ c ∈ gap, isSpace c = true) :
    gap.count '"' = 0 :=
  List.count_eq_zero.mpr (fun hmem => (other_of_isSpace (h _ hmem)).2 rfl)

/-- Whether the quotes are even in number is a matter of what follows the first token, unless that
is a string without an end. -/
theorem even_count_quote {gap covered after : List Char} (hgap : ∀ c ∈ gap, isSpace c = true)
    (heven : Even (covered.count '"')) :
    Even ((gap ++ covered ++ after).count '"') ↔ Even (after.count '"') := by
  rw [List.count_append, List.count_append, count_quote_of_blank hgap, Nat.zero_add, Nat.even_add]
  exact iff_true_left heven

theorem not_even_count_unclosed {gap literal : List Char} (hgap : ∀ c ∈ gap, isSpace c = true)
    (h : '"' ∉ literal) : ¬ Even ((gap ++ '"' :: literal ++ []).count '"') := by
  rw [List.append_nil, List.count_append, count_quote_of_blank hgap, List.count_cons_self,
    List.count_eq_zero.mpr h]
  decide

/-- A token that has an even number of quotes stays what it is in a text that goes on, unless it is
the last one and takes in what comes behind. -/
theorem Forms.append {kind : TokenKind} {literal covered after behind : List Char}
    (h : Forms kind literal covered after) (heven : Even (covered.count '"'))
    (hbehind : after = [] → ∀ w : Terminal, w.kind = kind →
      ∀ c ∈ behind.head?, w.takesIn c = false) :
    Forms kind literal covered (after ++ behind) := by
  have hstops : ∀ w : Terminal, w.kind = kind → (∀ c ∈ after.head?, w.takesIn c = false) →
      ∀ c ∈ (after ++ behind).head?, w.takesIn c = false := by
    intro w hw hafter
    cases after with
    | nil => exact hbehind rfl w hw
    | cons d ds => exact hafter
  cases h with
  | name hword hafter => exact .name hword (hstops (.name "") rfl hafter)
  | number hdigits hafter => exact .number hdigits (hstops (.number "") rfl hafter)
  | sign hk hafter => exact .sign hk (hstops _ rfl hafter)
  | closed hbody => exact .closed hbody
  | unclosed hbody =>
    rw [List.count_cons_self, List.count_eq_zero.mpr hbody] at heven
    exact absurd heven (by decide)
  | illegal hblank hc => exact .illegal hblank hc

theorem Terminal.takesIn_rightBrace (w : Terminal) : w.takesIn '}' = false := by
  unfold takesIn
  split <;> simp [isLetter]

theorem Terminal.takesIn_of_semicolon {w : Terminal} (h : w.kind = .semicolon) (c : Char) :
    w.takesIn c = false := by
  cases w with
  | sign k =>
    obtain rfl : k = .semicolon := h
    rfl
  | name _ | number _ | quoted _ => contradiction

namespace Cut

variable {offset : Nat} {cs : List Char} {ts : List Token} {finish : Token}

/-- Only a string at the end makes the number of quotes odd. -/
theorem even_of_last (h : Cut offset cs ts finish)
    (hlast : ∀ t ∈ ts.getLast?, t.kind ≠ .string) : Even (cs.count '"') := by
  induction h with
  | blanks hgap =>
    rw [count_quote_of_blank hgap]
    exact Even.zero
  | @token _ _ _ _ t _ ts hgap _ _ hforms rest ih =>
    rcases hforms.even_or_unclosed with heven | ⟨hk, _, _, rfl⟩
    · exact (even_count_quote hgap heven).mpr
        (ih (fun u hu => hlast u (List.mem_getLast?_cons hu)))
    · rw [rest.eq_nil_of_nil] at hlast
      exact absurd hk (hlast t rfl)

/-- In front of another text, of which the last token takes in nothing. -/
theorem append (h : Cut offset cs ts finish) (heven : Even (cs.count '"')) {behind : List Char}
    (hlast : ∀ t ∈ ts.getLast?, ∀ w : Terminal, w.kind = t.kind →
      ∀ c ∈ behind.head?, w.takesIn c = false)
    {us : List Token} {finish' : Token} (h' : Cut (offset + byteWidth cs) behind us finish') :
    Cut offset (cs ++ behind) (ts ++ us) finish' := by
  induction h with
  | @blanks offset gap hgap =>
    cases h' with
    | blanks hblank =>
      rw [Nat.add_assoc, ← byteWidth_append]
      exact .blanks (List.forall_mem_append.mpr ⟨hgap, hblank⟩)
    | token hblank hstart hstop hforms rest =>
      rw [← List.append_assoc, ← List.append_assoc]
      refine .token (List.forall_mem_append.mpr ⟨hgap, hblank⟩) ?_ hstop hforms rest
      rw [hstart, byteWidth_append, Nat.add_assoc]
  | @token offset gap covered after t _ ts hgap hstart hstop hforms rest ih =>
    rcases hforms.even_or_unclosed with hcovered | ⟨_, hunclosed, hliteral, rfl⟩
    · have hplace : offset + byteWidth (gap ++ covered ++ after) =
          t.span.stop + byteWidth after := by
        simp only [byteWidth_append]
        omega
      rw [List.append_assoc]
      refine .token hgap hstart hstop (hforms.append hcovered (fun hnil => ?_))
        (ih ((even_count_quote hgap hcovered).mp heven)
          (fun u hu => hlast u (List.mem_getLast?_cons hu)) (hplace ▸ h'))
      subst hnil
      rw [rest.eq_nil_of_nil] at hlast
      exact hlast t rfl
    · rw [hunclosed] at heven
      exact absurd heven (not_even_count_unclosed hgap hliteral)

/-- An odd number of quotes leaves a string open, and one quote more closes it. -/
theorem close_quote (h : Cut offset cs ts finish) (hodd : ¬ Even (cs.count '"')) :
    ∃ ts' finish', Cut offset (cs ++ ['"']) ts' finish' ∧
      ts'.map Token.content = ts.map Token.content := by
  induction h with
  | blanks hgap =>
    rw [count_quote_of_blank hgap] at hodd
    exact absurd Even.zero hodd
  | @token offset gap covered after t _ ts hgap hstart hstop hforms rest ih =>
    rcases hforms.even_or_unclosed with hcovered | ⟨hk, rfl, hliteral, rfl⟩
    · have hafter : ¬ Even (after.count '"') :=
        fun heven => hodd ((even_count_quote hgap hcovered).mpr heven)
      obtain ⟨ts', finish', hcut, hcontent⟩ := ih hafter
      have hne : after ≠ [] := by
        rintro rfl
        exact hafter Even.zero
      refine ⟨t :: ts', finish', ?_, congrArg (t.content :: ·) hcontent⟩
      rw [List.append_assoc]
      exact .token hgap hstart hstop (hforms.append hcovered (fun hnil => absurd hnil hne)) hcut
    · rw [rest.eq_nil_of_nil]
      have hclosed : Forms t.kind t.literal.toList ('"' :: t.literal.toList ++ ['"']) [] :=
        hk ▸ .closed hliteral
      have hsplit : gap ++ '"' :: t.literal.toList ++ [] ++ ['"'] =
          gap ++ ('"' :: t.literal.toList ++ ['"']) ++ [] := by simp
      rw [hsplit]
      exact token_moved offset hgap hclosed (fun place => ⟨[], _, .blanks (by simp), rfl⟩)

theorem shift (h : Cut offset cs ts finish) (n : Nat) :
    Cut (offset + n) cs (ts.map (·.shift n)) (finish.shift n) := by
  induction h with
  | @blanks offset gap hgap =>
    have hend : (Token.atEnd (offset + byteWidth gap)).shift n =
        .atEnd (offset + n + byteWidth gap) := by
      rw [Nat.add_right_comm]
      rfl
    rw [hend]
    exact .blanks hgap
  | @token offset gap covered after t finish ts hgap hstart hstop hforms rest ih =>
    refine .token hgap ?_ ?_ hforms ih
    · show t.span.start + n = _
      rw [hstart, Nat.add_right_comm]
    · show t.span.stop + n = t.span.start + n + _
      rw [hstop, Nat.add_right_comm]

end Cut

theorem exists_cut_braces (k offset : Nat) :
    ∃ us finish, Cut offset (List.replicate k '}') us finish ∧ us.length = k ∧
      ∀ t ∈ us, t.kind = .rightBrace := by
  induction k generalizing offset with
  | zero => exact ⟨[], _, .blanks (by simp), rfl, by simp⟩
  | succ k ih =>
    obtain ⟨us, finish, hcut, hlen, hall⟩ := ih (offset + 1)
    let brace : Token := ⟨.rightBrace, String.ofList ['}'], ⟨offset, offset + 1⟩⟩
    refine ⟨brace :: us, finish, ?_, congrArg (· + 1) hlen, List.forall_mem_cons.mpr ⟨rfl, hall⟩⟩
    have hgap : ∀ c ∈ ([] : List Char), isSpace c = true := by simp
    have hforms : Forms brace.kind brace.literal.toList ['}'] (List.replicate k '}') := by
      rw [String.toList_ofList]
      exact Forms.sign (k := .rightBrace) (by decide) (fun _ _ => rfl)
    have hstop : brace.span.stop = brace.span.start + byteWidth ['}'] := rfl
    exact .token hgap rfl hstop hforms hcut

theorem exists_cut (source : String) : ∃ ts finish, tokens source = ts ++ [finish] ∧
    Cut 0 source.toList ts finish := (Scanner.ofText source).cut

theorem tokens_of_cut {source : String} {ts : List Token} {finish : Token}
    (h : Cut 0 source.toList ts finish) : tokens source = ts ++ [finish] := h.toList_eq

theorem cut_of_tokens {source : String} {ts : List Token} {finish : Token}
    (h : tokens source = ts ++ [finish]) : Cut 0 source.toList ts finish := by
  obtain ⟨ts', finish', hts', hcut⟩ := exists_cut source
  obtain ⟨rfl, hfinish⟩ := List.append_inj' (h.symm.trans hts') rfl
  rwa [List.singleton_inj.mp hfinish]

/-- The tokens of a text behind another one are those that it has alone, at moved places, if the
last token of the first text takes in nothing of it. -/
theorem tokens_append_of_parted {a b : String} {ts us : List Token} {finish finish' : Token}
    (ha : tokens a = ts ++ [finish]) (heven : Even (a.toList.count '"'))
    (hlast : ∀ t ∈ ts.getLast?, ∀ w : Terminal, w.kind = t.kind →
      ∀ c ∈ b.toList.head?, w.takesIn c = false)
    (hb : tokens b = us ++ [finish']) :
    tokens (a ++ b) =
      ts ++ us.map (·.shift a.utf8ByteSize) ++ [finish'.shift a.utf8ByteSize] := by
  have hmoved := (cut_of_tokens hb).shift a.utf8ByteSize
  refine tokens_of_cut ?_
  rw [String.toList_append]
  refine (cut_of_tokens ha).append heven hlast ?_
  rw [byteWidth_toList]
  exact hmoved

end Treewalk
