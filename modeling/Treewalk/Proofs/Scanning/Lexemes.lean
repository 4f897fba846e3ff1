import Treewalk.Proofs.Grammar.Layout

namespace Treewalk

/-- Tokens begin with these characters. All others but the blanks are illegal. -/
def StartsToken (c : Char) : Prop :=
  isLetter c = true ∨ c.isDigit = true ∨ c = '"' ∨ ∃ k : TokenKind, k.spelling.head? = some c

/-- Before the characters `after`, the characters `covered` are a whole token of the kind, with the
literal given. A word that is no keyword is a name; a sign says what it is by its spelling. -/
inductive Forms : (kind : TokenKind) → (literal covered after : List Char) → Prop where
  | name {word after : List Char} (hword : IsName (String.ofList word))
      (hafter : ∀ c ∈ after.head?, isLetter c = false) : Forms .identifier word word after
  | number {digits after : List Char} (hdigits : IsNumeral (String.ofList digits))
      (hafter : ∀ c ∈ after.head?, c.isDigit = false) : Forms .integer digits digits after
  | sign {k : TokenKind} {after : List Char} (hk : k.spelling ≠ [])
      (hafter : ∀ c ∈ after.head?, (Terminal.sign k).takesIn c = false) :
      Forms k k.spelling k.spelling after
  | closed {body after : List Char} (hbody : '"' ∉ body) :
      Forms .string body ('"' :: body ++ ['"']) after
  | unclosed {body : List Char} (hbody : '"' ∉ body) : Forms .string body ('"' :: body) []
  | illegal {c : Char} {after : List Char} (hblank : isSpace c = false) (hc : ¬ StartsToken c) :
      Forms .illegal [c] [c] after

namespace Forms

variable {kind : TokenKind} {literal covered after : List Char}

theorem covered_ne_nil (h : Forms kind literal covered after) : covered ≠ [] := by
  cases h with
  | name h _ => simpa using h.1
  | number h _ => simpa using h.1
  | sign h _ => exact h
  | closed _ | unclosed _ | illegal _ _ => simp

theorem kind_ne_endOfInput (h : Forms kind literal covered after) : kind ≠ .endOfInput := by
  cases h with
  | sign h _ =>
    intro hk
    subst hk
    exact h rfl
  | name _ _ | number _ _ | closed _ | unclosed _ | illegal _ _ => simp

end Forms

/-- The characters behind a longest run do not belong to it. -/
theorem head?_dropWhile_eq_false (p : Char → Bool) (cs : List Char) :
    ∀ c ∈ (cs.dropWhile p).head?, p c = false := by
  intro c hc
  have h := List.head?_dropWhile_not p cs
  rw [Option.mem_def.mp hc] at h
  exact h

theorem not_mem_takeWhile_quote (cs : List Char) : '"' ∉ cs.takeWhile (· != '"') := by
  intro h
  simpa using List.mem_takeWhile_imp h

/-- A string runs to the next quote, or to the end where there is none. -/
theorem forms_stringLexeme (cs : List Char) :
    Forms (stringLexeme cs).kind (stringLexeme cs).literal (stringLexeme cs).covered
      (stringLexeme cs).rest := by
  have hbody := not_mem_takeWhile_quote cs
  unfold stringLexeme
  split
  · exact .unclosed hbody
  · next quote rest hd =>
    have hquote : (quote != '"') = false := by
      have hhead := head?_dropWhile_eq_false (· != '"') cs
      rw [hd] at hhead
      exact hhead quote rfl
    obtain rfl : quote = '"' := by simpa using hquote
    exact .closed hbody

theorem takesIn_ofWord {s : String} (h : s ∈ keywords) (c : Char) :
    (Terminal.sign (.ofWord s)).takesIn c = isLetter c := by
  simp only [keywords, List.mem_cons, List.not_mem_nil, or_false] at h
  rcases h with rfl | rfl | rfl | rfl | rfl | rfl | rfl <;> rfl

theorem forms_wordLexeme {c : Char} (h : isLetter c = true) (cs : List Char) :
    Forms (wordLexeme (c :: cs)).kind (wordLexeme (c :: cs)).literal
      (wordLexeme (c :: cs)).covered (wordLexeme (c :: cs)).rest := by
  have hafter := head?_dropWhile_eq_false isLetter (c :: cs)
  have hne : (c :: cs).takeWhile isLetter ≠ [] := by simp [h]
  have hletters : ∀ d ∈ (c :: cs).takeWhile isLetter, isLetter d = true :=
    fun d hd => List.mem_takeWhile_imp hd
  unfold wordLexeme
  generalize (c :: cs).takeWhile isLetter = word at hne hletters
  by_cases hk : String.ofList word ∈ keywords
  · have hspelling := TokenKind.ofWord_of_mem_keywords hk
    rw [String.toList_ofList] at hspelling
    have hstops : ∀ d ∈ ((c :: cs).dropWhile isLetter).head?,
        (Terminal.sign (.ofWord (String.ofList word))).takesIn d = false := by
      intro d hd
      rw [takesIn_ofWord hk]
      exact hafter d hd
    have hsign := Forms.sign (by rwa [hspelling]) hstops
    rwa [hspelling] at hsign
  · have hname : IsName (String.ofList word) := ⟨by simpa using hne, by simpa using hletters, hk⟩
    simp only [TokenKind.ofWord_eq_identifier_iff.mpr hk]
    exact .name hname hafter

theorem forms_numberLexeme {c : Char} (h : c.isDigit = true) (cs : List Char) :
    Forms (numberLexeme (c :: cs)).kind (numberLexeme (c :: cs)).literal
      (numberLexeme (c :: cs)).covered (numberLexeme (c :: cs)).rest := by
  refine .number ⟨by simp [numberLexeme, h], ?_⟩ (head?_dropWhile_eq_false _ _)
  intro d hd
  rw [String.toList_ofList] at hd
  exact List.mem_takeWhile_imp hd

/-- The signs of one character, seen from the characters. -/
theorem ofSymbol?_of_head_spelling {c : Char} {k : TokenKind} (hl : isLetter c = false)
    (h : k.spelling.head? = some c) : TokenKind.ofSymbol? c ≠ none := by
  rcases k.spelling_cases with hn | ⟨hk, _⟩ | hs | rfl | rfl
  · rw [hn] at h
    contradiction
  · simp only [keywords, List.mem_cons, List.not_mem_nil, or_false] at hk
    have hword : ∀ word : List Char, word.head?.all isLetter = true → k.spelling ≠ word := by
      intro word hall hword
      rw [← hword, h] at hall
      simp [hl] at hall
    rcases hk with hk | hk | hk | hk | hk | hk | hk <;>
      exact absurd (String.ofList_injective hk) (hword _ rfl)
  · rw [List.headD_eq_head?_getD, h, Option.getD_some] at hs
    rw [hs]
    simp
  · obtain rfl := Option.some.inj h
    simp [TokenKind.ofSymbol?]
  · obtain rfl := Option.some.inj h
    simp [TokenKind.ofSymbol?]

/-- Of the single characters only two take in another one behind them. -/
theorem eq_of_takesIn_symbol {c d : Char} {k : TokenKind} (hk : TokenKind.ofSymbol? c = some k)
    (hl : isLetter c = false) (h : (Terminal.sign k).takesIn d = true) :
    (c = '=' ∨ c = '!') ∧ d = '=' := by
  have hspelling := TokenKind.ofSymbol?_spelling hk
  unfold Terminal.takesIn at h
  split at h
  all_goals try contradiction
  · next hsign =>
    obtain rfl := Terminal.sign.inj hsign
    exact ⟨.inl (List.singleton_inj.mp hspelling.symm), by simpa using h⟩
  · next hsign =>
    obtain rfl := Terminal.sign.inj hsign
    exact ⟨.inr (List.singleton_inj.mp hspelling.symm), by simpa using h⟩
  · next hsign =>
    obtain rfl := Terminal.sign.inj hsign
    simp [hspelling, hl] at h

theorem forms_symbolLexeme {c : Char} (hblank : isSpace c = false) (hq : c ≠ '"')
    (hl : isLetter c = false) (hd : c.isDigit = false) (cs : List Char) :
    Forms (symbolLexeme c cs).kind (symbolLexeme c cs).literal (symbolLexeme c cs).covered
      (symbolLexeme c cs).rest := by
  unfold symbolLexeme
  split
  · exact Forms.sign (k := .equal) (by simp [TokenKind.spelling]) (fun _ _ => rfl)
  · exact Forms.sign (k := .notEqual) (by simp [TokenKind.spelling]) (fun _ _ => rfl)
  · next heq hne =>
    cases hk : TokenKind.ofSymbol? c with
    | none =>
      refine .illegal hblank (fun hstart => ?_)
      rcases hstart with h | h | h | ⟨k, h⟩
      · rw [h] at hl
        contradiction
      · rw [h] at hd
        contradiction
      · exact hq h
      · exact ofSymbol?_of_head_spelling hl h hk
    | some k =>
      have hspelling := TokenKind.ofSymbol?_spelling hk
      have hstops : ∀ d ∈ cs.head?, (Terminal.sign k).takesIn d = false := by
        intro d hd
        refine Bool.eq_false_iff.mpr (fun htake => ?_)
        obtain ⟨hc, rfl⟩ := eq_of_takesIn_symbol hk hl htake
        obtain ⟨rest, rfl⟩ : ∃ rest, cs = '=' :: rest := List.head?_eq_some_iff.mp hd
        rcases hc with rfl | rfl
        · exact heq rest rfl rfl
        · exact hne rest rfl rfl
      have hsign := Forms.sign (by simp [hspelling]) hstops
      rwa [hspelling] at hsign

theorem forms_lexeme {c : Char} (hblank : isSpace c = false) (cs : List Char) :
    Forms (lexeme c cs).kind (lexeme c cs).literal (lexeme c cs).covered (lexeme c cs).rest := by
  unfold lexeme
  split
  · exact forms_stringLexeme cs
  split
  · next h => exact forms_wordLexeme h cs
  split
  · next h => exact forms_numberLexeme h cs
  · next hq hl hd =>
    exact forms_symbolLexeme hblank (by simpa using hq) (by simpa using hl) (by simpa using hd) cs

end Treewalk
