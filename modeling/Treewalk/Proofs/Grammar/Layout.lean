import Mathlib.Data.List.TakeWhile
import Treewalk.Proofs.Grammar.Terminals

namespace Treewalk

/-- The characters that a terminal is written with. -/
def Terminal.chars : Terminal → List Char
  | name s => s.toList
  | number digits => digits.toList
  | quoted s => '"' :: (s.toList ++ ['"'])
  | sign k => k.spelling

/-- Whether the character would belong to the terminal if it came right behind it. -/
def Terminal.takesIn : Terminal → Char → Bool
  | name _, c => isLetter c
  | number _, c => c.isDigit
  | quoted _, _ => false
  | sign .assign, c => c == '='
  | sign .bang, c => c == '='
  | sign k, c => k.spelling.all isLetter && isLetter c

/-- Terminals one after the other, with blanks before and between them and behind the last. What may
stand right behind a terminal is a matter of `behind`. -/
inductive Laid (behind : Terminal → List Char → Prop) : List Terminal → List Char → Prop where
  | blanks {cs : List Char} (h : ∀ c ∈ cs, isSpace c = true) : Laid behind [] cs
  | terminal {gap cs : List Char} {w : Terminal} {ws : List Terminal}
      (h : ∀ c ∈ gap, isSpace c = true) (hw : behind w cs) (rest : Laid behind ws cs) :
    Laid behind (w :: ws) (gap ++ w.chars ++ cs)

/-- Behind every terminal there is a blank or the end of the text. -/
abbrev Spaced : List Terminal → List Char → Prop :=
  Laid (fun _ cs => ∀ c ∈ cs.head?, isSpace c = true)

/-- No terminal takes in the character behind it. -/
abbrev Parted : List Terminal → List Char → Prop :=
  Laid (fun w cs => ∀ c ∈ cs.head?, w.takesIn c = false)

theorem Laid.mono {p q : Terminal → List Char → Prop} (hpq : ∀ w cs, p w cs → q w cs)
    {ws : List Terminal} {cs : List Char} (h : Laid p ws cs) : Laid q ws cs := by
  induction h with
  | blanks h => exact .blanks h
  | terminal h hw _ ih => exact .terminal h (hpq _ _ hw) ih

theorem Laid.blank {p : Terminal → List Char → Prop} {ws : List Terminal} {cs : List Char}
    (h : Laid p ws cs) {c : Char} (hc : isSpace c = true) : Laid p ws (c :: cs) := by
  cases h with
  | blanks h => exact .blanks (List.forall_mem_cons.mpr ⟨hc, h⟩)
  | @terminal gap _ _ _ h hw rest =>
    have hgap : ∀ d ∈ c :: gap, isSpace d = true := List.forall_mem_cons.mpr ⟨hc, h⟩
    exact .terminal hgap hw rest

/-- One blank behind every terminal is enough. -/
theorem spaced_flatMap (ws : List Terminal) :
    Spaced ws (ws.flatMap (fun w => w.chars ++ [' '])) := by
  induction ws with
  | nil => exact .blanks (by simp)
  | cons w ws ih =>
    rw [List.flatMap_cons, List.append_assoc]
    have hgap : ∀ c ∈ ([] : List Char), isSpace c = true := by simp
    exact .terminal hgap (by simp [isSpace]) (ih.blank rfl)

theorem isSpace_cases {c : Char} (h : isSpace c = true) :
    c = ' ' ∨ c = '\t' ∨ c = '\n' ∨ c = '\r' := by
  simpa [isSpace, or_assoc] using h

theorem Terminal.takesIn_of_isSpace (w : Terminal) {c : Char} (h : isSpace c = true) :
    w.takesIn c = false := by
  unfold takesIn
  rcases isSpace_cases h with rfl | rfl | rfl | rfl <;> split <;> simp [isLetter]

theorem Spaced.parted {ws : List Terminal} {cs : List Char} (h : Spaced ws cs) : Parted ws cs :=
  h.mono (fun w _ hb c hc => w.takesIn_of_isSpace (hb c hc))

theorem takeWhile_append_of_stop {p : Char → Bool} {xs : List Char} (ys : List Char)
    (hx : ∀ c ∈ xs, p c = true) (hy : ∀ c ∈ ys.head?, p c = false) :
    (xs ++ ys).takeWhile p = xs ∧ (xs ++ ys).dropWhile p = ys := by
  rw [List.takeWhile_append_of_pos hx, List.dropWhile_append_of_pos hx]
  cases ys with
  | nil => simp
  | cons c ys => simp [hy c rfl]

theorem wordLexeme_append {word cs : List Char} (h : ∀ c ∈ word, isLetter c = true)
    (hcs : ∀ c ∈ cs.head?, isLetter c = false) :
    wordLexeme (word ++ cs) = ⟨.ofWord (String.ofList word), word, word, cs⟩ := by
  obtain ⟨ht, hd⟩ := takeWhile_append_of_stop cs h hcs
  simp only [wordLexeme, ht, hd]

theorem numberLexeme_append {digits cs : List Char} (h : ∀ c ∈ digits, c.isDigit = true)
    (hcs : ∀ c ∈ cs.head?, c.isDigit = false) :
    numberLexeme (digits ++ cs) = ⟨.integer, digits, digits, cs⟩ := by
  obtain ⟨ht, hd⟩ := takeWhile_append_of_stop cs h hcs
  simp only [numberLexeme, ht, hd]

theorem stringLexeme_append {body cs : List Char} (h : '"' ∉ body) :
    stringLexeme (body ++ '"' :: cs) = ⟨.string, body, '"' :: body ++ ['"'], cs⟩ := by
  have hb : ∀ c ∈ body, (c != '"') = true := by
    intro c hc
    simp only [bne_iff_ne, ne_eq]
    intro hquote
    rw [hquote] at hc
    exact h hc
  obtain ⟨ht, hd⟩ := takeWhile_append_of_stop ('"' :: cs) hb (by simp)
  simp only [stringLexeme, ht, hd]

theorem isLetter_quote_eq_false {c : Char} (h : isLetter c = true) : (c == '"') = false := by
  cases hq : c == '"' with
  | false => rfl
  | true =>
    obtain rfl := eq_of_beq hq
    revert h
    decide

theorem isSpace_eq_false_of_isLetter {c : Char} (h : isLetter c = true) : isSpace c = false := by
  cases hs : isSpace c with
  | false => rfl
  | true => rcases isSpace_cases hs with rfl | rfl | rfl | rfl <;> revert h <;> decide

theorem isDigit_not_other {c : Char} (h : c.isDigit = true) :
    (c == '"') = false ∧ isLetter c = false ∧ isSpace c = false := by
  refine ⟨?_, ?_, ?_⟩
  · cases hq : c == '"' with
    | false => rfl
    | true =>
      obtain rfl := eq_of_beq hq
      revert h
      decide
  · cases hl : isLetter c with
    | false => rfl
    | true =>
      simp only [isLetter, Bool.or_eq_true, beq_iff_eq] at hl
      rcases hl with hl | rfl
      · have hdigit : c.val ≤ 57 := of_decide_eq_true (Bool.and_eq_true_iff.mp h).2
        have hletter : 65 ≤ c.val := by
          rcases Bool.or_eq_true_iff.mp hl with hupper | hlower
          · exact (of_decide_eq_true hupper).1
          · have hlower : 97 ≤ c.val := of_decide_eq_true (Bool.and_eq_true_iff.mp hlower).1
            exact UInt32.le_trans (by decide) hlower
        exact absurd (UInt32.le_trans hletter hdigit) (by decide)
      · revert h
        decide
  · cases hs : isSpace c with
    | false => rfl
    | true => rcases isSpace_cases hs with rfl | rfl | rfl | rfl <;> revert h <;> decide

theorem lexeme_of_isLetter {c : Char} (h : isLetter c = true) (cs : List Char) :
    lexeme c cs = wordLexeme (c :: cs) := by
  simp only [lexeme, isLetter_quote_eq_false h, h, Bool.false_eq_true, ↓reduceIte]

theorem lexeme_of_isDigit {c : Char} (h : c.isDigit = true) (cs : List Char) :
    lexeme c cs = numberLexeme (c :: cs) := by
  obtain ⟨hq, hl, _⟩ := isDigit_not_other h
  simp only [lexeme, hq, hl, h, Bool.false_eq_true, ↓reduceIte]

theorem lexeme_of_ofSymbol? {c : Char} {k : TokenKind} (h : TokenKind.ofSymbol? c = some k)
    (cs : List Char) : isSpace c = false ∧ lexeme c cs = symbolLexeme c cs := by
  unfold TokenKind.ofSymbol? at h
  split at h
  case h_18 => contradiction
  all_goals exact ⟨rfl, rfl⟩

theorem symbolLexeme_of_parted {c : Char} {k : TokenKind} (hk : TokenKind.ofSymbol? c = some k)
    {cs : List Char} (hcs : ∀ d ∈ cs.head?, (Terminal.sign k).takesIn d = false) :
    symbolLexeme c cs = ⟨k, [c], [c], cs⟩ := by
  unfold symbolLexeme
  split
  · obtain rfl := Option.some.inj hk
    simp [Terminal.takesIn] at hcs
  · obtain rfl := Option.some.inj hk
    simp [Terminal.takesIn] at hcs
  · rw [hk, Option.getD_some]

/-- The text starts with a lexeme that says the given terminal, and goes on with `cs`. -/
def StartsWith (w : Terminal) (cs text : List Char) : Prop :=
  ∃ c r, text = c :: r ∧ isSpace c = false ∧ (lexeme c r).terminal = w ∧ (lexeme c r).rest = cs

theorem startsWith_letters {s : String} (hne : s.toList ≠ [])
    (hall : ∀ c ∈ s.toList, isLetter c = true) {cs : List Char}
    (hcs : ∀ c ∈ cs.head?, isLetter c = false) :
    StartsWith (⟨.ofWord s, s.toList, s.toList, cs⟩ : Lexeme).terminal cs (s.toList ++ cs) := by
  have hw := wordLexeme_append hall hcs
  rw [String.ofList_toList] at hw
  cases hs : s.toList with
  | nil => exact absurd hs hne
  | cons c r =>
    have hc : isLetter c = true := hall c (by simp [hs])
    have hl : lexeme c (r ++ cs) = ⟨.ofWord s, s.toList, s.toList, cs⟩ := by
      rw [lexeme_of_isLetter hc, ← List.cons_append, ← hs, hw]
    exact ⟨c, r ++ cs, rfl, isSpace_eq_false_of_isLetter hc, by rw [hl, hs], by rw [hl]⟩

theorem startsWith_name {s : String} (h : IsName s) {cs : List Char}
    (hcs : ∀ c ∈ cs.head?, isLetter c = false) : StartsWith (.name s) cs (s.toList ++ cs) := by
  have hw := startsWith_letters h.1 h.2.1 hcs
  simpa [Lexeme.terminal, Token.terminal, TokenKind.ofWord_eq_identifier_iff.mpr h.2.2] using hw

theorem startsWith_keyword {s : String} (h : s ∈ keywords) {cs : List Char}
    (hcs : ∀ c ∈ cs.head?, isLetter c = false) :
    StartsWith (.sign (.ofWord s)) cs (s.toList ++ cs) := by
  simp only [keywords, List.mem_cons, List.not_mem_nil, or_false] at h
  rcases h with rfl | rfl | rfl | rfl | rfl | rfl | rfl <;>
    exact startsWith_letters (by decide) (List.all_eq_true.mp (by decide)) hcs

theorem startsWith_number {digits : String} (h : IsNumeral digits) {cs : List Char}
    (hcs : ∀ c ∈ cs.head?, c.isDigit = false) :
    StartsWith (.number digits) cs (digits.toList ++ cs) := by
  obtain ⟨hne, hall⟩ := h
  have hw := numberLexeme_append hall hcs
  cases hs : digits.toList with
  | nil => exact absurd hs hne
  | cons c r =>
    have hc : c.isDigit = true := hall c (by simp [hs])
    have hl : lexeme c (r ++ cs) = ⟨.integer, digits.toList, digits.toList, cs⟩ := by
      rw [lexeme_of_isDigit hc, ← List.cons_append, ← hs, hw]
    refine ⟨c, r ++ cs, rfl, (isDigit_not_other hc).2.2, ?_, by rw [hl]⟩
    rw [hl]
    simp [Lexeme.terminal, Token.terminal]

theorem startsWith_quoted {s : String} (h : IsQuotable s) (cs : List Char) :
    StartsWith (.quoted s) cs ('"' :: (s.toList ++ ['"']) ++ cs) := by
  have hl : lexeme '"' (s.toList ++ '"' :: cs) = ⟨.string, s.toList, _, cs⟩ :=
    stringLexeme_append h
  refine ⟨'"', s.toList ++ '"' :: cs, by simp, rfl, ?_, by rw [hl]⟩
  rw [hl]
  simp [Lexeme.terminal, Token.terminal]

theorem startsWith_symbol {c : Char} {k : TokenKind} (hk : TokenKind.ofSymbol? c = some k)
    {cs : List Char} (hcs : ∀ d ∈ cs.head?, (Terminal.sign k).takesIn d = false) :
    StartsWith (.sign k) cs (c :: cs) := by
  obtain ⟨hspace, hl⟩ := lexeme_of_ofSymbol? hk cs
  rw [symbolLexeme_of_parted hk hcs] at hl
  refine ⟨c, cs, rfl, hspace, ?_, by rw [hl]⟩
  have hs := TokenKind.ofSymbol?_spelling hk
  rw [hl]
  simp only [Lexeme.terminal, Token.terminal]
  split <;> simp_all [TokenKind.spelling]

/-- A sign is a keyword, a single character, or one of the two that end in an equals sign. -/
theorem TokenKind.spelling_cases (k : TokenKind) :
    k.spelling = [] ∨
      (String.ofList k.spelling ∈ keywords ∧ ofWord (String.ofList k.spelling) = k) ∨
      ofSymbol? (k.spelling.headD ' ') = some k ∨ k = .equal ∨ k = .notEqual := by
  cases k <;> decide

theorem startsWith_sign {k : TokenKind} (h : k.spelling ≠ []) {cs : List Char}
    (hcs : ∀ d ∈ cs.head?, (Terminal.sign k).takesIn d = false) :
    StartsWith (.sign k) cs (k.spelling ++ cs) := by
  rcases k.spelling_cases with hn | ⟨hk, hw⟩ | hc | rfl | rfl
  · exact absurd hn h
  · have hletters : ∀ d ∈ cs.head?, isLetter d = false := by
      intro d hd
      have hd' := hcs d hd
      rw [← hw] at hd'
      simp only [keywords, List.mem_cons, List.not_mem_nil, or_false] at hk
      rcases hk with hk | hk | hk | hk | hk | hk | hk <;> rw [hk] at hd' <;> exact hd'
    have hstart := startsWith_keyword hk hletters
    rwa [hw, String.toList_ofList] at hstart
  · have hs := TokenKind.ofSymbol?_spelling hc
    have hstart := startsWith_symbol hc hcs
    rwa [← List.singleton_append, ← hs] at hstart
  · exact ⟨'=', '=' :: cs, rfl, rfl, rfl, rfl⟩
  · exact ⟨'!', '=' :: cs, rfl, rfl, rfl, rfl⟩

theorem Terminal.Proper.startsWith {w : Terminal} (h : w.Proper) {cs : List Char}
    (hcs : ∀ c ∈ cs.head?, w.takesIn c = false) : StartsWith w cs (w.chars ++ cs) := by
  cases w with
  | name s => exact startsWith_name h hcs
  | number digits => exact startsWith_number h hcs
  | quoted s => exact startsWith_quoted h cs
  | sign k => exact startsWith_sign h hcs

theorem Scanner.next_of_startsWith {w : Terminal} {gap cs text : List Char}
    (hgap : ∀ c ∈ gap, isSpace c = true) (h : StartsWith w cs text) (offset : Nat) :
    (Scanner.next ⟨gap ++ text, offset⟩).1.terminal = w ∧
      (Scanner.next ⟨gap ++ text, offset⟩).2.rest = cs := by
  obtain ⟨c, r, rfl, hspace, rfl, rfl⟩ := h
  have hd := (takeWhile_append_of_stop (c :: r) hgap (by simpa using hspace)).2
  unfold Scanner.next
  simp only [hd]
  exact ⟨rfl, trivial⟩

theorem Scanner.next_of_blanks {cs : List Char} (h : ∀ c ∈ cs, isSpace c = true) (offset : Nat) :
    (Scanner.next ⟨cs, offset⟩).1.kind = .endOfInput := by
  have hd : cs.dropWhile isSpace = [] := List.dropWhile_eq_nil_iff.mpr h
  simpa [Token.isEnd] using (Scanner.isEnd_next_iff ⟨cs, offset⟩).mpr hd

/-- The scanner finds the terminals of a layout, wherever it starts to count. -/
theorem Scanner.toList_of_parted {ws : List Terminal} {cs : List Char} (h : Parted ws cs)
    (hp : ∀ w ∈ ws, w.Proper) (offset : Nat) :
    (Scanner.toList ⟨cs, offset⟩).map Token.terminal = ws ++ [.sign .endOfInput] := by
  induction h generalizing offset with
  | blanks hb =>
    have hk := next_of_blanks hb offset
    rw [Scanner.toList_eq]
    simp [Token.isEnd, hk, Token.terminal]
  | @terminal gap cs w ws hgap hw _ ih =>
    have hstart := (hp w (by simp)).startsWith hw
    obtain ⟨hfirst, hrest⟩ := next_of_startsWith hgap hstart offset
    rw [← List.append_assoc] at hfirst hrest
    rw [Scanner.toList_eq]
    generalize Scanner.next ⟨gap ++ w.chars ++ cs, offset⟩ = found at hfirst hrest
    obtain ⟨token, rest, offset'⟩ := found
    obtain rfl : rest = cs := hrest
    have hend : token.isEnd = false := by
      have hk := (hp w (by simp)).kind_ne_endOfInput
      rw [← hfirst, Token.kind_terminal] at hk
      simpa [Token.isEnd] using hk
    have ih' := ih (fun v hv => hp v (by simp [hv])) offset'
    simp [hend, hfirst, ih']

theorem tokens_of_parted {ws : List Terminal} {cs : List Char} (h : Parted ws cs)
    (hp : ∀ w ∈ ws, w.Proper) :
    (tokens (String.ofList cs)).map Token.terminal = ws ++ [.sign .endOfInput] := by
  have := Scanner.toList_of_parted h hp 0
  rwa [tokens, Scanner.ofText, String.toList_ofList]

end Treewalk
