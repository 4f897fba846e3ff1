import Mathlib.Data.List.TakeWhile
import Treewalk.Token.Scan

namespace Treewalk

/-- A terminal of the grammar: what a token says, without its place in the text. -/
inductive Terminal where
  | name (s : String)
  | number (digits : String)
  | quoted (s : String)
  | sign (kind : TokenKind)
deriving DecidableEq

def Terminal.kind : Terminal → TokenKind
  | name _ => .identifier
  | number _ => .integer
  | quoted _ => .string
  | sign k => k

def Token.terminal (t : Token) : Terminal :=
  match t.kind with
  | .identifier => .name t.literal
  | .integer => .number t.literal
  | .string => .quoted t.literal
  | k => .sign k

@[simp] theorem Token.kind_terminal (t : Token) : t.terminal.kind = t.kind := by
  unfold Token.terminal
  split <;> simp_all [Terminal.kind]

/-- The kind of the first terminal, or that of the end of input if there is none. -/
def leadingKind (ws : List Terminal) : TokenKind := (ws.head?.map Terminal.kind).getD .endOfInput

@[simp] theorem leadingKind_nil : leadingKind [] = .endOfInput := rfl

@[simp] theorem leadingKind_cons (w : Terminal) (ws : List Terminal) :
    leadingKind (w :: ws) = w.kind := rfl

def keywords : List String := ["fn", "let", "true", "false", "if", "else", "return"]

/-- A run of letters that is no keyword. -/
def IsName (s : String) : Prop :=
  s.toList ≠ [] ∧ (∀ c ∈ s.toList, isLetter c = true) ∧ s ∉ keywords

def IsNumeral (s : String) : Prop := s.toList ≠ [] ∧ ∀ c ∈ s.toList, c.isDigit = true

/-- There is no way to write a quote inside quotes. -/
def IsQuotable (s : String) : Prop := '"' ∉ s.toList

-- The test goes over the text, not over all characters.
instance (s : String) : Decidable (IsName s) :=
  @instDecidableAnd _ _ _ (@instDecidableAnd _ _ (List.decidableBAll _ _) _)

instance (s : String) : Decidable (IsNumeral s) :=
  @instDecidableAnd _ _ _ (List.decidableBAll _ _)

instance (s : String) : Decidable (IsQuotable s) := inferInstanceAs (Decidable (¬ _))

/-- The characters that always form a token of the kind, if it is a kind that does not vary. -/
def TokenKind.spelling : TokenKind → List Char
  | illegal | endOfInput | identifier | integer | string => []
  | assign => ['=']
  | plus => ['+']
  | minus => ['-']
  | bang => ['!']
  | asterisk => ['*']
  | slash => ['/']
  | less => ['<']
  | greater => ['>']
  | equal => ['=', '=']
  | notEqual => ['!', '=']
  | comma => [',']
  | semicolon => [';']
  | colon => [':']
  | leftParen => ['(']
  | rightParen => [')']
  | leftBrace => ['{']
  | rightBrace => ['}']
  | leftBracket => ['[']
  | rightBracket => [']']
  | functionWord => ['f', 'n']
  | letWord => ['l', 'e', 't']
  | trueWord => ['t', 'r', 'u', 'e']
  | falseWord => ['f', 'a', 'l', 's', 'e']
  | ifWord => ['i', 'f']
  | elseWord => ['e', 'l', 's', 'e']
  | returnWord => ['r', 'e', 't', 'u', 'r', 'n']

/-- A text can hold the terminal as a token. -/
def Terminal.Proper : Terminal → Prop
  | name s => IsName s
  | number digits => IsNumeral digits
  | quoted s => IsQuotable s
  | sign k => k.spelling ≠ []

theorem Terminal.Proper.kind_ne_endOfInput {w : Terminal} (h : w.Proper) :
    w.kind ≠ .endOfInput := by
  cases w with
  | sign k =>
    intro hk
    have hk' : k = .endOfInput := hk
    subst hk'
    exact h rfl
  | name _ | number _ | quoted _ => simp [Terminal.kind]

/-- What the scanner promises of every token but the last. -/
def Token.Sound (t : Token) : Prop := t.kind = .illegal ∨ t.terminal.Proper

theorem Token.Sound.kind_ne_endOfInput {t : Token} (h : t.Sound) : t.kind ≠ .endOfInput := by
  rcases h with hi | hp
  · simp [hi]
  · simpa using hp.kind_ne_endOfInput

theorem Token.Sound.isName {t : Token} (h : t.Sound) (hk : t.kind = .identifier) :
    IsName t.literal := by
  rcases h with hi | hp
  · simp [hi] at hk
  · simpa [Token.terminal, hk, Terminal.Proper] using hp

theorem Token.Sound.isNumeral {t : Token} (h : t.Sound) (hk : t.kind = .integer) :
    IsNumeral t.literal := by
  rcases h with hi | hp
  · simp [hi] at hk
  · simpa [Token.terminal, hk, Terminal.Proper] using hp

theorem Token.Sound.isQuotable {t : Token} (h : t.Sound) (hk : t.kind = .string) :
    IsQuotable t.literal := by
  rcases h with hi | hp
  · simp [hi] at hk
  · simpa [Token.terminal, hk, Terminal.Proper] using hp

theorem TokenKind.ofWord_eq_identifier_iff {s : String} :
    ofWord s = .identifier ↔ s ∉ keywords := by
  unfold ofWord keywords
  repeat' split
  all_goals simp_all

theorem TokenKind.ofWord_of_mem_keywords {s : String} (h : s ∈ keywords) :
    (ofWord s).spelling = s.toList := by
  simp only [keywords, List.mem_cons, List.not_mem_nil, or_false] at h
  rcases h with rfl | rfl | rfl | rfl | rfl | rfl | rfl <;> rfl

theorem TokenKind.ofSymbol?_spelling {c : Char} {k : TokenKind} (h : ofSymbol? c = some k) :
    k.spelling = [c] := by
  unfold ofSymbol? at h
  split at h
  case h_18 => contradiction
  all_goals
    obtain rfl := Option.some.inj h
    rfl

/-- What a lexeme says. -/
def Lexeme.terminal (l : Lexeme) : Terminal :=
  (⟨l.kind, String.ofList l.literal, ⟨0, 0⟩⟩ : Token).terminal

theorem stringLexeme_terminal (cs : List Char) :
    (stringLexeme cs).terminal = .quoted (String.ofList (cs.takeWhile (· != '"'))) := by
  unfold stringLexeme
  split <;> rfl

theorem wordLexeme_proper {c : Char} (h : isLetter c = true) (cs : List Char) :
    (wordLexeme (c :: cs)).terminal.Proper := by
  have hne : (c :: cs).takeWhile isLetter ≠ [] := by simp [h]
  generalize hw : (c :: cs).takeWhile isLetter = word at hne
  by_cases hk : String.ofList word ∈ keywords
  · have hs := TokenKind.ofWord_of_mem_keywords hk
    have hsign : (wordLexeme (c :: cs)).terminal = .sign (.ofWord (String.ofList word)) := by
      simp only [wordLexeme, hw, Lexeme.terminal, Token.terminal]
      split <;> simp_all [TokenKind.spelling]
    rw [hsign]
    simpa [Terminal.Proper, hs] using hne
  · have hname : (wordLexeme (c :: cs)).terminal = .name (String.ofList word) := by
      have hkind := TokenKind.ofWord_eq_identifier_iff.mpr hk
      simp [wordLexeme, hw, Lexeme.terminal, Token.terminal, hkind]
    rw [hname]
    refine ⟨by simpa using hne, ?_, hk⟩
    intro d hd
    rw [String.toList_ofList, ← hw] at hd
    exact List.mem_takeWhile_imp hd

theorem numberLexeme_proper {c : Char} (h : c.isDigit = true) (cs : List Char) :
    (numberLexeme (c :: cs)).terminal.Proper := by
  refine ⟨by simp [numberLexeme, h], ?_⟩
  intro d hd
  rw [String.toList_ofList] at hd
  exact List.mem_takeWhile_imp hd

theorem symbolLexeme_proper (c : Char) (cs : List Char) :
    (symbolLexeme c cs).kind = .illegal ∨ (symbolLexeme c cs).terminal.Proper := by
  unfold symbolLexeme
  split
  · exact .inr (by simp [Lexeme.terminal, Token.terminal, Terminal.Proper, TokenKind.spelling])
  · exact .inr (by simp [Lexeme.terminal, Token.terminal, Terminal.Proper, TokenKind.spelling])
  · cases h : TokenKind.ofSymbol? c with
    | none => exact .inl rfl
    | some k =>
      refine .inr ?_
      have hs := TokenKind.ofSymbol?_spelling h
      have hsign : (⟨k, [c], [c], cs⟩ : Lexeme).terminal = .sign k := by
        simp only [Lexeme.terminal, Token.terminal]
        split <;> simp_all [TokenKind.spelling]
      rw [Option.getD_some, hsign]
      simp [Terminal.Proper, hs]

theorem lexeme_proper (c : Char) (cs : List Char) :
    (lexeme c cs).kind = .illegal ∨ (lexeme c cs).terminal.Proper := by
  unfold lexeme
  split
  · refine .inr ?_
    rw [stringLexeme_terminal]
    intro hq
    rw [String.toList_ofList] at hq
    simpa using List.mem_takeWhile_imp hq
  split
  · next h => exact .inr (wordLexeme_proper h cs)
  split
  · next h => exact .inr (numberLexeme_proper h cs)
  · exact symbolLexeme_proper c cs

theorem Scanner.sound_next {s : Scanner} (h : s.next.1.isEnd = false) : s.next.1.Sound := by
  unfold Scanner.next at h ⊢
  split
  · next hn => simp [hn, Token.isEnd, Token.atEnd] at h
  · next c cs hc => exact lexeme_proper c cs

/-- The tokens are sound ones and then the end of input. -/
theorem Scanner.toList_eq_append (s : Scanner) :
    ∃ ts finish, s.toList = ts ++ [finish] ∧ (∀ t ∈ ts, t.Sound) ∧ finish.kind = .endOfInput := by
  induction hn : s.rest.length using Nat.strongRecOn generalizing s with
  | ind n ih =>
    rw [s.toList_eq]
    cases he : s.next.1.isEnd with
    | true => exact ⟨[], s.next.1, by simp, by simp, by simpa [Token.isEnd] using he⟩
    | false =>
      have hlt := length_next_rest_lt he
      obtain ⟨ts, finish, hts, hsound, hfinish⟩ := ih _ (by omega) s.next.2 rfl
      refine ⟨s.next.1 :: ts, finish, by simp [hts], ?_, hfinish⟩
      intro t ht
      rcases List.mem_cons.mp ht with rfl | ht
      · exact sound_next he
      · exact hsound t ht

end Treewalk
