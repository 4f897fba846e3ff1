import Treewalk.Token.Basic

namespace Treewalk

/-- The number of bytes that the characters take. -/
def byteWidth (cs : List Char) : Nat := cs.foldr (fun c width => c.utf8Size + width) 0

@[simp] theorem byteWidth_nil : byteWidth [] = 0 := rfl

@[simp] theorem byteWidth_cons (c : Char) (cs : List Char) :
    byteWidth (c :: cs) = c.utf8Size + byteWidth cs := rfl

theorem byteWidth_append (cs ds : List Char) :
    byteWidth (cs ++ ds) = byteWidth cs + byteWidth ds := by
  induction cs with
  | nil => rw [List.nil_append, byteWidth_nil, Nat.zero_add]
  | cons c cs ih => rw [List.cons_append, byteWidth_cons, byteWidth_cons, ih, Nat.add_assoc]

/-- The blanks that separate tokens; no other character does. -/
def isSpace (c : Char) : Bool := c == ' ' || c == '\t' || c == '\n' || c == '\r'

/-- Letters are those of ASCII and the underscore; digits are no letters. -/
def isLetter (c : Char) : Bool := c.isAlpha || c == '_'

/-- One token's text: its kind and literal, all the characters it covers, and those after it. -/
structure Lexeme where
  kind : TokenKind
  literal : List Char
  covered : List Char
  rest : List Char

/-- The lexeme of a string whose opening quote has been read. It runs to the next quote, or to the
end of the text if there is none. -/
def stringLexeme (cs : List Char) : Lexeme :=
  let body := cs.takeWhile (· != '"')
  match cs.dropWhile (· != '"') with
  | [] => ⟨.string, body, '"' :: body, []⟩
  | quote :: rest => ⟨.string, body, '"' :: body ++ [quote], rest⟩

def wordLexeme (cs : List Char) : Lexeme :=
  let word := cs.takeWhile isLetter
  ⟨.ofWord (String.ofList word), word, word, cs.dropWhile isLetter⟩

def numberLexeme (cs : List Char) : Lexeme :=
  let digits := cs.takeWhile Char.isDigit
  ⟨.integer, digits, digits, cs.dropWhile Char.isDigit⟩

def symbolLexeme (c : Char) (cs : List Char) : Lexeme :=
  match c, cs with
  | '=', '=' :: rest => ⟨.equal, ['=', '='], ['=', '='], rest⟩
  | '!', '=' :: rest => ⟨.notEqual, ['!', '='], ['!', '='], rest⟩
  | _, _ => ⟨(TokenKind.ofSymbol? c).getD .illegal, [c], [c], cs⟩

/-- The lexeme that starts with `c`, which is no blank, and goes on in `cs`. -/
def lexeme (c : Char) (cs : List Char) : Lexeme :=
  if c == '"' then stringLexeme cs
  else if isLetter c then wordLexeme (c :: cs)
  else if c.isDigit then numberLexeme (c :: cs)
  else symbolLexeme c cs

theorem stringLexeme_covers (cs : List Char) :
    (stringLexeme cs).covered ++ (stringLexeme cs).rest = '"' :: cs := by
  have h := List.takeWhile_append_dropWhile (p := (· != '"')) (l := cs)
  unfold stringLexeme
  cases hd : cs.dropWhile (· != '"') with
  | nil => rw [hd] at h; simpa using h
  | cons q r => rw [hd] at h; simpa using h

theorem symbolLexeme_covers (c : Char) (cs : List Char) :
    (symbolLexeme c cs).covered ++ (symbolLexeme c cs).rest = c :: cs := by
  unfold symbolLexeme
  split <;> simp

/-- No character is lost or invented. -/
theorem lexeme_covers (c : Char) (cs : List Char) :
    (lexeme c cs).covered ++ (lexeme c cs).rest = c :: cs := by
  unfold lexeme
  split
  · next h => rw [stringLexeme_covers]; simp_all
  split
  · exact List.takeWhile_append_dropWhile
  split
  · exact List.takeWhile_append_dropWhile
  · exact symbolLexeme_covers c cs

theorem stringLexeme_covered_ne_nil (cs : List Char) : (stringLexeme cs).covered ≠ [] := by
  unfold stringLexeme
  split <;> simp

theorem symbolLexeme_covered_ne_nil (c : Char) (cs : List Char) :
    (symbolLexeme c cs).covered ≠ [] := by
  unfold symbolLexeme
  split <;> simp

theorem lexeme_covered_ne_nil (c : Char) (cs : List Char) : (lexeme c cs).covered ≠ [] := by
  unfold lexeme
  split
  · exact stringLexeme_covered_ne_nil cs
  split
  · next h => simp [wordLexeme, h]
  split
  · next h => simp [numberLexeme, h]
  · exact symbolLexeme_covered_ne_nil c cs

/-- Every lexeme leaves less than there was. -/
theorem length_lexeme_rest_lt (c : Char) (cs : List Char) :
    (lexeme c cs).rest.length < (c :: cs).length := by
  have h := List.length_pos_iff.mpr (lexeme_covered_ne_nil c cs)
  rw [← lexeme_covers c cs, List.length_append]
  omega

theorem TokenKind.ofWord_ne_endOfInput (word : String) : ofWord word ≠ endOfInput := by
  unfold ofWord
  repeat' split
  all_goals simp

theorem TokenKind.ofSymbol?_ne_endOfInput (c : Char) : ofSymbol? c ≠ some endOfInput := by
  unfold ofSymbol?
  split <;> simp

theorem symbolLexeme_kind_ne_endOfInput (c : Char) (cs : List Char) :
    (symbolLexeme c cs).kind ≠ .endOfInput := by
  unfold symbolLexeme
  split
  · simp
  · simp
  · cases h : TokenKind.ofSymbol? c with
    | none => simp
    | some k =>
      intro hk
      exact TokenKind.ofSymbol?_ne_endOfInput c (h.trans (congrArg some hk))

/-- No text stands for the end of input. -/
theorem lexeme_kind_ne_endOfInput (c : Char) (cs : List Char) :
    (lexeme c cs).kind ≠ .endOfInput := by
  unfold lexeme
  split
  · unfold stringLexeme
    split <;> simp
  split
  · exact TokenKind.ofWord_ne_endOfInput _
  split
  · simp [numberLexeme]
  · exact symbolLexeme_kind_ne_endOfInput c cs

/-- The unread part of a text, and the number of bytes before it. -/
structure Scanner where
  rest : List Char
  offset : Nat
deriving DecidableEq, Inhabited

namespace Scanner

def ofText (source : String) : Scanner := ⟨source.toList, 0⟩

/-- The next token, with the text that it leaves. Behind the last token this is always the end of
input. -/
def next (s : Scanner) : Token × Scanner :=
  let start := s.offset + byteWidth (s.rest.takeWhile isSpace)
  match s.rest.dropWhile isSpace with
  | [] => (.atEnd start, ⟨[], start⟩)
  | c :: cs =>
    let found := lexeme c cs
    let stop := start + byteWidth found.covered
    (⟨found.kind, String.ofList found.literal, ⟨start, stop⟩⟩, ⟨found.rest, stop⟩)

theorem isEnd_next_iff (s : Scanner) :
    s.next.1.isEnd = true ↔ s.rest.dropWhile isSpace = [] := by
  unfold next
  split
  · next h => simp [h, Token.isEnd, Token.atEnd]
  · next c cs h => simp [h, Token.isEnd, lexeme_kind_ne_endOfInput]

/-- A token that is not the end of input takes something away. -/
theorem length_next_rest_lt {s : Scanner} (h : s.next.1.isEnd = false) :
    s.next.2.rest.length < s.rest.length := by
  have hle := (List.dropWhile_sublist isSpace (l := s.rest)).length_le
  unfold next at h ⊢
  split
  · next hn => simp [hn, Token.isEnd, Token.atEnd] at h
  · next c cs hc =>
    rw [hc] at hle
    exact Nat.lt_of_lt_of_le (length_lexeme_rest_lt c cs) hle

/-- At most `n` tokens, up to the end of input. -/
def take : Nat → Scanner → List Token
  | 0, _ => []
  | n + 1, s =>
    let (token, s') := s.next
    if token.isEnd then [token] else token :: take n s'

/-- More steps than characters make no difference. -/
theorem take_eq_take {s : Scanner} {m n : Nat} (hm : s.rest.length < m) (hn : s.rest.length < n) :
    s.take m = s.take n := by
  induction m generalizing s n with
  | zero => omega
  | succ m ih =>
    obtain ⟨n, rfl⟩ : ∃ k, n = k + 1 := ⟨n - 1, by omega⟩
    simp only [take]
    cases he : s.next.1.isEnd with
    | true => rfl
    | false =>
      have hlt := length_next_rest_lt he
      simp only [Bool.false_eq_true, ↓reduceIte, List.cons.injEq, true_and]
      exact ih (by omega) (by omega)

/-- Every token up to and including the end of input. A token other than that one covers a
character, so the unread characters and one more are enough steps. -/
def toList (s : Scanner) : List Token := s.take (s.rest.length + 1)

/-- The tokens are the next one and, unless it is the end of input, those after it. -/
theorem toList_eq (s : Scanner) :
    s.toList = s.next.1 :: (if s.next.1.isEnd then [] else s.next.2.toList) := by
  cases he : s.next.1.isEnd with
  | true => simp [toList, take, he]
  | false =>
    have hlt := length_next_rest_lt he
    have hrest := take_eq_take hlt (Nat.lt_succ_self s.next.2.rest.length)
    simp only [toList, take, he, Bool.false_eq_true, ↓reduceIte, List.cons.injEq, true_and]
    exact hrest

end Scanner

/-- The tokens of a text, the end of input last. -/
def tokens (source : String) : List Token := (Scanner.ofText source).toList

/-- A scanner that hands out the end of input once and then stops. -/
structure TokenStream where
  source : String
  scanner : Scanner
  finished : Bool
deriving DecidableEq, Inhabited

namespace TokenStream

def ofText (source : String) : TokenStream := ⟨source, .ofText source, false⟩

/-- Takes a token whether or not the stream has finished. -/
def pull (s : TokenStream) : Token × TokenStream :=
  let (token, scanner) := s.scanner.next
  (token, { s with scanner })

def next? (s : TokenStream) : Option Token × TokenStream :=
  if s.finished then (none, s)
  else
    let (token, s') := s.pull
    (some token, { s' with finished := token.isEnd })

end TokenStream

end Treewalk
