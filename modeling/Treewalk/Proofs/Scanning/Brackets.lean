import Mathlib.Algebra.Ring.Nat
import Treewalk.Proofs.Grammar.Balance
import Treewalk.Proofs.Scanning.Cut
import Treewalk.Session.Input

namespace Treewalk

/-- For no kind of brackets there are more opening than closing tokens. -/
def NoneOpen (ts : List Token) : Prop :=
  ∀ b : Bracket, (ts.map Token.kind).count b.opening ≤ (ts.map Token.kind).count b.closing

def isBracket (c : Char) : Bool := ['{', '}', '[', ']', '(', ')'].contains c

namespace OpenBrackets

def count (o : OpenBrackets) : Bracket → Int32
  | .brace => o.braces
  | .bracket => o.brackets
  | .paren => o.parens

theorem allClosed_iff (o : OpenBrackets) : o.allClosed = true ↔ ∀ b, o.count b ≤ 0 := by
  simp only [allClosed, Bool.and_eq_true, decide_eq_true_eq]
  constructor
  · rintro ⟨⟨hbraces, hbrackets⟩, hparens⟩ b
    cases b <;> assumption
  · intro h
    exact ⟨⟨h .brace, h .bracket⟩, h .paren⟩

theorem afterBracket_of_not {c : Char} (h : isBracket c = false) (o : OpenBrackets) :
    o.afterBracket c = o := by
  unfold afterBracket
  split <;> first | rfl | contradiction

/-- Characters that are neither brackets nor quotes count nothing. -/
theorem foldl_after_of_other {cs : List Char} (h : ∀ c ∈ cs, isBracket c = false ∧ c ≠ '"')
    (o : OpenBrackets) : cs.foldl after o = o := by
  induction cs with
  | nil => rfl
  | cons c cs ih =>
    obtain ⟨⟨hbracket, hquote⟩, hcs⟩ := List.forall_mem_cons.mp h
    have hafter : o.after c = o := by
      simp only [after, beq_iff_eq, hquote, if_false, afterBracket_of_not hbracket, ite_self]
    rw [List.foldl_cons, hafter, ih hcs]

/-- Inside of a string nothing counts. -/
theorem foldl_after_inString {cs : List Char} (h : '"' ∉ cs) {o : OpenBrackets}
    (ho : o.inString = true) : cs.foldl after o = o := by
  induction cs with
  | nil => rfl
  | cons c cs ih =>
    obtain ⟨hquote, hcs⟩ := List.ne_and_not_mem_of_not_mem_cons h
    have hafter : o.after c = o := by
      simp only [after, beq_iff_eq, Ne.symm hquote, if_false, ho, if_true]
    rw [List.foldl_cons, hafter, ih hcs]

end OpenBrackets

theorem isBracket_cases {c : Char} (h : isBracket c = true) :
    c = '{' ∨ c = '}' ∨ c = '[' ∨ c = ']' ∨ c = '(' ∨ c = ')' := by
  simpa [isBracket] using h

/-- A class of characters that has no bracket and no quote in it. -/
theorem other_of_class {p : Char → Bool}
    (hp : ['"', '{', '}', '[', ']', '(', ')'].any p = false) {c : Char} (h : p c = true) :
    isBracket c = false ∧ c ≠ '"' := by
  have hc : c ∉ ['"', '{', '}', '[', ']', '(', ')'] :=
    fun hmem => List.any_eq_false.mp hp c hmem h
  obtain ⟨hquote, hbracket⟩ := List.ne_and_not_mem_of_not_mem_cons hc
  refine ⟨?_, hquote⟩
  rw [isBracket, List.contains_eq_mem]
  exact decide_eq_false hbracket

theorem other_of_isLetter {c : Char} (h : isLetter c = true) : isBracket c = false ∧ c ≠ '"' :=
  other_of_class rfl h

theorem other_of_isDigit {c : Char} (h : c.isDigit = true) : isBracket c = false ∧ c ≠ '"' :=
  other_of_class rfl h

theorem other_of_isSpace {c : Char} (h : isSpace c = true) : isBracket c = false ∧ c ≠ '"' :=
  other_of_class rfl h

theorem other_of_not_startsToken {c : Char} (h : ¬ StartsToken c) :
    isBracket c = false ∧ c ≠ '"' := by
  refine ⟨Bool.eq_false_iff.mpr (fun hb => h (.inr (.inr (.inr ?_)))),
    fun hquote => h (.inr (.inr (.inl hquote)))⟩
  rcases isBracket_cases hb with rfl | rfl | rfl | rfl | rfl | rfl
  · exact ⟨.leftBrace, rfl⟩
  · exact ⟨.rightBrace, rfl⟩
  · exact ⟨.leftBracket, rfl⟩
  · exact ⟨.rightBracket, rfl⟩
  · exact ⟨.leftParen, rfl⟩
  · exact ⟨.rightParen, rfl⟩

theorem OpenBrackets.foldl_after_spelling (k : TokenKind) {o : OpenBrackets}
    (ho : o.inString = false) :
    (k.spelling.foldl after o).inString = false ∧
      ∀ b, (k.spelling.foldl after o).count b = o.count b + Int32.ofInt (b.surplus [k]) := by
  obtain ⟨_, braces, brackets, parens⟩ := o
  obtain rfl := ho
  refine ⟨by cases k <;> rfl, fun b => ?_⟩
  cases k <;> cases b <;>
    simp [TokenKind.spelling, after, afterBracket, count, Bracket.surplus, Bracket.opening,
      Bracket.closing, Int32.sub_eq_add_neg]

theorem Bracket.surplus_of_isVaried (b : Bracket) {k : TokenKind} (h : k.isVaried = true) :
    b.surplus [k] = 0 := by
  cases k <;> first | contradiction | cases b <;> rfl

open OpenBrackets in
/-- The characters of a token count what the token counts, and they lead out of strings unless
nothing follows. -/
theorem Forms.foldl_after {kind : TokenKind} {literal covered after : List Char}
    (h : Forms kind literal covered after) {o : OpenBrackets} (ho : o.inString = false) :
    (after ≠ [] → (covered.foldl OpenBrackets.after o).inString = false) ∧
      ∀ b, (covered.foldl OpenBrackets.after o).count b =
        o.count b + Int32.ofInt (b.surplus [kind]) := by
  -- A token that varies counts nothing, whatever it leaves of being inside a string.
  have hvaried : ∀ {o' : OpenBrackets}, kind.isVaried = true → o'.count = o.count →
      ∀ b, o'.count b = o.count b + Int32.ofInt (b.surplus [kind]) := by
    intro o' hkind hsame b
    rw [hsame, b.surplus_of_isVaried hkind]
    simp
  have hstart : o.after '"' = { o with inString := true } := by simp [OpenBrackets.after, ho]
  cases h with
  | name hword _ =>
    rw [foldl_after_of_other (fun c hc => other_of_isLetter (hword.2.1 c (by simpa using hc)))]
    exact ⟨fun _ => ho, hvaried rfl rfl⟩
  | number hdigits _ =>
    rw [foldl_after_of_other (fun c hc => other_of_isDigit (hdigits.2 c (by simpa using hc)))]
    exact ⟨fun _ => ho, hvaried rfl rfl⟩
  | sign _ _ =>
    obtain ⟨hout, hcount⟩ := foldl_after_spelling kind ho
    exact ⟨fun _ => hout, hcount⟩
  | closed hbody =>
    have hbody' := foldl_after_inString hbody (o := { o with inString := true }) rfl
    rw [List.cons_append, List.foldl_cons, hstart, List.foldl_append, hbody']
    exact ⟨fun _ => rfl, hvaried rfl rfl⟩
  | unclosed hbody =>
    rw [List.foldl_cons, hstart, foldl_after_inString hbody rfl]
    exact ⟨fun hne => absurd rfl hne, hvaried rfl rfl⟩
  | @illegal c _ _ hc =>
    have hother : ∀ d ∈ [c], isBracket d = false ∧ d ≠ '"' := by
      simpa using other_of_not_startsToken hc
    rw [foldl_after_of_other hother]
    exact ⟨fun _ => ho, hvaried rfl rfl⟩

theorem Cut.eq_nil_of_nil {offset : Nat} {ts : List Token} {finish : Token}
    (h : Cut offset [] ts finish) : ts = [] := by
  generalize hcs : ([] : List Char) = cs at h
  cases h with
  | blanks _ => rfl
  | token _ _ _ hforms _ =>
    have hne := hforms.covered_ne_nil
    simp_all

open OpenBrackets in
/-- Going over the characters counts the brackets among the tokens. -/
theorem Cut.count_foldl_after {offset : Nat} {cs : List Char} {ts : List Token} {finish : Token}
    (h : Cut offset cs ts finish) {o : OpenBrackets} (ho : o.inString = false) (b : Bracket) :
    (cs.foldl after o).count b = o.count b + Int32.ofInt (b.surplus (ts.map Token.kind)) := by
  induction h generalizing o with
  | blanks hgap =>
    rw [foldl_after_of_other (fun c hc => other_of_isSpace (hgap c hc))]
    simp
  | @token offset gap covered after t _ ts hgap _ _ hforms rest ih =>
    obtain ⟨hout, hcount⟩ := hforms.foldl_after ho
    rw [List.foldl_append, List.foldl_append,
      foldl_after_of_other (fun c hc => other_of_isSpace (hgap c hc)), List.map_cons,
      b.surplus_cons, Int32.ofInt_add, ← Int32.add_assoc, ← hcount]
    by_cases hafter : after = []
    · subst hafter
      rw [rest.eq_nil_of_nil]
      simp
    · exact ih (hout hafter)

theorem Forms.countP_isBracket {kind : TokenKind} {literal covered after : List Char}
    (h : Forms kind literal covered after) (b : Bracket) :
    [kind].count b.opening + [kind].count b.closing ≤ covered.countP isBracket := by
  have hvaried : kind.isVaried = true → [kind].count b.opening + [kind].count b.closing = 0 := by
    intro hkind
    cases kind <;> first | contradiction | cases b <;> rfl
  cases h with
  | sign _ _ => cases kind <;> cases b <;> decide
  | name _ _ | number _ _ | closed _ | unclosed _ | illegal _ _ =>
    rw [hvaried rfl]
    exact Nat.zero_le _

/-- Each token that is a bracket has a character that is one. -/
theorem Cut.countP_isBracket {offset : Nat} {cs : List Char} {ts : List Token} {finish : Token}
    (h : Cut offset cs ts finish) (b : Bracket) :
    (ts.map Token.kind).count b.opening + (ts.map Token.kind).count b.closing ≤
      cs.countP isBracket := by
  induction h with
  | blanks _ => simp
  | @token offset gap covered after t _ ts _ _ _ hforms _ ih =>
    have hcovered := hforms.countP_isBracket b
    rw [List.map_cons, ← List.singleton_append, List.count_append, List.count_append,
      List.countP_append, List.countP_append]
    omega

theorem surplus_tokens_of_cut {text : String} {ts : List Token} {finish : Token}
    (hts : tokens text = ts ++ [finish]) (hcut : Cut 0 text.toList ts finish) (b : Bracket) :
    b.surplus ((tokens text).map Token.kind) = b.surplus (ts.map Token.kind) := by
  have hend : b.surplus [.endOfInput] = 0 := by cases b <;> decide
  rw [hts, hcut.finish_eq, List.map_append, b.surplus_append]
  exact (congrArg _ hend).trans (Int.add_zero _)

/-- An input is complete if its tokens leave no brackets open, as far as the counters suffice. -/
theorem bracketsClosed_iff_of_surplus {text : String}
    (h : ∀ b : Bracket, (b.surplus ((tokens text).map Token.kind)).natAbs < 2 ^ 31) :
    bracketsClosed text = true ↔ NoneOpen (tokens text) := by
  obtain ⟨ts, finish, hts, hcut⟩ := (Scanner.ofText text).cut
  rw [bracketsClosed, OpenBrackets.allClosed_iff]
  refine forall_congr' (fun b => ?_)
  have hstart : OpenBrackets.start.count b = 0 := by cases b <;> rfl
  have hfold := hcut.count_foldl_after (o := .start) rfl b
  have hsize := h b
  rw [hstart, Int32.zero_add, ← surplus_tokens_of_cut hts hcut] at hfold
  have hcount : (text.toList.foldl OpenBrackets.after .start).count b =
      Int32.ofInt (b.surplus ((tokens text).map Token.kind)) := hfold
  rw [hcount, Int32.le_iff_toInt_le, Int32.toInt_ofInt_of_le (by omega) (by omega),
    Int32.toInt_zero]
  simp only [Bracket.surplus]
  omega

theorem bracketsClosed_iff {text : String} (h : text.toList.countP isBracket < 2 ^ 31) :
    bracketsClosed text = true ↔ NoneOpen (tokens text) := by
  refine bracketsClosed_iff_of_surplus (fun b => ?_)
  obtain ⟨ts, finish, hts, hcut⟩ := (Scanner.ofText text).cut
  have hbound : (ts.map Token.kind).count b.opening + (ts.map Token.kind).count b.closing ≤
      text.toList.countP isBracket := hcut.countP_isBracket b
  rw [surplus_tokens_of_cut hts hcut]
  simp only [Bracket.surplus]
  omega

end Treewalk
