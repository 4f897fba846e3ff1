import Treewalk.Proofs.Grammar.Layout
import Treewalk.Proofs.Grammar.Printable
import Treewalk.Tree.Printer

namespace Treewalk

/-- Whether some terminal takes in the character. -/
def isTakenIn (c : Char) : Bool := isLetter c || c.isDigit || c == '='

/-- No terminal takes in the first character. -/
def Detached (cs : List Char) : Prop := ∀ c ∈ cs.head?, isTakenIn c = false

theorem Detached.cons {c : Char} {cs : List Char} (h : isTakenIn c = false) :
    Detached (c :: cs) := by
  intro d hd
  obtain rfl := Option.some.inj hd
  exact h

theorem Detached.takesIn {cs : List Char} (h : Detached cs) (w : Terminal) :
    ∀ c ∈ cs.head?, w.takesIn c = false := by
  intro c hc
  have hnone := h c hc
  simp only [isTakenIn, Bool.or_eq_false_iff] at hnone
  obtain ⟨⟨hletter, hdigit⟩, hequals⟩ := hnone
  unfold Terminal.takesIn
  split <;> simp [*]

/-- Signs that take nothing in and that nothing takes in. -/
def TokenKind.isDelimiter : TokenKind → Bool
  | comma | colon | semicolon => true
  | leftParen | rightParen | leftBrace | rightBrace | leftBracket | rightBracket => true
  | _ => false

theorem Detached.delimiter {k : TokenKind} (hk : k.isDelimiter = true) (cs : List Char) :
    Detached (k.spelling ++ cs) := by
  cases k <;> first | exact .cons rfl | contradiction

section
variable {ws : List Terminal} {cs : List Char}

theorem Laid.cons {p : Terminal → List Char → Prop} (h : Laid p ws cs) {w : Terminal}
    (hw : p w cs) : Laid p (w :: ws) (w.chars ++ cs) := by
  have hgap : ∀ c ∈ ([] : List Char), isSpace c = true := by simp
  exact .terminal hgap hw h

theorem Laid.delimiter (h : Parted ws cs) (k : TokenKind) (hk : k.isDelimiter = true) :
    Parted (.sign k :: ws) (k.spelling ++ cs) := by
  refine h.cons (fun c _ => ?_)
  cases k <;> first | rfl | contradiction

theorem Laid.word (h : Parted ws cs) (w : Terminal) : Parted (w :: ws) (w.chars ++ ' ' :: cs) :=
  (h.blank rfl).cons (Detached.takesIn (.cons rfl) w)

end

/-- In front of any text that is laid out, and detached from what comes before it, the text makes
something that is spelled. So a text is built from its end. -/
def Writes (text : String) (spelled : List Terminal → List Terminal → Prop) : Prop :=
  ∀ rest cs, Parted rest cs → Detached cs → ∃ ws, Parted ws (text.toList ++ cs) ∧ spelled ws rest

section
variable {text : String} {spelled : List Terminal → List Terminal → Prop} {rest : List Terminal}
  {cs : List Char}

theorem Writes.terminal (w : Terminal) (hw : text.toList = w.chars)
    (h : ∀ rest, spelled (w :: rest) rest) : Writes text spelled := by
  intro rest cs hrest hcs
  rw [hw]
  exact ⟨w :: rest, hrest.cons (hcs.takesIn w), h rest⟩

theorem Writes.before (h : Writes text spelled) (hrest : Parted rest cs) (k : TokenKind)
    (hk : k.isDelimiter = true) :
    ∃ ws, Parted ws (text.toList ++ (k.spelling ++ cs)) ∧ spelled ws (.sign k :: rest) :=
  h _ _ (hrest.delimiter k hk) (.delimiter hk cs)

theorem Writes.beforeBlank (h : Writes text spelled) (hrest : Parted rest cs) :
    ∃ ws, Parted ws (text.toList ++ ' ' :: cs) ∧ spelled ws rest :=
  h _ _ (hrest.blank rfl) (.cons rfl)

end

section
variable {α : Type} {item : α → List Terminal → List Terminal → Prop} {a : α} {as : List α}
  {first others : String}

/-- The first of the items that are listed, and the others. -/
theorem Writes.listed (hfirst : Writes first (item a)) (hothers : Writes others (Listed item as))
    (hlast : as = [] → others = "") :
    Writes (first ++ itemGap as ++ others) (Listed item (a :: as)) := by
  intro rest cs hrest hcs
  cases as with
  | nil =>
    obtain ⟨ws, hws, ha⟩ := hfirst rest cs hrest hcs
    rw [hlast rfl]
    exact ⟨ws, by simpa [itemGap] using hws, .some (.one ha)⟩
  | cons b as =>
    obtain ⟨ws', hws', hlisted⟩ := hothers rest cs hrest hcs
    obtain ⟨ws, hws, ha⟩ := hfirst.before (hws'.blank (c := ' ') rfl) .comma rfl
    have hspelled : Separated item (b :: as) ws' rest := by
      cases hlisted with
      | some h => exact h
    refine ⟨ws, ?_, .some (.more ha hspelled)⟩
    simpa [itemGap, TokenKind.spelling] using hws

end

theorem isNumeral_toString (n : Nat) : IsNumeral (toString n) ∧ numeralValue (toString n) = n := by
  have hchars : (toString n).toList = Nat.toDigits 10 n := by simp [toString, Nat.repr]
  refine ⟨⟨?_, ?_⟩, ?_⟩
  · rw [hchars]
    exact Nat.toDigits_ne_nil
  · rw [hchars]
    intro c hc
    exact Nat.isDigit_of_mem_toDigits (by decide) (by decide) hc
  · rw [numeralValue, hchars, Nat.ofDigitChars_ten_toDigits]

theorem writes_integer {n : Int64} (h : 0 ≤ n.toInt) :
    Writes (toString n.toInt) (SpellsBare .tidy (.integer n)) := by
  obtain ⟨m, hm⟩ := Int.eq_ofNat_of_zero_le h
  obtain ⟨hnumeral, hvalue⟩ := isNumeral_toString m
  have htext : toString n.toInt = toString m := by rw [hm]; rfl
  rw [htext]
  exact .terminal (.number (toString m)) rfl (fun rest => .integer hnumeral (by rw [hm, hvalue]))

theorem writes_parameters {parameters : List String} (h : ∀ s ∈ parameters, IsName s) :
    Writes (parameterText parameters) (Listed SpellsName parameters) := by
  induction parameters with
  | nil => exact fun rest _ hrest _ => ⟨rest, hrest, .none⟩
  | cons s parameters ih =>
    have hfirst : Writes s (SpellsName s) := .terminal (.name s) rfl (fun _ => .name)
    refine hfirst.listed (ih (fun t ht => h t (by simp [ht]))) ?_
    intro hnil
    rw [hnil]
    rfl

theorem head_ne_of_forall {s : String} {p : Char → Bool} (hne : s.toList ≠ [])
    (hall : ∀ c ∈ s.toList, p c = true) {d : Char} (hd : p d = false) :
    ∃ c cs, s.toList = c :: cs ∧ c ≠ d := by
  cases hs : s.toList with
  | nil => exact absurd hs hne
  | cons c cs =>
    refine ⟨c, cs, rfl, ?_⟩
    intro hcd
    have hc := hall c (by rw [hs]; exact List.mem_cons_self)
    rw [hcd, hd] at hc
    contradiction

/-- The text of a printable expression starts with no equals sign, which an exclamation mark before
it would take in. -/
theorem Expression.head_render : ∀ e : Expression, e.Printable →
    ∃ c cs, e.render.toList = c :: cs ∧ c ≠ '='
  | .identifier s, h => head_ne_of_forall h.1 h.2.1 rfl
  | .integer n, h => by
    obtain ⟨m, hm⟩ := Int.eq_ofNat_of_zero_le h
    have htext : toString n.toInt = toString m := by rw [hm]; rfl
    obtain ⟨hne, hall⟩ := (isNumeral_toString m).1
    rw [Expression.render, htext]
    exact head_ne_of_forall hne hall rfl
  | .boolean true, _ => ⟨'t', _, rfl, by simp⟩
  | .boolean false, _ => ⟨'f', _, rfl, by simp⟩
  | .string _, _ => ⟨'"', _, by simp [Expression.render, String.toList_append]; rfl, by simp⟩
  | .call f arguments, h => by
    obtain ⟨c, cs, hf, hc⟩ := f.head_render h.1
    exact ⟨c, _, by simp only [Expression.render, String.toList_append, hf]; rfl, hc⟩
  | .unary .., _ | .binary .., _ | .index .., _ =>
    ⟨'(', _, by simp only [Expression.render, String.toList_append]; rfl, by simp⟩
  | .conditional _ _ none, _ | .conditional _ _ (some _), _ =>
    ⟨'i', _, by simp only [Expression.render, String.toList_append]; rfl, by simp⟩
  | .function .., _ =>
    ⟨'f', _, by simp only [Expression.render, String.toList_append]; rfl, by simp⟩
  | .array .., _ => ⟨'[', _, by simp only [Expression.render, String.toList_append]; rfl, by simp⟩
  | .hash .., _ => ⟨'{', _, by simp only [Expression.render, String.toList_append]; rfl, by simp⟩

theorem BinaryOperator.toList_symbol (o : BinaryOperator) : o.symbol.toList = o.kind.spelling := by
  cases o <;> rfl

theorem UnaryOperator.toList_symbol (o : UnaryOperator) : o.symbol.toList = o.kind.spelling := by
  cases o <;> rfl

/-- The text spells the expression at every position. -/
abbrev WritesExpression (e : Expression) : Prop :=
  Writes e.render (fun ws rest => ∀ pos : Position, Spells .tidy pos e ws rest)

theorem WritesExpression.whole {e : Expression} (h : WritesExpression e) :
    Writes e.render (Spells .tidy .whole e) := by
  intro rest cs hrest hcs
  obtain ⟨ws, hws, hspells⟩ := h rest cs hrest hcs
  exact ⟨ws, hws, hspells .whole⟩

/-- The expressions that the canonical text writes without parentheses. -/
def Expression.IsBare : Expression → Prop
  | unary .. | binary .. | index .. => False
  | _ => True

theorem Expression.IsBare.admitted {e : Expression} (h : e.IsBare) (pos : Position) :
    pos.Admits e := by
  cases e <;> first | contradiction | (cases pos <;> trivial)

theorem writes_bare {e : Expression} {text : String} (he : e.IsBare)
    (h : Writes text (SpellsBare .tidy e)) :
    Writes text (fun ws rest => ∀ pos : Position, Spells .tidy pos e ws rest) := by
  intro rest cs hrest hcs
  obtain ⟨ws, hws, hspells⟩ := h rest cs hrest hcs
  exact ⟨ws, hws, fun pos => .bare (he.admitted pos) hspells⟩

theorem writes_unary {o : UnaryOperator} {e : Expression} (hp : e.Printable)
    (he : WritesExpression e) : WritesExpression (.unary o e) := by
  intro rest cs hrest hcs
  obtain ⟨ws, hws, hspells⟩ := he.before hrest .rightParen rfl
  obtain ⟨c, cs', htext, hc⟩ := e.head_render hp
  have hsign :
      Parted (.sign o.kind :: ws) (o.kind.spelling ++ (e.render.toList ++ (')' :: cs))) := by
    refine hws.cons ?_
    rw [htext]
    intro d hd
    obtain rfl := Option.some.inj hd
    cases o
    · simpa [Terminal.takesIn, UnaryOperator.kind] using hc
    · rfl
  refine ⟨_, ?_, fun pos => .enclosed (.bare trivial (.unary (hspells .operand)))⟩
  simpa [TokenKind.spelling, o.toList_symbol] using hsign.delimiter .leftParen rfl

theorem writes_binary {o : BinaryOperator} {a b : Expression} (ha : WritesExpression a)
    (hb : WritesExpression b) : WritesExpression (.binary o a b) := by
  intro rest cs hrest hcs
  obtain ⟨wb, hwb, hspellsb⟩ := hb.before hrest .rightParen rfl
  obtain ⟨wa, hwa, hspellsa⟩ := ha.beforeBlank (hwb.word (.sign o.kind))
  refine ⟨_, ?_, fun pos => .enclosed (.bare trivial (.binary (hspellsa _) (hspellsb _)))⟩
  simpa [TokenKind.spelling, Terminal.chars, o.toList_symbol] using
    hwa.delimiter .leftParen rfl

theorem writes_index {c i : Expression} (hc : WritesExpression c) (hi : WritesExpression i) :
    WritesExpression (.index c i) := by
  intro rest cs hrest hcs
  obtain ⟨wi, hwi, hspellsi⟩ := hi.before (hrest.delimiter .rightParen rfl) .rightBracket rfl
  obtain ⟨wc, hwc, hspellsc⟩ := hc.before hwi .leftBracket rfl
  refine ⟨_, ?_, fun pos => .enclosed (.bare trivial (.index (hspellsc _) (hspellsi _)))⟩
  simpa [TokenKind.spelling] using hwc.delimiter .leftParen rfl

theorem writes_call {f : Expression} {arguments : List Expression} (hf : WritesExpression f)
    (hs : Writes (renderExpressions arguments) (Listed (Spells .tidy .whole) arguments)) :
    Writes (Expression.call f arguments).render (SpellsBare .tidy (.call f arguments)) := by
  intro rest cs hrest hcs
  obtain ⟨ws, hws, hlisted⟩ := hs.before hrest .rightParen rfl
  obtain ⟨wf, hwf, hspells⟩ := hf.before hws .leftParen rfl
  refine ⟨wf, ?_, .call (hspells _) hlisted⟩
  simpa [TokenKind.spelling] using hwf

theorem writes_array {text : String} {elements : List Expression}
    (hs : Writes text (Listed (Spells .tidy .whole) elements)) :
    Writes ("[" ++ text ++ "]") (SpellsBare .tidy (.array elements)) := by
  intro rest cs hrest hcs
  obtain ⟨ws, hws, hlisted⟩ := hs.before hrest .rightBracket rfl
  refine ⟨_, ?_, .array hlisted⟩
  simpa [TokenKind.spelling] using hws.delimiter .leftBracket rfl

theorem writes_hash {text : String} {pairs : List (Expression × Expression)}
    (hs : Writes text (Listed (SpellsPair .tidy) pairs)) :
    Writes ("\x7b" ++ text ++ "\x7d") (SpellsBare .tidy (.hash pairs)) := by
  intro rest cs hrest hcs
  obtain ⟨ws, hws, hlisted⟩ := hs.before hrest .rightBrace rfl
  refine ⟨_, ?_, .hash hlisted⟩
  simpa [TokenKind.spelling] using hws.delimiter .leftBrace rfl

theorem writes_pair {keyText valueText : String} {key value : Expression}
    (hk : Writes keyText (Spells .tidy .whole key))
    (hv : Writes valueText (Spells .tidy .whole value)) :
    Writes (keyText ++ ": " ++ valueText) (SpellsPair .tidy (key, value)) := by
  intro rest cs hrest hcs
  obtain ⟨wv, hwv, hvalue⟩ := hv _ _ hrest hcs
  obtain ⟨wk, hwk, hkey⟩ := hk.before (hwv.blank (c := ' ') rfl) .colon rfl
  refine ⟨wk, ?_, .pair hkey hvalue⟩
  simpa [TokenKind.spelling] using hwk

theorem writes_conditional {c : Expression} {body : Block} (hc : WritesExpression c)
    (hbody : Writes (renderBlock body) (SpellsBlock .tidy body)) :
    Writes (Expression.conditional c body none).render
      (SpellsBare .tidy (.conditional c body none)) := by
  intro rest cs hrest hcs
  obtain ⟨wb, hwb, hblock⟩ := hbody _ _ hrest hcs
  obtain ⟨wc, hwc, hspells⟩ := hc.before (hwb.blank (c := ' ') rfl) .rightParen rfl
  refine ⟨_, ?_, .conditional (hspells _) hblock⟩
  simpa [TokenKind.spelling, Terminal.chars] using
    (hwc.delimiter .leftParen rfl).word (.sign .ifWord)

theorem writes_alternative {c : Expression} {body other : Block} (hc : WritesExpression c)
    (hbody : Writes (renderBlock body) (SpellsBlock .tidy body))
    (hother : Writes (renderBlock other) (SpellsBlock .tidy other)) :
    Writes (Expression.conditional c body (some other)).render
      (SpellsBare .tidy (.conditional c body (some other))) := by
  intro rest cs hrest hcs
  obtain ⟨wo, hwo, hblock'⟩ := hother _ _ hrest hcs
  obtain ⟨wb, hwb, hblock⟩ := hbody.beforeBlank (hwo.word (.sign .elseWord))
  obtain ⟨wc, hwc, hspells⟩ := hc.before (hwb.blank (c := ' ') rfl) .rightParen rfl
  refine ⟨_, ?_, .alternative (hspells _) hblock hblock'⟩
  simpa [TokenKind.spelling, Terminal.chars] using
    (hwc.delimiter .leftParen rfl).word (.sign .ifWord)

theorem writes_function {parameters : List String} {body : Block}
    (hp : ∀ s ∈ parameters, IsName s)
    (hbody : Writes (renderBlock body) (SpellsBlock .tidy body)) :
    Writes (Expression.function parameters body).render
      (SpellsBare .tidy (.function parameters body)) := by
  intro rest cs hrest hcs
  obtain ⟨wb, hwb, hblock⟩ := hbody _ _ hrest hcs
  obtain ⟨wp, hwp, hlisted⟩ :=
    (writes_parameters hp).before (hwb.blank (c := ' ') rfl) .rightParen rfl
  refine ⟨_, ?_, .function hlisted hblock⟩
  have hword : Parted (.sign .functionWord :: .sign .leftParen :: wp) _ :=
    (hwp.delimiter .leftParen rfl).cons (Detached.takesIn (.cons rfl) _)
  simpa [TokenKind.spelling, Terminal.chars] using hword

/-- In front of the text of the statements after it, if there are any, the text of the statement
spells it. -/
def WritesStatement (s : Statement) : Prop :=
  ∀ (others : Block) ws cs, Parted ws cs →
    (others = [] → Detached cs ∧ (ws = [] ∨ leadingKind ws = .rightBrace)) →
    ∃ ws' ws'', Parted ws' ((s.render ++ s.gap others).toList ++ cs) ∧
      SpellsStatement .tidy s ws' ws'' ∧ StatementEnd .tidy ws'' ws

theorem Laid.itself_or_blank {p : Terminal → List Char → Prop} {ws : List Terminal} {cs : List Char}
    (h : Laid p ws cs) {α : Type} (others : List α) :
    Laid p ws ((if others.isEmpty then "" else " ").toList ++ cs) := by
  cases others with
  | nil => simpa using h
  | cons _ _ => simpa using h.blank (c := ' ') rfl

theorem writes_binding {s : String} {e : Expression} (he : WritesExpression e) :
    WritesStatement (.binding s e) := by
  intro others ws cs hws _
  obtain ⟨we, hwe, hspells⟩ := he.before (hws.itself_or_blank others) .semicolon rfl
  refine ⟨_, _, ?_, .binding (hspells _), .semicolon⟩
  have hassign := (hwe.word (.sign .assign)).word (.name s)
  simpa [Statement.gap, TokenKind.spelling, Terminal.chars] using
    hassign.word (.sign .letWord)

theorem writes_return {e : Expression} (he : WritesExpression e) :
    WritesStatement (.return e) := by
  intro others ws cs hws _
  obtain ⟨we, hwe, hspells⟩ := he.before (hws.itself_or_blank others) .semicolon rfl
  refine ⟨_, _, ?_, .return (hspells _), .semicolon⟩
  simpa [Statement.gap, TokenKind.spelling, Terminal.chars] using
    hwe.word (.sign .returnWord)

theorem writes_expression {e : Expression} (he : WritesExpression e) :
    WritesStatement (.expression e) := by
  intro others ws cs hws hlast
  cases others with
  | nil =>
    obtain ⟨hcs, hend⟩ := hlast rfl
    obtain ⟨we, hwe, hspells⟩ := he _ _ hws hcs
    exact ⟨we, ws, by simpa [Statement.gap] using hwe, .expression (hspells _),
      .last hend⟩
  | cons _ _ =>
    obtain ⟨we, hwe, hspells⟩ := he.before (hws.blank (c := ' ') rfl) .semicolon rfl
    refine ⟨we, _, ?_, .expression (hspells _), .semicolon⟩
    simpa [Statement.gap, TokenKind.spelling] using hwe

/-- The text spells the statements where they end a block or a program. -/
def WritesStatements (ss : Block) : Prop :=
  ∀ rest cs, Parted rest cs → Detached cs → (rest = [] ∨ leadingKind rest = .rightBrace) →
    ∃ ws, Parted ws ((renderStatements ss).toList ++ cs) ∧ SpellsStatements .tidy ss ws rest

theorem WritesStatements.cons {s : Statement} {ss : Block} (hs : WritesStatement s)
    (hss : WritesStatements ss) : WritesStatements (s :: ss) := by
  intro rest cs hrest hcs hend
  obtain ⟨ws, hws, hothers⟩ := hss rest cs hrest hcs hend
  have hlast : ss = [] → Detached ((renderStatements ss).toList ++ cs) ∧
      (ws = [] ∨ leadingKind ws = .rightBrace) := by
    intro hnil
    subst hnil
    cases hothers
    exact ⟨by simpa [renderStatements] using hcs, hend⟩
  obtain ⟨ws', ws'', hws', hfirst, hsend⟩ := hs ss ws _ hws hlast
  exact ⟨ws', by simpa [renderStatements] using hws', .cons hfirst hsend hothers⟩

theorem WritesStatements.block {body : Block} (h : WritesStatements body) :
    Writes (renderBlock body) (SpellsBlock .tidy body) := by
  intro rest cs hrest _
  have hclose := (hrest.delimiter .rightBrace rfl).blank (c := ' ') rfl
  obtain ⟨ws, hws, hbody⟩ := h _ _ hclose (.cons rfl) (.inr rfl)
  cases body with
  | nil =>
    cases hbody
    exact ⟨_, hclose.delimiter .leftBrace rfl, .closed .nil⟩
  | cons s ss =>
    refine ⟨_, ?_, .closed hbody⟩
    simpa [renderBlock, renderStatements, TokenKind.spelling, Terminal.chars] using
      hws.word (.sign .leftBrace)

mutual

theorem writesExpression : ∀ e : Expression, e.Printable → WritesExpression e
  | .identifier s, _ => writes_bare trivial (.terminal (.name s) rfl (fun _ => .identifier))
  | .integer _, h => writes_bare trivial (writes_integer h)
  | .boolean true, _ =>
    writes_bare trivial (.terminal (.sign .trueWord) rfl (fun _ => .truth))
  | .boolean false, _ =>
    writes_bare trivial (.terminal (.sign .falseWord) rfl (fun _ => .falsehood))
  | .string s, _ =>
    writes_bare trivial (.terminal (.quoted s) (by simp [Terminal.chars])
      (fun _ => .string))
  | .unary _ e, h => writes_unary h (writesExpression e h)
  | .binary _ a b, h => writes_binary (writesExpression a h.1) (writesExpression b h.2)
  | .conditional c body none, h =>
    writes_bare trivial
      (writes_conditional (writesExpression c h.1) (writesStatements body h.2).block)
  | .conditional c body (some other), h =>
    writes_bare trivial
      (writes_alternative (writesExpression c h.1) (writesStatements body h.2.1).block
        (writesStatements other h.2.2).block)
  | .function _ body, h =>
    writes_bare trivial (writes_function h.1 (writesStatements body h.2).block)
  | .call f arguments, h =>
    writes_bare trivial (writes_call (writesExpression f h.1) (writesExpressions arguments h.2))
  | .array elements, h => writes_bare trivial (writes_array (writesExpressions elements h))
  | .index c i, h => writes_index (writesExpression c h.1) (writesExpression i h.2)
  | .hash pairs, h => writes_bare trivial (writes_hash (writesPairs pairs h))

theorem writesStatement : ∀ s : Statement, s.Printable → WritesStatement s
  | .binding _ e, h => writes_binding (writesExpression e h.2)
  | .return e, h => writes_return (writesExpression e h)
  | .expression e, h => writes_expression (writesExpression e h)

theorem writesStatements : ∀ ss : Block, PrintableStatements ss → WritesStatements ss
  | [], _ => fun rest _ hrest _ _ => ⟨rest, hrest, .nil⟩
  | s :: ss, h => .cons (writesStatement s h.1) (writesStatements ss h.2)

theorem writesExpressions : ∀ es : List Expression, PrintableExpressions es →
    Writes (renderExpressions es) (Listed (Spells .tidy .whole) es)
  | [], _ => fun rest _ hrest _ => ⟨rest, hrest, .none⟩
  | e :: es, h =>
    (writesExpression e h.1).whole.listed (writesExpressions es h.2) (fun hnil => by rw [hnil]; rfl)

theorem writesPairs : ∀ pairs : List (Expression × Expression), PrintablePairs pairs →
    Writes (renderPairs pairs) (Listed (SpellsPair .tidy) pairs)
  | [], _ => fun rest _ hrest _ => ⟨rest, hrest, .none⟩
  | (key, value) :: pairs, h =>
    (writes_pair (writesExpression key h.1).whole (writesExpression value h.2.1).whole).listed
      (writesPairs pairs h.2.2) (fun hnil => by rw [hnil]; rfl)

end

/-- The canonical text of a printable program is laid out from a tidy spelling of the program. -/
theorem Program.Printable.exists_spelled {p : Program} (h : p.Printable) :
    ∃ ws, p.Spelled .tidy ws ∧ Parted ws p.render.toList := by
  have hblank : Parted [] [] := .blanks (by simp)
  obtain ⟨ws, hws, hspelled⟩ :=
    writesStatements p.statements h [] [] hblank (by simp [Detached]) (.inl rfl)
  exact ⟨ws, hspelled, by simpa [Program.render] using hws⟩

end Treewalk
