import Mathlib.Data.List.Forall2
import Treewalk.Proofs.Reading.Complaints
import Treewalk.Proofs.Scanning.Gaps

namespace Treewalk

open Reader

def Token.relocate (f : Span → Span) (t : Token) : Token := { t with span := f t.span }

namespace Diagnostic

/-- The same diagnostic at another place. -/
def withSpan (span : Span) : Diagnostic → Diagnostic
  | unexpected expected found _ => unexpected expected found span
  | noRule found _ => noRule found span
  | integerTooLarge literal _ => integerTooLarge literal span

def relocate (f : Span → Span) (d : Diagnostic) : Diagnostic := d.withSpan (f d.span)

variable (d : Diagnostic) (s : Span)

@[simp] theorem span_withSpan : (d.withSpan s).span = s := by cases d <;> rfl

@[simp] theorem message_withSpan : (d.withSpan s).message = d.message := by cases d <;> rfl

@[simp] theorem code_withSpan : (d.withSpan s).code = d.code := by cases d <;> rfl

@[simp] theorem help_withSpan : (d.withSpan s).help = d.help := by cases d <;> rfl

@[simp] theorem label_withSpan : (d.withSpan s).label = d.label := by cases d <;> rfl

end Diagnostic

def ReadingStep.relocate (f : Span → Span) : ReadingStep → ReadingStep
  | enter routine depth current => enter routine depth (current.relocate f)
  | leave routine depth => leave routine depth
  | raise d current => raise (d.relocate f) (current.relocate f)

theorem ReadingStep.diagnostic?_relocate (f : Span → Span) (s : ReadingStep) :
    (s.relocate f).diagnostic? = s.diagnostic?.map (·.relocate f) := by
  cases s <;> rfl

namespace Cursor

def relocate (f : Span → Span) (c : Cursor) : Cursor :=
  ⟨c.pending.map (·.relocate f), c.finish.relocate f, c.depth, c.trail.map (·.relocate f)⟩

variable (f : Span → Span) (c : Cursor)

theorem current_relocate : (c.relocate f).current = c.current.relocate f := by
  obtain ⟨pending, _, _, _⟩ := c
  cases pending <;> rfl

theorem advance_relocate : (c.relocate f).advance = c.advance.relocate f := by
  obtain ⟨pending, _, _, _⟩ := c
  cases pending <;> rfl

theorem upcoming_relocate : (c.relocate f).upcoming = c.upcoming.relocate f := by
  have hnext : ∀ c : Cursor, c.upcoming = c.advance.current := fun _ => rfl
  rw [hnext, advance_relocate, current_relocate, ← hnext]

theorem raise_relocate (d : Diagnostic) :
    (c.relocate f).raise (d.relocate f) = (c.raise d).relocate f := by
  rw [raise, current_relocate]
  rfl

theorem enter_relocate (routine : Routine) :
    (c.relocate f).enter routine = (c.enter routine).relocate f := by
  rw [enter, current_relocate]
  rfl

theorem leave_relocate (routine : Routine) :
    (c.relocate f).leave routine = (c.leave routine).relocate f := rfl

end Cursor

/-- At moved tokens the second action does what the first one does at the tokens themselves. -/
def Reader.Mirrors (f : Span → Span) {α : Type} (p q : Reader α) : Prop :=
  ∀ c : Cursor, q (c.relocate f) = ((p c).1, (p c).2.relocate f)

namespace Reader.Mirrors

variable {f : Span → Span} {α β : Type} {p q : Reader α} {g h : α → Reader β}

theorem pure {a : α} : Mirrors f (Pure.pure a) (Pure.pure a) := fun _ => rfl

theorem fail : Mirrors f (Reader.fail : Reader α) Reader.fail := fun _ => rfl

theorem raise {d : Diagnostic} :
    Mirrors f (Reader.raise d : Reader α) (Reader.raise (d.relocate f)) := fun c => by
  rw [raise_apply, raise_apply, Cursor.raise_relocate]

theorem advance : Mirrors f Reader.advance Reader.advance := fun c => by
  rw [advance_apply, advance_apply, Cursor.advance_relocate]

theorem bind (hp : Mirrors f p q) (hg : ∀ a, Mirrors f (g a) (h a)) :
    Mirrors f (p >>= g) (q >>= h) := by
  intro c
  have hq := hp c
  cases hr : p.run c with
  | mk result c' =>
    rw [hr] at hq
    cases result with
    | none => rw [bind_of_none hq, bind_of_none hr]
    | some a => rw [bind_of_some hq, bind_of_some hr, hg a c']

theorem current_bind {g h : Token → Reader β} (hg : ∀ t, Mirrors f (g t) (h (t.relocate f))) :
    Mirrors f (Reader.current >>= g) (Reader.current >>= h) := by
  intro c
  rw [bind_of_some (current_apply _), bind_of_some (current_apply _), Cursor.current_relocate]
  exact hg _ c

theorem upcoming_bind {g h : Token → Reader β} (hg : ∀ t, Mirrors f (g t) (h (t.relocate f))) :
    Mirrors f (Reader.upcoming >>= g) (Reader.upcoming >>= h) := by
  intro c
  rw [bind_of_some (upcoming_apply _), bind_of_some (upcoming_apply _), Cursor.upcoming_relocate]
  exact hg _ c

theorem ite {cond : Prop} [Decidable cond] {p' q' : Reader α} (hp : Mirrors f p q)
    (hp' : Mirrors f p' q') :
    Mirrors f (if cond then p else p') (if cond then q else q') := by
  by_cases h : cond
  · rwa [if_pos h, if_pos h]
  · rwa [if_neg h, if_neg h]

theorem expect {kind : TokenKind} : Mirrors f (Reader.expect kind) (Reader.expect kind) := by
  intro c
  have hnext := c.upcoming_relocate f
  have hkind : (c.relocate f).upcoming.kind = c.upcoming.kind := by
    rw [hnext]
    rfl
  by_cases h : c.upcoming.kind = kind
  · rw [expect_apply_of_eq h, expect_apply_of_eq (hkind.trans h), Cursor.advance_relocate]
  · rw [expect_apply_of_ne h, expect_apply_of_ne (hkind ▸ h), hnext, ← Cursor.raise_relocate]
    rfl

theorem skip {kind : TokenKind} : Mirrors f (Reader.skip kind) (Reader.skip kind) := by
  intro c
  rw [skip_apply, skip_apply, Cursor.upcoming_relocate, Cursor.advance_relocate]
  by_cases h : c.upcoming.kind = kind
  · rw [if_pos h, if_pos (show (c.upcoming.relocate f).kind = kind from h)]
  · rw [if_neg h, if_neg (show (c.upcoming.relocate f).kind ≠ kind from h)]

theorem orNone (h : Mirrors f p q) : Mirrors f (Reader.orNone p) (Reader.orNone q) := fun c => by
  rw [orNone_apply, orNone_apply, h c]

theorem within {routine : Routine} (h : Mirrors f p q) :
    Mirrors f (Reader.within routine p) (Reader.within routine q) := fun c => by
  rw [within_apply, within_apply, Cursor.enter_relocate, h, Cursor.leave_relocate]

end Reader.Mirrors

section
variable {f : Span → Span} {e : ExpressionReader} (he : ∀ p, Mirrors f (e p) (e p))
include he

theorem mirrors_letStatement : Mirrors f (letStatement e) (letStatement e) := by
  refine .within (.bind .expect (fun _ => .current_bind (fun name => ?_)))
  refine .bind .expect (fun _ => .bind .advance (fun _ => ?_))
  exact .bind (he .lowest) (fun value => .bind .skip (fun _ => .pure))

theorem mirrors_returnStatement : Mirrors f (returnStatement e) (returnStatement e) := by
  refine .within (.bind .advance (fun _ => ?_))
  exact .bind (he .lowest) (fun value => .bind .skip (fun _ => .pure))

theorem mirrors_expressionStatement :
    Mirrors f (expressionStatement e) (expressionStatement e) :=
  .within (.bind (he .lowest) (fun _ => .bind .skip (fun _ => .pure)))

theorem mirrors_statement : Mirrors f (statement e) (statement e) := by
  refine .within (.current_bind (fun t => ?_))
  have hkind : (t.relocate f).kind = t.kind := rfl
  rw [hkind]
  cases t.kind
  case letWord => exact mirrors_letStatement he
  case returnWord => exact mirrors_returnStatement he
  all_goals exact mirrors_expressionStatement he

theorem mirrors_statementsUntil (stops : TokenKind → Bool) (rounds : Nat) :
    Mirrors f (statementsUntil stops e rounds) (statementsUntil stops e rounds) := by
  induction rounds with
  | zero => exact .pure
  | succ rounds ih =>
    refine .current_bind (fun t => .ite .pure ?_)
    refine .bind (.orNone (mirrors_statement he)) (fun first => .bind .advance (fun _ => ?_))
    exact .bind ih (fun rest => .pure)

theorem mirrors_block (rounds : Nat) : Mirrors f (block e rounds) (block e rounds) :=
  .within (.bind .advance (fun _ => mirrors_statementsUntil he endsBlock rounds))

omit he in
theorem mirrors_itemsAfterCommas {α : Type} {item : Reader α} (hitem : Mirrors f item item)
    (rounds : Nat) : Mirrors f (itemsAfterCommas item rounds) (itemsAfterCommas item rounds) := by
  induction rounds with
  | zero => exact .pure
  | succ rounds ih =>
    refine .upcoming_bind (fun t => .ite ?_ .pure)
    refine .bind .advance (fun _ => .bind .advance (fun _ => .bind hitem (fun first => ?_)))
    exact .bind ih (fun rest => .pure)

omit he in
theorem mirrors_delimited {α : Type} {close : TokenKind} {item : Reader α}
    (hitem : Mirrors f item item) (rounds : Nat) :
    Mirrors f (delimited close item rounds) (delimited close item rounds) := by
  refine .within (.upcoming_bind (fun t => .ite (.bind .advance (fun _ => .pure)) ?_))
  refine .bind .advance (fun _ => .bind hitem (fun first => ?_))
  exact .bind (mirrors_itemsAfterCommas hitem rounds) (fun rest => .bind .expect (fun _ => .pure))

omit he in
theorem mirrors_parameter : Mirrors f parameter parameter :=
  .current_bind (fun _ => .ite .pure .raise)

theorem mirrors_hashPair : Mirrors f (hashPair e) (hashPair e) := by
  refine .bind (he .lowest) (fun key => .bind .expect (fun _ => .bind .advance (fun _ => ?_)))
  exact .bind (he .lowest) (fun value => .pure)

theorem mirrors_conditional (rounds : Nat) :
    Mirrors f (conditional e rounds) (conditional e rounds) := by
  refine .within (.bind .expect (fun _ => .bind .advance (fun _ => ?_)))
  refine .bind (he .lowest) (fun condition => .bind .expect (fun _ => .bind .expect (fun _ => ?_)))
  refine .bind (mirrors_block he rounds) (fun consequence => ?_)
  refine .upcoming_bind (fun t => .ite ?_ .pure)
  refine .bind .advance (fun _ => .bind .expect (fun _ => ?_))
  exact .bind (mirrors_block he rounds) (fun alternative => .pure)

theorem mirrors_function (rounds : Nat) :
    Mirrors f (functionLiteral e rounds) (functionLiteral e rounds) := by
  refine .within (.bind .expect (fun _ => ?_))
  refine .bind (mirrors_delimited mirrors_parameter rounds) (fun parameters => ?_)
  exact .bind .expect (fun _ => .bind (mirrors_block he rounds) (fun body => .pure))

theorem mirrors_operand (rounds : Nat) (t : Token) :
    Mirrors f (operand e rounds t) (operand e rounds (t.relocate f)) := by
  have hkind : (t.relocate f).kind = t.kind := rfl
  have hunary : ∀ o, Mirrors f (unaryExpression e o) (unaryExpression e o) :=
    fun o => .within (.bind .advance (fun _ => .bind (he .unary) (fun _ => .pure)))
  unfold operand
  rw [hkind]
  cases t.kind
  case identifier => exact .pure
  case integer => exact .ite .pure .raise
  case string => exact .pure
  case trueWord => exact .pure
  case falseWord => exact .pure
  case bang => exact hunary .not
  case minus => exact hunary .negate
  case leftParen =>
    refine .within (.bind .advance (fun _ => .bind (he .lowest) (fun inner => ?_)))
    exact .bind .expect (fun _ => .pure)
  case ifWord => exact mirrors_conditional he rounds
  case functionWord => exact mirrors_function he rounds
  case leftBracket =>
    exact .within (.bind (mirrors_delimited (he .lowest) rounds) (fun elements => .pure))
  case leftBrace =>
    exact .within (.bind (mirrors_delimited (mirrors_hashPair he) rounds) (fun pairs => .pure))
  all_goals exact .raise

theorem mirrors_continuation {rounds : Nat} {kind : TokenKind}
    {goOn : Expression → Reader Expression} (h : continuation? e rounds kind = some goOn)
    (left : Expression) : Mirrors f (goOn left) (goOn left) := by
  unfold continuation? at h
  split at h
  · obtain rfl := Option.some.inj h
    exact .within (.bind (mirrors_delimited (he .lowest) rounds) (fun arguments => .pure))
  · obtain rfl := Option.some.inj h
    refine .within (.bind .advance (fun _ => .bind (he .lowest) (fun index => ?_)))
    exact .bind .expect (fun _ => .pure)
  · obtain ⟨o, _, rfl⟩ := Option.map_eq_some_iff.mp h
    refine .within (.current_bind (fun t => .bind .advance (fun _ => ?_)))
    exact .bind (he _) (fun right => .pure)

theorem mirrors_operatorsAbove (p : Precedence) (n rounds : Nat) (left : Expression) :
    Mirrors f (operatorsAbove p e n rounds left) (operatorsAbove p e n rounds left) := by
  induction rounds generalizing left with
  | zero => exact .pure
  | succ rounds ih =>
    refine .upcoming_bind (fun t => .ite ?_ .pure)
    have hkind : (t.relocate f).kind = t.kind := rfl
    rw [hkind]
    cases h : continuation? e n t.kind with
    | none => exact .pure
    | some goOn =>
      exact .bind .advance (fun _ => .bind (mirrors_continuation he h left) (fun extended => ih _))

end

theorem mirrors_readExpression (f : Span → Span) (n : Nat) (p : Precedence) :
    Mirrors f (readExpression n p) (readExpression n p) := by
  induction n generalizing p with
  | zero => exact .fail
  | succ n ih =>
    refine .within (.current_bind (fun t => .bind (mirrors_operand ih n t) (fun first => ?_)))
    exact mirrors_operatorsAbove ih p n n first

/-- Moved tokens are read as the tokens themselves, and what is raised is raised at the new
places. -/
theorem readTokens_relocate (f : Span → Span) (ts : List Token) (finish : Token) (depth : Nat) :
    readTokens (ts.map (·.relocate f)) (finish.relocate f) depth =
      ((readTokens ts finish depth).1, (readTokens ts finish depth).2.relocate f) := by
  simp only [readTokens, List.length_map]
  exact mirrors_statementsUntil (mirrors_readExpression f _) endsProgram _ ⟨ts, finish, depth, []⟩

theorem Reading.kept_diagnostics (r : Reading) :
    r.diagnostics.kept = r.raised.take DiagnosticList.defaultLimit := by
  rw [diagnostics, DiagnosticList.kept_foldl_add]
  rfl

/-- What is read from moved tokens. -/
theorem read_relocate {f : Span → Span} {source source' : String}
    (h : tokens source' = (tokens source).map (·.relocate f)) :
    (read source').program = (read source).program ∧
      (read source').raised = (read source).raised.map (·.relocate f) := by
  obtain ⟨T, hall⟩ := exists_tape source
  rw [hall, List.map_append, List.map_singleton] at h
  have hread : ∀ {source : String} {ts : List Token} {finish : Token},
      tokens source = ts ++ [finish] → read source =
        ⟨source, ⟨(readTokens ts finish 0).1.getD []⟩, (readTokens ts finish 0).2.trail.reverse,
          (readTokens ts finish 0).2.depth⟩ := by
    intro source ts finish hts
    rw [tokens] at hts
    simp [read, Reading.ofScanner, hts]
  rw [hread h, hread hall, readTokens_relocate]
  refine ⟨rfl, ?_⟩
  simp only [Reading.raised, Cursor.relocate, ← List.map_reverse, List.filterMap_map,
    List.map_filterMap, Function.comp_def, ReadingStep.diagnostic?_relocate]

/-- Tokens at distinct places can be moved to any places. -/
theorem exists_relocate {ts us : List Token}
    (hts : ts.Pairwise (fun t u => t.span.start < u.span.start))
    (h : us.map Token.content = ts.map Token.content) : ∃ f, us = ts.map (·.relocate f) := by
  induction ts generalizing us with
  | nil => exact ⟨id, List.map_eq_nil_iff.mp h⟩
  | cons t ts ih =>
    obtain ⟨hbehind, hrest⟩ := List.pairwise_cons.mp hts
    obtain ⟨u, us, rfl, hu, hus⟩ := List.map_eq_cons_iff.mp h
    obtain ⟨f, rfl⟩ := ih hrest hus
    refine ⟨fun s => if s = t.span then u.span else f s, List.cons_eq_cons.mpr ⟨?_, ?_⟩⟩
    · obtain ⟨kind, literal, span⟩ := u
      obtain ⟨rfl, rfl⟩ := Prod.mk.inj hu
      simp [Token.relocate]
    · refine List.map_congr_left (fun v hv => ?_)
      have hne : v.span ≠ t.span := fun heq => Nat.ne_of_gt (hbehind v hv) (congrArg Span.start heq)
      simp [Token.relocate, hne]

theorem pairwise_start (source : String) :
    (tokens source).Pairwise (fun t u => t.span.start < u.span.start) := by
  obtain ⟨T, hall⟩ := exists_tape source
  exact hall ▸ T.starts

/-- No two tokens stand at the same place. -/
theorem index_eq_of_span {source : String} {i j : Nat} {t u : Token}
    (hi : (tokens source)[i]? = some t) (hj : (tokens source)[j]? = some u)
    (h : t.span = u.span) : i = j := by
  obtain ⟨hi, rfl⟩ := List.getElem?_eq_some_iff.mp hi
  obtain ⟨hj, rfl⟩ := List.getElem?_eq_some_iff.mp hj
  have hstarts := List.pairwise_iff_getElem.mp (pairwise_start source)
  have hsame := congrArg Span.start h
  rcases Nat.lt_trichotomy i j with hlt | heq | hgt
  · exact absurd hsame (Nat.ne_of_lt (hstarts i j _ _ hlt))
  · exact heq
  · exact absurd hsame (Nat.ne_of_gt (hstarts j i _ _ hgt))

theorem exists_token_of_raised {source : String} {d : Diagnostic} (h : d ∈ (read source).raised) :
    ∃ t ∈ tokens source, d.span = t.span := by
  obtain ⟨T, c, hall, _, hbefore, hsteps, _⟩ := exists_tape_read source
  rw [Reading.raised_eq, Reading.complaints, hsteps] at h
  obtain ⟨x, hx, rfl⟩ := List.mem_map.mp h
  obtain ⟨t, ht, hnames, _⟩ := (hbefore.placed_complaints x hx).names
  exact ⟨t, hall ▸ ht, hnames.span_eq⟩

/-- The diagnostics say the same, of tokens that have the same number in their lists. -/
structure Diagnostic.Alike (ts ts' : List Token) (d d' : Diagnostic) : Prop where
  same : d' = d.withSpan d'.span
  texts : d'.message = d.message ∧ d'.code = d.code ∧ d'.help = d.help ∧ d'.label = d.label
  token : ∃ (j : Nat) (t t' : Token), ts[j]? = some t ∧ ts'[j]? = some t' ∧ d.span = t.span ∧
    d'.span = t'.span
  tokens : ∀ (j : Nat) (t t' : Token), ts[j]? = some t → ts'[j]? = some t' →
    (d.span = t.span ↔ d'.span = t'.span)

theorem Diagnostic.alike_relocate {f : Span → Span} {source source' : String}
    (h : Treewalk.tokens source' = (Treewalk.tokens source).map (·.relocate f)) {d : Diagnostic}
    (hd : d ∈ (read source).raised) :
    d.Alike (Treewalk.tokens source) (Treewalk.tokens source') (d.relocate f) := by
  obtain ⟨u, hu, hspan⟩ := exists_token_of_raised hd
  obtain ⟨k, hk⟩ := List.mem_iff_getElem?.mp hu
  have hmoved : ∀ {j : Nat} {t : Token}, (Treewalk.tokens source)[j]? = some t →
      (Treewalk.tokens source')[j]? = some (t.relocate f) := by
    intro j t ht
    rw [h, List.getElem?_map, ht]
    rfl
  have hplace : (d.relocate f).span = (u.relocate f).span := by
    rw [relocate, span_withSpan, hspan]
    rfl
  refine ⟨by simp [relocate], by simp [relocate], ⟨k, u, _, hk, hmoved hk, hspan, hplace⟩,
    fun j t t' ht ht' => ?_⟩
  constructor
  · intro hsame
    obtain rfl := index_eq_of_span hk ht (hspan.symm.trans hsame)
    rw [hplace, Option.some.inj (ht'.symm.trans (hmoved hk))]
  · intro hsame
    obtain rfl := index_eq_of_span (hmoved hk) ht' (hplace.symm.trans hsame)
    rw [hspan, Option.some.inj (ht.symm.trans hk)]

/-- Layout does not matter. Texts with tokens of the same kinds and literals are read as the same
program, and their diagnostics are the same up to the places, which are those of tokens with the
same number. Exchanging blanks between tokens for other blanks leads to such a text. -/
theorem layout_irrelevant :
    (∀ source source', (tokens source').map Token.content = (tokens source).map Token.content →
      (read source').program = (read source).program ∧
        List.Forall₂ (Diagnostic.Alike (tokens source) (tokens source'))
          (read source).diagnostics.kept (read source').diagnostics.kept) ∧
    ∀ before gap gap' after : List Char, gap ≠ [] → gap' ≠ [] →
      (∀ c ∈ gap, c ∈ [' ', '\t', '\n', '\r']) → (∀ c ∈ gap', c ∈ [' ', '\t', '\n', '\r']) →
      (∀ t ∈ tokens (String.ofList (before ++ gap ++ after)),
        t.span.stop ≤ byteWidth before ∨ byteWidth (before ++ gap) ≤ t.span.start) →
      (tokens (String.ofList (before ++ gap' ++ after))).map Token.content =
        (tokens (String.ofList (before ++ gap ++ after))).map Token.content := by
  refine ⟨fun source source' h => ?_, fun before gap gap' after hne hne' _ hgap' hclear => ?_⟩
  · obtain ⟨f, hf⟩ := exists_relocate (pairwise_start source) h
    obtain ⟨hprogram, hraised⟩ := read_relocate hf
    refine ⟨hprogram, ?_⟩
    rw [Reading.kept_diagnostics, Reading.kept_diagnostics, hraised, ← List.map_take,
      List.forall₂_map_right_iff, List.forall₂_same]
    exact fun d hd => Diagnostic.alike_relocate hf (List.mem_of_mem_take hd)
  · refine tokens_regap (fun c hc => ?_) hne hne' hclear
    simpa [isSpace, or_assoc] using hgap' c hc

/-- A `let` without its `=` and what is left of it, on one line and on four. -/
theorem layout_irrelevant_misplaced :
    ((read "let x\n\t5\r)").program = (read "let x 5 )").program ∧
      List.Forall₂ (Diagnostic.Alike (tokens "let x 5 )") (tokens "let x\n\t5\r)"))
        (read "let x 5 )").diagnostics.kept (read "let x\n\t5\r)").diagnostics.kept) ∧
    (tokens (String.ofList ("let x".toList ++ ['\n', '\t'] ++ "5 )".toList))).map Token.content =
      (tokens (String.ofList ("let x".toList ++ [' '] ++ "5 )".toList))).map Token.content :=
  ⟨layout_irrelevant.1 _ _ (by decide), layout_irrelevant.2 _ [' '] _ _ (by decide) (by decide)
    (by simp) (by simp) (by decide)⟩

end Treewalk
