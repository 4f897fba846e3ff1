import Treewalk.Proofs.Reading.Places
import Treewalk.Proofs.Reading.Resuming
import Treewalk.Proofs.Scanning.Seams

namespace Treewalk

theorem Diagnostic.relocate_shift (n : Nat) (d : Diagnostic) :
    d.relocate (Span.shift n) = d.shift n := by
  cases d <;> rfl

theorem Cursor.raised_relocate (f : Span → Span) (c : Cursor) :
    (c.relocate f).raised = c.raised.map (·.relocate f) := by
  simp only [raised, relocate, List.filterMap_map, List.map_filterMap, Function.comp_def,
    ReadingStep.diagnostic?_relocate]

namespace Reading

theorem eq_of_tokens {source : String} {ts : List Token} {finish : Token}
    (h : tokens source = ts ++ [finish]) :
    (read source).program = ⟨(readTokens ts finish 0).1.getD []⟩ ∧
      (read source).raised = (readTokens ts finish 0).2.raised.reverse := by
  obtain ⟨ts', finish', hts', _, hread⟩ := read_eq source
  obtain ⟨rfl, hfinish⟩ := List.append_inj' (h.symm.trans hts') rfl
  rw [List.singleton_inj.mp hfinish]
  exact hread

theorem parse_eq_ok {source : String} {p : Program} (hp : (read source).program = p)
    (hr : (read source).raised = []) : parse source = .ok p := by
  rw [parse, program?_of_raised_eq_nil hr, hp]

end Reading

/-- How many braces a text leaves open. -/
def openBraces (source : String) : Nat :=
  let kinds := (tokens source).map Token.kind
  kinds.count .leftBrace - kinds.count .rightBrace

/-- A text with the quote that its last string lacks. -/
def closeString (source : String) : String :=
  if Even (source.toList.count '"') then source else source ++ "\""

/-- A text with the quote and the braces that it leaves out at its end. -/
def closedForm (source : String) : String :=
  closeString source ++ String.ofList (List.replicate (openBraces source) '}')

theorem even_count_closeString (source : String) :
    Even ((closeString source).toList.count '"') := by
  unfold closeString
  split
  · assumption
  · next hodd =>
    rw [String.toList_append, List.count_append, Nat.even_add]
    exact iff_of_false hodd (by decide)

theorem content_closeString (source : String) :
    (tokens (closeString source)).map Token.content = (tokens source).map Token.content := by
  unfold closeString
  split
  · rfl
  · next hodd =>
    obtain ⟨ts, finish, hts, hcut⟩ := exists_cut source
    obtain ⟨ts', finish', hcut', hcontent⟩ := hcut.close_quote hodd
    have hts' : tokens (source ++ "\"") = ts' ++ [finish'] :=
      tokens_of_cut (by rwa [String.toList_append])
    rw [hts, hts', List.map_append, List.map_append, hcontent, List.map_singleton,
      List.map_singleton, hcut.content_finish, hcut'.content_finish]

theorem openBraces_closeString (source : String) :
    openBraces (closeString source) = openBraces source := by
  have hcontent := congrArg (List.map Prod.fst) (content_closeString source)
  rw [List.map_map, List.map_map] at hcontent
  have hkinds : (tokens (closeString source)).map Token.kind = (tokens source).map Token.kind :=
    hcontent
  rw [openBraces, openBraces, hkinds]

/-- The same string is read with and without the quote that closes it. -/
theorem parse_closeString {source : String} {p : Program} (h : parse source = .ok p) :
    parse (closeString source) = .ok p := by
  obtain ⟨hquiet, rfl⟩ := Reading.of_program?_eq_ok h
  obtain ⟨f, hf⟩ := exists_relocate (pairwise_start source) (content_closeString source)
  obtain ⟨hprogram, hraised⟩ := read_relocate hf
  exact Reading.parse_eq_ok hprogram (by rw [hraised, hquiet, List.map_nil])

theorem surplus_of_parse {source : String} {p : Program} (h : parse source = .ok p) (b : Bracket) :
    0 ≤ b.surplus ((tokens source).map Token.kind) ∧
      (b ≠ .brace → b.surplus ((tokens source).map Token.kind) = 0) := by
  obtain ⟨hquiet, _⟩ := Reading.of_program?_eq_ok h
  obtain ⟨ts, finish, hts, hsound, _, hraised⟩ := Reading.read_eq source
  rw [hquiet, List.nil_eq, List.reverse_eq_nil_iff] at hraised
  have hlen : (ts.map Token.terminal).length < ts.length + 1 := by simp
  obtain ⟨ss, _, _, hspelled, hstop, hend⟩ :=
    accepts_statementsUntil (acceptsUpTo_readExpression (ts.length + 1)) endsProgram rfl hlen
      (Nat.le_of_lt hlen) ⟨ts, finish, 0, []⟩ hsound rfl hraised
  rw [hend (eq_of_beq hstop)] at hspelled
  have hsurplus := Program.Spelled.surplus (p := ⟨ss⟩) hspelled b
  rw [surplus_tokens_of_cut hts (cut_of_tokens hts)]
  simpa [Function.comp_def] using hsurplus

/-- Only braces may be left open, so a text is a complete input if no brace is. -/
theorem bracketsClosed_iff_openBraces {source : String} {p : Program} (h : parse source = .ok p)
    (hsize : ((tokens source).map Token.kind).countP TokenKind.isBracket < 2 ^ 31) :
    bracketsClosed source = true ↔ openBraces source = 0 := by
  have hcounters : ∀ b : Bracket, (b.surplus ((tokens source).map Token.kind)).natAbs < 2 ^ 31 :=
    fun b => Nat.lt_of_le_of_lt (b.natAbs_surplus_le _) hsize
  have hpaired : ∀ b : Bracket, b ≠ .brace →
      ((tokens source).map Token.kind).count b.opening ≤
        ((tokens source).map Token.kind).count b.closing := fun b hb =>
    Int.ofNat_le.mp (Int.le_of_sub_nonpos (Int.le_of_eq ((surplus_of_parse h b).2 hb)))
  rw [bracketsClosed_iff_of_surplus hcounters, NoneOpen, openBraces, Nat.sub_eq_zero_iff_le]
  refine ⟨fun hall => hall .brace, fun hclosed b => ?_⟩
  cases b with
  | brace => exact hclosed
  | bracket => exact hpaired .bracket (by decide)
  | paren => exact hpaired .paren (by decide)

/-- Braces behind a text whose strings are closed are tokens of their own. -/
theorem tokens_append_braces {source : String} {ts : List Token} {finish : Token}
    (h : tokens source = ts ++ [finish]) (heven : Even (source.toList.count '"')) (n : Nat) :
    ∃ us finish', tokens (source ++ String.ofList (List.replicate n '}')) = ts ++ us ++ [finish'] ∧
      us.length = n ∧ (∀ t ∈ us, t.kind = .rightBrace) ∧ finish'.kind = .endOfInput := by
  have hcut := cut_of_tokens h
  obtain ⟨us, finish', hbraces, hlen, hall⟩ :=
    exists_cut_braces n (0 + byteWidth source.toList)
  have htakes : ∀ t ∈ ts.getLast?, ∀ w : Terminal, w.kind = t.kind →
      ∀ c ∈ (List.replicate n '}').head?, w.takesIn c = false := by
    intro _ _ w _ c hc
    rw [List.eq_of_mem_replicate (List.mem_of_mem_head? hc)]
    exact w.takesIn_rightBrace
  refine ⟨us, finish', tokens_of_cut ?_, hlen, hall, ?_⟩
  · rw [String.toList_append, String.toList_ofList]
    exact hcut.append heven htakes hbraces
  · rw [hbraces.finish_eq]
    rfl

/-- Braces at the end of an accepted text whose strings are closed, as many as it leaves open. -/
theorem parse_append_braces {source : String} {p : Program} (h : parse source = .ok p)
    (heven : Even (source.toList.count '"')) :
    parse (source ++ String.ofList (List.replicate (openBraces source) '}')) = .ok p := by
  obtain ⟨ts, finish, hts, hcut⟩ := exists_cut source
  obtain ⟨us, finish', hjoined, hlen, hall, hfinish⟩ :=
    tokens_append_braces hts heven (openBraces source)
  have hopen : (us.length : Int) = (0 : Nat) + Bracket.brace.surplus (ts.map Token.kind) := by
    have hsurplus := (surplus_of_parse h .brace).1
    rw [← surplus_tokens_of_cut hts hcut, hlen, openBraces]
    simp only [Bracket.surplus, Bracket.opening, Bracket.closing] at hsurplus ⊢
    omega
  let S : Sequel := ⟨[], finish', hfinish⟩
  obtain ⟨past, rounds, hpast, _, hread⟩ :=
    readTokens_resumes (S := S) h hts (.braces rfl hall hopen)
  have hstop : endsProgram (Cursor.current ⟨S.tokens, S.finish, 0, past⟩).kind = true := by
    show endsProgram finish'.kind = true
    rw [hfinish]
    rfl
  rw [statementsUntil_of_stops hstop] at hread
  obtain ⟨hprogram, hraised⟩ := Reading.eq_of_tokens hjoined
  rw [hread] at hprogram hraised
  refine Reading.parse_eq_ok (hprogram.trans ?_) (hraised.trans ?_)
  · simp
  · exact List.reverse_eq_nil_iff.mpr hpast

/-- A text without diagnostics closes its parentheses and brackets, and no more braces than it
opens. It counts as a complete input if it leaves no brace open; and whatever it leaves open at its
end, a string or blocks, it is read as the text in which this is closed. -/
theorem parse_closedForm {source : String} {p : Program} (h : parse source = .ok p) :
    let kinds := (tokens source).map Token.kind
    kinds.count .leftParen = kinds.count .rightParen ∧
    kinds.count .leftBracket = kinds.count .rightBracket ∧
    kinds.count .rightBrace ≤ kinds.count .leftBrace ∧
    (kinds.countP TokenKind.isBracket < 2 ^ 31 →
      (bracketsClosed source = true ↔ openBraces source = 0)) ∧
    parse (closedForm source) = .ok p := by
  have hparen := (surplus_of_parse h .paren).2 (by decide)
  have hbracket := (surplus_of_parse h .bracket).2 (by decide)
  have hbrace := (surplus_of_parse h .brace).1
  refine ⟨?_, ?_, ?_, fun hsize => ?_, ?_⟩
  · simp only [Bracket.surplus, Bracket.opening, Bracket.closing] at hparen
    omega
  · simp only [Bracket.surplus, Bracket.opening, Bracket.closing] at hbracket
    omega
  · simp only [Bracket.surplus, Bracket.opening, Bracket.closing] at hbrace
    omega
  · exact bracketsClosed_iff_openBraces h hsize
  · rw [closedForm, ← openBraces_closeString]
    exact parse_append_braces (parse_closeString h) (even_count_closeString source)

/-- A function, and in it a string with a bracket, both of which stay open. -/
theorem parse_closedForm_function :
    let p : Program := ⟨[.binding "f" (.function ["x"]
      [.expression (.index (.identifier "x") (.integer 0)), .expression (.string "(")])]⟩
    parse "let f = fn(x) \x7b x[0]; \"(" = .ok p ∧
      (bracketsClosed "let f = fn(x) \x7b x[0]; \"(" = true ↔
        openBraces "let f = fn(x) \x7b x[0]; \"(" = 0) ∧
      parse (closedForm "let f = fn(x) \x7b x[0]; \"(") = .ok p := by
  intro p
  have h : parse "let f = fn(x) \x7b x[0]; \"(" = .ok p := rfl
  have hsize : ((tokens "let f = fn(x) \x7b x[0]; \"(").map Token.kind).countP
      TokenKind.isBracket < 2 ^ 31 := by decide
  exact ⟨h, (parse_closedForm h).2.2.2.1 hsize, (parse_closedForm h).2.2.2.2⟩

/-- The tokens of a text at moved places, behind steps that are over. -/
theorem statementsUntil_moved {source : String} {us : List Token} {finish : Token}
    (h : tokens source = us ++ [finish]) (m : Nat) {n rounds : Nat} (hn : us.length < n)
    (hr : us.length ≤ rounds) (past : List ReadingStep) :
    ∃ c, statementsUntil endsProgram (readExpression n) rounds
        ⟨us.map (·.shift m), finish.shift m, 0, past⟩ =
          (some (read source).program.statements, c) ∧
      c.raised = ((read source).raised.map (Diagnostic.shift m)).reverse ++
        past.filterMap ReadingStep.diagnostic? := by
  obtain ⟨T, c, hall, _, _, hsteps, _, hread⟩ := exists_tape_read source
  obtain ⟨rfl, hfinish⟩ := List.append_inj' (hall.symm.trans h) rfl
  obtain rfl := List.singleton_inj.mp hfinish
  have hmoved := mirrors_statementsUntil (mirrors_readExpression (Span.shift m) n) endsProgram
    rounds T.first
  rw [hread n rounds hn hr] at hmoved
  refine ⟨(c.relocate (Span.shift m)).withPast past, ?_, ?_⟩
  · have hstart : (⟨T.tokens.map (·.shift m), T.finish.shift m, 0, past⟩ : Cursor) =
        (T.first.relocate (Span.shift m)).withPast past := rfl
    rw [hstart, Reader.blind, hmoved]
  · have hshift : (fun d : Diagnostic => d.relocate (Span.shift m)) = Diagnostic.shift m :=
      funext (Diagnostic.relocate_shift m)
    have hraised : (read source).raised = c.raised.reverse := by
      rw [Reading.raised, hsteps, List.filterMap_reverse]
      rfl
    rw [hraised, List.map_reverse, List.reverse_reverse, ← hshift, ← Cursor.raised_relocate]
    exact List.filterMap_append

/-- Behind a semicolon a text has the tokens that it has alone, at moved places. -/
theorem tokens_append {a b : String} {ts us : List Token} {finish finish' : Token}
    (ha : tokens a = ts ++ [finish]) (hlast : ∀ t ∈ ts.getLast?, t.kind = .semicolon)
    (hb : tokens b = us ++ [finish']) :
    tokens (a ++ b) =
      ts ++ us.map (·.shift a.utf8ByteSize) ++ [finish'.shift a.utf8ByteSize] := by
  refine tokens_append_of_parted ha ?_ ?_ hb
  · refine (cut_of_tokens ha).even_of_last (fun t ht => ?_)
    rw [hlast t ht]
    decide
  · intro t ht w hw c _
    exact w.takesIn_of_semicolon (hw.trans (hlast t ht)) c

/-- Behind a text without diagnostics that ends with a semicolon and closes its braces, any text is
read as it is read alone: its statements come behind those of the first text, and its diagnostics
are all that there are, at places moved by the length of the first text. -/
theorem read_append {a : String} {p : Program} (h : parse a = .ok p)
    (hlast : (tokens a).dropLast.getLast?.map Token.kind = some .semicolon)
    (hbraces : ((tokens a).map Token.kind).count .leftBrace =
      ((tokens a).map Token.kind).count .rightBrace) (b : String) :
    (read (a ++ b)).program = ⟨p.statements ++ (read b).program.statements⟩ ∧
    (read (a ++ b)).raised = (read b).raised.map (Diagnostic.shift a.utf8ByteSize) ∧
    (read (a ++ b)).diagnostics.kept =
      (read b).diagnostics.kept.map (Diagnostic.shift a.utf8ByteSize) := by
  obtain ⟨ts, finish, hts, hcut⟩ := exists_cut a
  obtain ⟨us, finish', hus, hcut'⟩ := exists_cut b
  rw [hts, List.dropLast_concat] at hlast
  have hsemicolon : ∀ t ∈ ts.getLast?, t.kind = .semicolon := by
    intro t ht
    rw [Option.mem_def.mp ht] at hlast
    exact Option.some.inj hlast
  have hjoined := tokens_append hts hsemicolon hus
  have hcount : ((0 : Nat) : Int) + Bracket.brace.surplus (ts.map Token.kind) = 0 := by
    rw [← surplus_tokens_of_cut hts hcut]
    simp only [Bracket.surplus, Bracket.opening, Bracket.closing]
    omega
  -- Behind the first text stand the tokens of the second one, moved.
  let S : Sequel := ⟨us.map (·.shift a.utf8ByteSize), finish'.shift a.utf8ByteSize, by
    rw [hcut'.finish_eq]
    rfl⟩
  obtain ⟨past, rounds, hpast, hrounds, hread⟩ :=
    readTokens_resumes (S := S) h hts (.seam hcount hsemicolon)
  have hlen : S.tokens.length = us.length := List.length_map _
  have hlt : us.length < (ts ++ S.tokens).length + 1 := by
    rw [List.length_append]
    omega
  obtain ⟨c, hbehind, hraisedBehind⟩ :=
    statementsUntil_moved hus a.utf8ByteSize hlt (hlen ▸ hrounds) past
  rw [hbehind] at hread
  obtain ⟨hprogram, hraised⟩ := Reading.eq_of_tokens hjoined
  rw [hread] at hprogram hraised
  rw [hpast, List.append_nil] at hraisedBehind
  have hall : (read (a ++ b)).raised = (read b).raised.map (Diagnostic.shift a.utf8ByteSize) := by
    rw [hraised, hraisedBehind, List.reverse_reverse]
  refine ⟨hprogram, hall, ?_⟩
  rw [Reading.kept_diagnostics, Reading.kept_diagnostics, hall, List.map_take]

/-- In front of a `let` that lacks its sign and of a brace that closes nothing. -/
theorem read_append_faulty :
    let p : Program := ⟨[.expression (.call (.identifier "f") [.hash []])]⟩
    parse "f(\x7b\x7d);" = .ok p ∧
      (read ("f(\x7b\x7d);" ++ "let x 1 \x7d")).program =
        ⟨p.statements ++ (read "let x 1 \x7d").program.statements⟩ ∧
      (read ("f(\x7b\x7d);" ++ "let x 1 \x7d")).raised =
        (read "let x 1 \x7d").raised.map (Diagnostic.shift "f(\x7b\x7d);".utf8ByteSize) := by
  intro p
  have h : parse "f(\x7b\x7d);" = .ok p := rfl
  obtain ⟨hprogram, hraised, _⟩ := read_append h (by decide) (by decide) "let x 1 \x7d"
  exact ⟨h, hprogram, hraised⟩

end Treewalk
