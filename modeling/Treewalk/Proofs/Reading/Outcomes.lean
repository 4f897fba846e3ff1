import Treewalk.Proofs.Grammar.Spelling
import Treewalk.Reading.Basic

namespace Treewalk

namespace Cursor

variable {c d : Cursor}

def terminals (c : Cursor) : List Terminal := c.pending.map Token.terminal

/-- What is true of a cursor over the tokens of a text. -/
structure Sound (c : Cursor) : Prop where
  pending : ∀ t ∈ c.pending, t.Sound
  finish : c.finish.kind = .endOfInput

theorem Sound.onward (h : c.Sound) (ho : c.Onward d) : d.Sound :=
  ⟨fun t ht => h.pending t (ho.pending.subset ht), by rw [ho.finish, h.finish]⟩

theorem Onward.terminals (h : c.Onward d) : d.terminals <:+ c.terminals := h.pending.map _

theorem Onward.raised (h : c.Onward d) : c.raised <:+ d.raised := h.trail.filterMap _

@[simp] theorem terminals_advance (c : Cursor) : c.advance.terminals = c.terminals.tail := by
  simp [terminals, Cursor.advance]

@[simp] theorem raised_raise (d : Diagnostic) (c : Cursor) :
    (c.raise d).raised = d :: c.raised := rfl

theorem kind_current (h : c.Sound) : c.current.kind = leadingKind c.terminals := by
  unfold current terminals
  cases c.pending with
  | nil => exact h.finish
  | cons t ts => simp

theorem kind_upcoming (h : c.Sound) : c.upcoming.kind = leadingKind c.terminals.tail := by
  have h' := kind_current (h.onward c.onward_advance)
  rwa [terminals_advance] at h'

theorem terminal_current {w : Terminal} {ws : List Terminal} (h : c.terminals = w :: ws) :
    c.current.terminal = w := by
  unfold current
  unfold terminals at h
  cases hp : c.pending with
  | nil => simp [hp] at h
  | cons t ts =>
    rw [hp, List.map_cons, List.cons.injEq] at h
    exact h.1

theorem sound_current (h : c.Sound) (hk : c.current.kind ≠ .endOfInput) : c.current.Sound := by
  unfold current at hk ⊢
  cases hp : c.pending with
  | nil => exact absurd (by rw [hp]; exact h.finish) hk
  | cons t ts => exact h.pending t (by simp [hp])

end Cursor

namespace Reader

variable {α β : Type}

/-- Every result satisfies `P`, whatever was raised meanwhile. -/
def Yields (p : Reader α) (P : α → Prop) : Prop := ∀ c, c.Sound → ∀ a, (p c).1 = some a → P a

section
variable {p : Reader α} {f : α → Reader β} {P : α → Prop} {Q : β → Prop}

theorem Yields.pure {a : α} (h : P a) : Yields (Pure.pure a) P := by
  intro c _ b hb
  obtain rfl := Option.some.inj hb
  exact h

theorem Yields.bind (hp : Yields p P) (hf : ∀ a, P a → Yields (f a) Q) : Yields (p >>= f) Q := by
  intro c hc b hb
  have hon := p.onward c
  cases hr : p.run c with
  | mk result c' =>
    rw [hr] at hon
    cases result with
    | none =>
      rw [bind_of_none hr] at hb
      contradiction
    | some a =>
      rw [bind_of_some hr] at hb
      exact hf a (hp c hc a (by rw [hr])) c' (hc.onward hon) b hb

/-- The result of the first action does not matter. -/
theorem Yields.after (hf : ∀ a, Yields (f a) Q) : Yields (p >>= f) Q :=
  Yields.bind (P := fun _ => True) (fun _ _ _ _ => trivial) (fun a _ => hf a)

theorem Yields.fail : Yields fail P := by
  intro c _ a ha
  contradiction

theorem Yields.raise {d : Diagnostic} : Yields (raise d) P := by
  intro c _ a ha
  contradiction

theorem Yields.within {routine : Routine} (h : Yields p P) : Yields (within routine p) P :=
  fun c hc => h _ (hc.onward (c.onward_enter routine))

theorem Yields.orNone (h : Yields p P) : Yields (orNone p) (fun r => ∀ a, r = some a → P a) := by
  intro c hc r hr a ha
  subst ha
  exact h c hc a (Option.some.inj hr)

theorem Yields.current :
    Yields Reader.current (fun t => t.kind ≠ .endOfInput → t.Sound) := by
  intro c hc t ht hk
  obtain rfl := Option.some.inj ht
  exact Cursor.sound_current hc hk

theorem Yields.expect_current {k : TokenKind} {f : Token → Reader β} (hk : k ≠ .endOfInput)
    (hf : ∀ t, t.kind = k → t.Sound → Yields (f t) Q) :
    Yields (expect k >>= fun _ => Reader.current >>= f) Q := by
  intro c hc b hb
  by_cases hu : c.upcoming.kind = k
  · have hc' := hc.onward c.onward_advance
    rw [bind_of_some (expect_apply_of_eq hu), bind_of_some (current_apply _)] at hb
    have hkind : c.advance.current.kind = k := hu
    exact hf _ hkind (Cursor.sound_current hc' (by rw [hkind]; exact hk)) _ hc' b hb
  · rw [bind_of_none (expect_apply_of_ne hu)] at hb
    contradiction

end

/-- Of the terminals `ws` the action makes `a`, raises nothing, and leaves `ws'`. -/
def Takes (p : Reader α) (ws : List Terminal) (a : α) (ws' : List Terminal) : Prop :=
  ∀ c, c.Sound → c.terminals = ws → ∃ c', p c = (some a, c') ∧ c'.terminals = ws' ∧
    c'.raised = c.raised

section
variable {p : Reader α} {f : α → Reader β} {a : α} {b : β} {ws ws' ws'' : List Terminal}

theorem Takes.pure : Takes (Pure.pure a) ws a ws := fun c _ hws => ⟨c, rfl, hws, rfl⟩

theorem Takes.bind (hp : Takes p ws a ws') (hf : Takes (f a) ws' b ws'') :
    Takes (p >>= f) ws b ws'' := by
  intro c hc hws
  obtain ⟨c', hr, hws', hraised⟩ := hp c hc hws
  have hon := p.onward c
  rw [hr] at hon
  obtain ⟨c'', hr', hws'', hraised'⟩ := hf c' (hc.onward hon) hws'
  exact ⟨c'', by rw [bind_of_some hr, hr'], hws'', hraised'.trans hraised⟩

theorem Takes.advance : Takes advance ws () ws.tail :=
  fun c _ hws => ⟨c.advance, rfl, by simp [hws], rfl⟩

theorem Takes.expect {k : TokenKind} (h : leadingKind ws.tail = k) :
    Takes (expect k) ws () ws.tail := by
  intro c hc hws
  have hk : c.upcoming.kind = k := by rw [Cursor.kind_upcoming hc, hws, h]
  exact ⟨c.advance, expect_apply_of_eq hk, by simp [hws], rfl⟩

theorem Takes.skip {k : TokenKind} (h : leadingKind ws.tail = k) :
    Takes (skip k) ws () ws.tail := by
  intro c hc hws
  have hk : c.upcoming.kind = k := by rw [Cursor.kind_upcoming hc, hws, h]
  exact ⟨c.advance, by rw [skip_apply, if_pos hk], by simp [hws], rfl⟩

theorem Takes.noSkip {k : TokenKind} (h : leadingKind ws.tail ≠ k) :
    Takes (Reader.skip k) ws () ws := by
  intro c hc hws
  have hk : c.upcoming.kind ≠ k := by rw [Cursor.kind_upcoming hc, hws]; exact h
  exact ⟨c, by rw [skip_apply, if_neg hk], hws, rfl⟩

theorem Takes.current_bind {f : Token → Reader β} {w : Terminal}
    (hf : ∀ t, t.terminal = w → Takes (f t) (w :: ws) b ws') :
    Takes (current >>= f) (w :: ws) b ws' := by
  intro c hc hws
  rw [bind_of_some (current_apply c)]
  exact hf _ (Cursor.terminal_current hws) c hc hws

/-- For actions that look at the kind of the current token only, which may be the end of input. -/
theorem Takes.kind_bind {f : Token → Reader β}
    (hf : ∀ t, t.kind = leadingKind ws → Takes (f t) ws b ws') :
    Takes (current >>= f) ws b ws' := by
  intro c hc hws
  rw [bind_of_some (current_apply c)]
  exact hf _ (by rw [Cursor.kind_current hc, hws]) c hc hws

theorem Takes.upcoming_bind {f : Token → Reader β} {k : TokenKind} (hk : leadingKind ws.tail = k)
    (hf : ∀ t, t.kind = k → Takes (f t) ws b ws') : Takes (upcoming >>= f) ws b ws' := by
  intro c hc hws
  rw [bind_of_some (upcoming_apply c)]
  exact hf _ (by rw [Cursor.kind_upcoming hc, hws, hk]) c hc hws

theorem Takes.within {routine : Routine} (h : Takes p ws a ws') :
    Takes (within routine p) ws a ws' := by
  intro c hc hws
  obtain ⟨c', hr, hws', hraised⟩ := h _ (hc.onward (c.onward_enter routine)) hws
  exact ⟨c'.leave routine, by rw [within_apply, hr], hws', hraised⟩

theorem Takes.orNone (h : Takes p ws a ws') : Takes (orNone p) ws (some a) ws' := by
  intro c hc hws
  obtain ⟨c', hr, hws', hraised⟩ := h c hc hws
  exact ⟨c', by rw [orNone_apply, hr], hws', hraised⟩

end

/-- If the action raises nothing on the terminals `ws`, it has a result, and `Q` holds of that and
of the terminals left. -/
def Accepts (p : Reader α) (ws : List Terminal) (Q : α → List Terminal → Prop) : Prop :=
  ∀ c, c.Sound → c.terminals = ws → (p c).2.raised = c.raised →
    ∃ a, (p c).1 = some a ∧ Q a (p c).2.terminals

section
variable {p : Reader α} {f : α → Reader β} {ws : List Terminal} {Q : α → List Terminal → Prop}
  {R : β → List Terminal → Prop}

theorem Accepts.mono {Q' : α → List Terminal → Prop} (h : Accepts p ws Q)
    (hq : ∀ a ws', Q a ws' → Q' a ws') : Accepts p ws Q' := by
  intro c hc hws hr
  obtain ⟨a, ha, hqa⟩ := h c hc hws hr
  exact ⟨a, ha, hq a _ hqa⟩

theorem Accepts.pure {a : α} (h : Q a ws) : Accepts (Pure.pure a) ws Q := by
  intro c _ hws _
  subst hws
  exact ⟨a, rfl, h⟩

/-- A run that raises nothing raises nothing in its first part. -/
theorem Accepts.bind (hp : Accepts p ws Q)
    (hf : ∀ a ws', ws' <:+ ws → Q a ws' → Accepts (f a) ws' R) : Accepts (p >>= f) ws R := by
  intro c hc hws hr
  have hon := p.onward c
  cases hrun : p.run c with
  | mk result c' =>
    rw [hrun] at hon
    cases result with
    | none =>
      rw [bind_of_none hrun] at hr
      obtain ⟨a, ha, _⟩ := hp c hc hws (by rw [hrun]; exact hr)
      rw [hrun] at ha
      contradiction
    | some a =>
      rw [bind_of_some hrun] at hr ⊢
      have hquiet : c'.raised = c.raised := by
        have hmid := ((f a).onward c').raised
        rw [hr] at hmid
        exact hmid.eq_of_length_le hon.raised.length_le
      obtain ⟨b, hb, hq⟩ := hp c hc hws (by rw [hrun]; exact hquiet)
      rw [hrun] at hb hq
      obtain rfl := Option.some.inj hb
      exact hf a _ (hws ▸ hon.terminals) hq c' (hc.onward hon) rfl (hr.trans hquiet.symm)

theorem Accepts.raise {d : Diagnostic} : Accepts (raise d) ws Q := by
  intro c _ _ hr
  simp at hr

theorem Accepts.advance_bind {f : Unit → Reader β} (hf : Accepts (f ()) ws.tail R) :
    Accepts (advance >>= f) ws R := by
  intro c hc hws hr
  subst hws
  rw [bind_of_some (advance_apply c)] at hr ⊢
  exact hf _ (hc.onward c.onward_advance) (by simp) hr

theorem Accepts.expect_bind {k : TokenKind} {f : Unit → Reader β}
    (hf : leadingKind ws.tail = k → Accepts (f ()) ws.tail R) : Accepts (expect k >>= f) ws R := by
  intro c hc hws hr
  subst hws
  by_cases hu : c.upcoming.kind = k
  · rw [bind_of_some (expect_apply_of_eq hu)] at hr ⊢
    rw [Cursor.kind_upcoming hc] at hu
    exact hf hu _ (hc.onward c.onward_advance) (by simp) hr
  · rw [bind_of_none (expect_apply_of_ne hu)] at hr
    simp at hr

theorem Accepts.skip_bind {k : TokenKind} {f : Unit → Reader β}
    (hf : leadingKind ws.tail = k → Accepts (f ()) ws.tail R)
    (hf' : leadingKind ws.tail ≠ k → Accepts (f ()) ws R) : Accepts (skip k >>= f) ws R := by
  intro c hc hws hr
  subst hws
  rw [bind_of_some (skip_apply k c)] at hr ⊢
  by_cases hu : c.upcoming.kind = k
  · rw [if_pos hu] at hr ⊢
    rw [Cursor.kind_upcoming hc] at hu
    exact hf hu _ (hc.onward c.onward_advance) (by simp) hr
  · rw [if_neg hu] at hr ⊢
    rw [Cursor.kind_upcoming hc] at hu
    exact hf' hu c hc rfl hr

/-- The current token is the end of input, or it says the first terminal. -/
theorem Accepts.current_bind {f : Token → Reader β}
    (hf : ∀ t, (t.kind = .endOfInput ∧ ws = [] ∨ t.Sound ∧ ∃ rest, ws = t.terminal :: rest) →
      Accepts (f t) ws R) : Accepts (current >>= f) ws R := by
  intro c hc hws hr
  subst hws
  rw [bind_of_some (current_apply c)] at hr ⊢
  refine hf _ ?_ c hc rfl hr
  cases hp : c.pending with
  | nil => exact .inl ⟨by simp [Cursor.current, hp, hc.finish], by simp [Cursor.terminals, hp]⟩
  | cons t ts =>
    have ht : c.current = t := by simp [Cursor.current, hp]
    rw [ht]
    exact .inr ⟨hc.pending t (by simp [hp]), _, by rw [Cursor.terminals, hp]; rfl⟩

theorem Accepts.upcoming_bind {f : Token → Reader β}
    (hf : ∀ t, t.kind = leadingKind ws.tail → Accepts (f t) ws R) :
    Accepts (upcoming >>= f) ws R := by
  intro c hc hws hr
  subst hws
  rw [bind_of_some (upcoming_apply c)] at hr ⊢
  exact hf _ (Cursor.kind_upcoming hc) c hc rfl hr

theorem Accepts.orNone (h : Accepts p ws Q) :
    Accepts (orNone p) ws (fun r ws' => ∃ a, r = some a ∧ Q a ws') := by
  intro c hc hws hr
  obtain ⟨a, ha, hq⟩ := h c hc hws hr
  exact ⟨some a, by rw [orNone_apply, ha], a, rfl, hq⟩

theorem Accepts.within {routine : Routine} (h : Accepts p ws Q) :
    Accepts (within routine p) ws Q := by
  intro c hc hws hr
  exact h _ (hc.onward (c.onward_enter routine)) hws hr

end

end Reader

theorem integerLiteral_of_value {value : Int64} {t : Token}
    (h : value.toInt = numeralValue t.literal) : integerLiteral t = pure (.integer value) := by
  have hlt : numeralValue t.literal < 2 ^ 63 := by
    have := value.toInt_lt
    omega
  have hvalue : Int64.ofNat (numeralValue t.literal) = value := by
    rw [← Int64.toInt_inj, Int64.toInt_ofNat_of_lt hlt, h]
  unfold integerLiteral
  rw [← numeralValue, if_pos (by omega), hvalue]

theorem integerLiteral_of_lt {t : Token} (h : 9223372036854775807 < numeralValue t.literal) :
    integerLiteral t = Reader.raise (.integerTooLarge t.literal t.span) :=
  if_neg (Nat.not_le_of_lt h)

theorem BinaryOperator.continuation?_kind {expression : ExpressionReader} {n : Nat}
    (o : BinaryOperator) :
    continuation? expression n o.kind = some (binaryExpression expression o) := by
  cases o <;> rfl

/-- A token that binds an operand before it opens a call or an index, or is a binary operator. -/
theorem Precedence.of_cases {p : Precedence} {k : TokenKind} (h : p < .of k) :
    k = .leftParen ∨ k = .leftBracket ∨ ∃ o : BinaryOperator, k = o.kind := by
  cases k
  case leftParen => exact .inl rfl
  case leftBracket => exact .inr (.inl rfl)
  case plus => exact .inr (.inr ⟨.add, rfl⟩)
  case minus => exact .inr (.inr ⟨.subtract, rfl⟩)
  case asterisk => exact .inr (.inr ⟨.multiply, rfl⟩)
  case slash => exact .inr (.inr ⟨.divide, rfl⟩)
  case less => exact .inr (.inr ⟨.less, rfl⟩)
  case greater => exact .inr (.inr ⟨.greater, rfl⟩)
  case equal => exact .inr (.inr ⟨.equal, rfl⟩)
  case notEqual => exact .inr (.inr ⟨.notEqual, rfl⟩)
  all_goals exact absurd h (Nat.not_lt_zero _)

theorem Precedence.spelling_isEmpty {p : Precedence} {k : TokenKind} (h : p < .of k) :
    k.spelling.isEmpty = false := by
  rcases of_cases h with rfl | rfl | ⟨o, rfl⟩
  · rfl
  · rfl
  · exact o.spelling_isEmpty

theorem continuation?_ne_none {expression : ExpressionReader} {n : Nat} {p : Precedence}
    {k : TokenKind} (h : p < .of k) : continuation? expression n k ≠ none := by
  rcases Precedence.of_cases h with rfl | rfl | ⟨o, rfl⟩
  · simp [continuation?]
  · simp [continuation?]
  · simp [o.continuation?_kind]

namespace Reading

/-- A reading reads the tokens before the last one, which are sound, up to the last one, which is
the end of input. -/
theorem read_eq (source : String) : ∃ ts finish, tokens source = ts ++ [finish] ∧
    (Cursor.mk ts finish 0 []).Sound ∧
    (read source).program = ⟨(readTokens ts finish 0).1.getD []⟩ ∧
    (read source).raised = (readTokens ts finish 0).2.raised.reverse := by
  obtain ⟨ts, finish, hts, hsound, hfinish⟩ := (Scanner.ofText source).toList_eq_append
  refine ⟨ts, finish, hts, ⟨hsound, hfinish⟩, ?_, ?_⟩
  · simp [read, ofScanner, hts]
  · simp [read, ofScanner, hts, raised, Cursor.raised]

theorem diagnostics_isEmpty_iff (r : Reading) : r.diagnostics.isEmpty = true ↔ r.raised = [] := by
  have hk := DiagnosticList.kept_foldl_add (.empty r.source DiagnosticList.defaultLimit) r.raised
  rw [DiagnosticList.isEmpty, diagnostics, hk]
  simp [DiagnosticList.empty, DiagnosticList.defaultLimit]

theorem program?_of_raised_eq_nil {r : Reading} (h : r.raised = []) : r.program? = .ok r.program :=
  if_pos (r.diagnostics_isEmpty_iff.mpr h)

theorem of_program?_eq_ok {r : Reading} {p : Program} (h : r.program? = .ok p) :
    r.raised = [] ∧ p = r.program := by
  unfold program? at h
  split at h
  · next hempty => exact ⟨r.diagnostics_isEmpty_iff.mp hempty, (Except.ok.inj h).symm⟩
  · contradiction

end Reading

end Treewalk
