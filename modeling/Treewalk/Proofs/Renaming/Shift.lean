import Treewalk.Proofs.Renaming.Runs

namespace Treewalk

def Renaming.KeepsNames (φ : Renaming) : Prop := ∀ name, φ.name name = name

section
variable {φ : Renaming}

mutual

theorem Expression.rename_eq_self (h : φ.KeepsNames) : ∀ e : Expression, e.rename φ = e
  | .identifier _ => by rw [Expression.rename, h]
  | .integer _ | .boolean _ | .string _ => rfl
  | .unary _ e => by rw [Expression.rename, e.rename_eq_self h]
  | .binary _ a b => by rw [Expression.rename, a.rename_eq_self h, b.rename_eq_self h]
  | .conditional c body none => by
    rw [Expression.rename, c.rename_eq_self h, renameStatements_eq_self h body]
  | .conditional c body (some other) => by
    rw [Expression.rename, c.rename_eq_self h, renameStatements_eq_self h body,
      renameStatements_eq_self h other]
  | .function _ body => by
    rw [Expression.rename, renameStatements_eq_self h body, funext h, List.map_id']
  | .call f arguments => by
    rw [Expression.rename, f.rename_eq_self h, renameExpressions_eq_self h arguments]
  | .array elements => by rw [Expression.rename, renameExpressions_eq_self h elements]
  | .index c i => by rw [Expression.rename, c.rename_eq_self h, i.rename_eq_self h]
  | .hash pairs => by rw [Expression.rename, renamePairs_eq_self h pairs]

theorem Statement.rename_eq_self (h : φ.KeepsNames) : ∀ s : Statement, s.rename φ = s
  | .binding _ e => by rw [Statement.rename, h, e.rename_eq_self h]
  | .return e => by rw [Statement.rename, e.rename_eq_self h]
  | .expression e => by rw [Statement.rename, e.rename_eq_self h]

theorem renameStatements_eq_self (h : φ.KeepsNames) :
    ∀ ss : List Statement, renameStatements φ ss = ss
  | [] => rfl
  | s :: rest => by rw [renameStatements, s.rename_eq_self h, renameStatements_eq_self h rest]

theorem renameExpressions_eq_self (h : φ.KeepsNames) :
    ∀ es : List Expression, renameExpressions φ es = es
  | [] => rfl
  | e :: rest => by rw [renameExpressions, e.rename_eq_self h, renameExpressions_eq_self h rest]

theorem renamePairs_eq_self (h : φ.KeepsNames) : ∀ pairs : List (Expression × Expression),
    renamePairs φ pairs = pairs
  | [] => rfl
  | (k, e) :: rest => by
    rw [renamePairs, k.rename_eq_self h, e.rename_eq_self h, renamePairs_eq_self h rest]

end

theorem Program.rename_eq_self (h : φ.KeepsNames) (p : Program) : p.rename φ = p := by
  rw [rename, renameStatements_eq_self h]

theorem Fault.rename_eq_self (h : φ.KeepsNames) (f : Fault) : f.rename φ = f := by
  cases f with
  | unbound name => rw [rename, h]
  | _ => rfl

mutual

theorem Value.inspect_rename (h : φ.KeepsNames) : ∀ v : Value, (v.rename φ).inspect = v.inspect
  | .integer _ | .boolean _ | .string _ | .null | .error _ | .builtin _ => rfl
  | .returned v => by rw [Value.rename, Value.inspect, Value.inspect, v.inspect_rename h]
  | .function _ parameters body _ => by
    rw [Value.rename, Value.inspect, Value.inspect, renameStatements_eq_self h, funext h,
      List.map_id']
  | .array _ vs => by
    rw [Value.rename, Value.inspect, Value.inspect, inspectElements_rename h vs]
  | .hash _ entries => by
    rw [Value.rename, Value.inspect, Value.inspect, inspectEntries_rename h entries]

theorem inspectElements_rename (h : φ.KeepsNames) : ∀ vs : List Value,
    inspectElements (renameElements φ vs) = inspectElements vs
  | [] => rfl
  | v :: rest => by
    have hgap : itemGap (renameElements φ rest) = itemGap rest := by cases rest <;> rfl
    rw [renameElements, inspectElements, inspectElements, v.inspect_rename h, hgap,
      inspectElements_rename h rest]

theorem inspectEntries_rename (h : φ.KeepsNames) : ∀ entries : List (Key × Value),
    inspectEntries (renameEntries φ entries) = inspectEntries entries
  | [] => rfl
  | (k, v) :: rest => by
    have hgap : itemGap (renameEntries φ rest) = itemGap rest := by cases rest <;> rfl
    rw [renameEntries, inspectEntries, inspectEntries, v.inspect_rename h, hgap,
      inspectEntries_rename h rest]

end

theorem Event.output_rename (h : φ.KeepsNames) (events : List Event) :
    output (events.map (rename φ)) = output events := by
  induction events with
  | nil => rfl
  | cons e events ih =>
    cases e with
    | printed v => rw [List.map_cons, rename, output, output, v.inspect_rename h, ih]
    | _ => exact ih

theorem Event.log_rename (events : List Event) : log (events.map (rename φ)) = log events := by
  induction events with
  | nil => rfl
  | cons e events ih =>
    cases e with
    | printed v => exact ih
    | callEnded => exact ih
    | callStarted _ _ | builtinCalled _ _ => exact congrArg (_ :: ·) ih

end

mutual

theorem Expression.known_of_all : ∀ e : Expression, e.Known (fun _ => True)
  | .identifier _ | .integer _ | .boolean _ | .string _ => trivial
  | .unary _ e => e.known_of_all
  | .binary _ a b => ⟨a.known_of_all, b.known_of_all⟩
  | .conditional c body none => ⟨c.known_of_all, knownStatements_of_all body⟩
  | .conditional c body (some other) =>
    ⟨c.known_of_all, knownStatements_of_all body, knownStatements_of_all other⟩
  | .function _ body => knownStatements_of_all body
  | .call f arguments => ⟨f.known_of_all, knownExpressions_of_all arguments⟩
  | .array elements => knownExpressions_of_all elements
  | .index c i => ⟨c.known_of_all, i.known_of_all⟩
  | .hash pairs => knownPairs_of_all pairs

theorem Statement.known_of_all : ∀ s : Statement, s.Known (fun _ => True)
  | .binding _ e => e.known_of_all
  | .return e => e.known_of_all
  | .expression e => e.known_of_all

theorem knownStatements_of_all : ∀ ss : List Statement, KnownStatements (fun _ => True) ss
  | [] => trivial
  | s :: rest => ⟨s.known_of_all, knownStatements_of_all rest⟩

theorem knownExpressions_of_all : ∀ es : List Expression, KnownExpressions (fun _ => True) es
  | [] => trivial
  | e :: rest => ⟨e.known_of_all, knownExpressions_of_all rest⟩

theorem knownPairs_of_all : ∀ pairs : List (Expression × Expression),
    KnownPairs (fun _ => True) pairs
  | [] => trivial
  | (k, e) :: rest => ⟨k.known_of_all, e.known_of_all, knownPairs_of_all rest⟩

end

namespace Renaming

/-- All names are known and no scope is forgotten. -/
structure Total (φ : Renaming) : Prop where
  known : φ.known = fun _ => True
  kept : ∀ s, ¬ φ.forgotten s

namespace Total

variable {φ : Renaming} (h : φ.Total)
include h

theorem knownStatements (ss : List Statement) : KnownStatements φ.known ss := by
  rw [h.known]
  exact knownStatements_of_all ss

theorem fits (v : Value) : φ.Fits v := by
  refine ⟨fun w _ => ?_, fun s _ => h.kept s⟩
  cases w with
  | function _ _ body _ => exact h.knownStatements body
  | _ => trivial

theorem memoryFits (m : Memory) : m.Fits φ.forgotten φ.Says :=
  ⟨fun s hs => absurd hs (h.kept s), fun _ _ t _ => h.kept t, fun _ _ b _ => h.fits b.2⟩

end Total

/-- Counts scopes and stamps from the numbers given on. All names are known and stay, and no scope
is forgotten. -/
def shift (scopes stamps : Nat) : Renaming where
  name := id
  scope s := s + scopes
  stamp n := n + stamps
  known _ := True
  forgotten _ := False
  name_injective := Function.injective_id
  scope_injective := fun _ _ h => Nat.add_right_cancel h
  stamp_injective := fun _ _ h => Nat.add_right_cancel h
  name_builtin _ := rfl

variable {scopes stamps : Nat}

theorem keepsNames_shift : (shift scopes stamps).KeepsNames := fun _ => rfl

theorem total_shift : (shift scopes stamps).Total := ⟨rfl, fun _ h => h⟩

theorem memoryFits_shift (m : Memory) :
    m.Fits (shift scopes stamps).forgotten (shift scopes stamps).Says :=
  total_shift.memoryFits m

/-- Any memory is an image of the empty one. -/
theorem image_empty (m : Memory) : (shift m.scopes.size m.nextStamp).Image .empty m := by
  have hout : ∀ s, m.scopes.size ≤ (shift m.scopes.size m.nextStamp).scope s :=
    fun s => Nat.le_add_left _ s
  refine ⟨memoryFits_shift _, fun i => ?_, fun i => ?_, fun s _ => ?_, fun s _ name _ => ?_,
    fun s _ name hname => absurd rfl (hname name)⟩
  · exact (Nat.add_comm _ _).trans (congrArg (m.scopes.size + ·) (Nat.zero_add i))
  · exact (Nat.add_comm _ _).trans (congrArg (m.nextStamp + ·) (Nat.zero_add i))
  · rw [Memory.enclosing_of_le (hout s), Memory.enclosing_of_le (Nat.zero_le s)]
    rfl
  · rw [Memory.bindings_of_le (hout s), Memory.bindings_of_le (Nat.zero_le s)]
    rfl

end Renaming

end Treewalk
