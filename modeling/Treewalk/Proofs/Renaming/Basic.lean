import Mathlib.Logic.Function.Basic
import Treewalk.Proofs.Run.Fitting

namespace Treewalk

/-- What names, scopes and stamps are turned into, no two into the same; the built-in functions keep
their names. Of the names only the known ones count, and of the scopes only those that are not
forgotten. -/
structure Renaming where
  name : String → String
  scope : ScopeId → ScopeId
  stamp : Nat → Nat
  known : String → Prop
  forgotten : ScopeId → Prop
  name_injective : Function.Injective name
  scope_injective : Function.Injective scope
  stamp_injective : Function.Injective stamp
  name_builtin : ∀ b : Builtin, name b.name = b.name

section
variable (φ : Renaming)

mutual

def Expression.rename : Expression → Expression
  | .identifier name => .identifier (φ.name name)
  | .integer n => .integer n
  | .boolean b => .boolean b
  | .string s => .string s
  | .unary o e => .unary o e.rename
  | .binary o a b => .binary o a.rename b.rename
  | .conditional c body none => .conditional c.rename (renameStatements body) none
  | .conditional c body (some other) =>
    .conditional c.rename (renameStatements body) (some (renameStatements other))
  | .function parameters body => .function (parameters.map φ.name) (renameStatements body)
  | .call f arguments => .call f.rename (renameExpressions arguments)
  | .array elements => .array (renameExpressions elements)
  | .index c i => .index c.rename i.rename
  | .hash pairs => .hash (renamePairs pairs)

def Statement.rename : Statement → Statement
  | .binding name e => .binding (φ.name name) e.rename
  | .return e => .return e.rename
  | .expression e => .expression e.rename

def renameStatements : List Statement → List Statement
  | [] => []
  | s :: rest => s.rename :: renameStatements rest

def renameExpressions : List Expression → List Expression
  | [] => []
  | e :: rest => e.rename :: renameExpressions rest

def renamePairs : List (Expression × Expression) → List (Expression × Expression)
  | [] => []
  | (k, e) :: rest => (k.rename, e.rename) :: renamePairs rest

end

def Program.rename (p : Program) : Program := ⟨renameStatements φ p.statements⟩

end

section
variable (known : String → Prop)

mutual

/-- Every name that the expression looks up is known, or would be if its functions were called. -/
def Expression.Known : Expression → Prop
  | .identifier name => known name
  | .unary _ e => e.Known
  | .binary _ a b => a.Known ∧ b.Known
  | .conditional c body none => c.Known ∧ KnownStatements body
  | .conditional c body (some other) => c.Known ∧ KnownStatements body ∧ KnownStatements other
  | .function _ body => KnownStatements body
  | .call f arguments => f.Known ∧ KnownExpressions arguments
  | .array elements => KnownExpressions elements
  | .index c i => c.Known ∧ i.Known
  | .hash pairs => KnownPairs pairs
  | _ => True

def Statement.Known : Statement → Prop
  | .binding _ e => e.Known
  | .return e => e.Known
  | .expression e => e.Known

def KnownStatements : List Statement → Prop
  | [] => True
  | s :: rest => s.Known ∧ KnownStatements rest

def KnownExpressions : List Expression → Prop
  | [] => True
  | e :: rest => e.Known ∧ KnownExpressions rest

def KnownPairs : List (Expression × Expression) → Prop
  | [] => True
  | (k, e) :: rest => k.Known ∧ e.Known ∧ KnownPairs rest

end

end

section
variable (φ : Renaming)

mutual

def Value.rename : Value → Value
  | .returned v => .returned v.rename
  | .function n parameters body s =>
    .function (φ.stamp n) (parameters.map φ.name) (renameStatements φ body) (φ.scope s)
  | .array n vs => .array (φ.stamp n) (renameElements vs)
  | .hash n entries => .hash (φ.stamp n) (renameEntries entries)
  | v => v

def renameElements : List Value → List Value
  | [] => []
  | v :: rest => v.rename :: renameElements rest

def renameEntries : List (Key × Value) → List (Key × Value)
  | [] => []
  | (k, v) :: rest => (k, v.rename) :: renameEntries rest

end

def Fault.rename : Fault → Fault
  | .unbound name => .unbound (φ.name name)
  | f => f

end

section
variable {φ : Renaming}

theorem renameElements_eq (vs : List Value) : renameElements φ vs = vs.map (·.rename φ) := by
  induction vs with
  | nil => rfl
  | cons v vs ih => rw [renameElements, ih, List.map_cons]

theorem renameEntries_eq (entries : List (Key × Value)) :
    renameEntries φ entries = entries.map (fun e => (e.1, e.2.rename φ)) := by
  induction entries with
  | nil => rfl
  | cons e entries ih => rw [renameEntries, ih, List.map_cons]

theorem Value.rename_of_isSimple {v : Value} (h : v.isSimple = true) : v.rename φ = v := by
  cases v with
  | returned _ | function _ _ _ _ | array _ _ | hash _ _ => contradiction
  | _ => rfl

namespace Value

variable (v w : Value)

@[simp] theorem tag_rename : (v.rename φ).tag = v.tag := by cases v <;> rfl

@[simp] theorem isTruthy_rename : (v.rename φ).isTruthy = v.isTruthy := by cases v <;> rfl

@[simp] theorem isError_rename : (v.rename φ).isError = v.isError := by cases v <;> rfl

@[simp] theorem isReturned_rename : (v.rename φ).isReturned = v.isReturned := by cases v <;> rfl

@[simp] theorem toKey_rename : (v.rename φ).toKey = v.toKey := by cases v <;> rfl

@[simp] theorem unwrapped_rename : (v.rename φ).unwrapped = v.unwrapped.rename φ := by
  cases v <;> rfl

/-- Stamps are told apart as before. -/
theorem identical_rename : (v.rename φ).identical (w.rename φ) = v.identical w := by
  have hstamp : ∀ n k, (φ.stamp n == φ.stamp k) = (n == k) := by
    intro n k
    rw [Bool.eq_iff_iff, beq_iff_eq, beq_iff_eq, φ.stamp_injective.eq_iff]
  cases v <;> cases w <;> first | rfl | exact hstamp _ _

end Value

theorem UnaryOperator.apply_rename (o : UnaryOperator) (v : Value) :
    o.apply (v.rename φ) = o.apply v := by
  cases o <;> cases v <;> rfl

theorem BinaryOperator.applyOthers_rename (o : BinaryOperator) (v w : Value) :
    o.applyOthers (v.rename φ) (w.rename φ) = o.applyOthers v w := by
  cases o <;> simp only [applyOthers, Value.identical_rename, Value.tag_rename]

theorem BinaryOperator.apply_rename (o : BinaryOperator) (v w : Value) :
    o.apply (v.rename φ) (w.rename φ) = o.apply v w := by
  have hothers := o.applyOthers_rename (φ := φ) v w
  cases v <;> cases w <;> first | rfl | exact hothers

theorem elementAt_map (vs : List Value) (i : Int64) :
    elementAt (vs.map (·.rename φ)) i = (elementAt vs i).rename φ := by
  unfold elementAt
  split
  · rfl
  · rw [List.getElem?_map]
    cases vs[i.toInt.toNat]? <;> rfl

theorem Entries.find?_map {α β : Type} (f : α → β) (wanted : HashKey) (entries : Entries α) :
    find? wanted (entries.map (fun e => (e.1, f e.2))) =
      (find? wanted entries).map (fun e => (e.1, f e.2)) := by
  induction entries with
  | nil => rfl
  | cons e entries ih =>
    simp only [List.map_cons, find?]
    split
    · rfl
    · exact ih

theorem Entries.insert_map {α β : Type} (f : α → β) (key : Key) (a : α) (entries : Entries α) :
    insert key (f a) (entries.map (fun e => (e.1, f e.2))) =
      (insert key a entries).map (fun e => (e.1, f e.2)) := by
  induction entries with
  | nil => rfl
  | cons e entries ih =>
    simp only [List.map_cons, insert]
    split
    · rfl
    · rw [List.map_cons, ih]

theorem Value.at_rename (v w : Value) :
    (v.rename φ).at (w.rename φ) = (v.at w).map (·.rename φ) := by
  cases v with
  | array n vs =>
    cases w with
    | integer i =>
      simp only [rename, renameElements_eq, Value.at, elementAt_map]
      rfl
    | _ => rfl
  | hash n entries =>
    simp only [rename, renameEntries_eq, Value.at, toKey_rename]
    cases w.toKey with
    | error fault => rfl
    | ok key =>
      simp only [Except.map, Entries.get?, Entries.find?_map, Option.map_map]
      cases Entries.find? key.hashKey entries <;> rfl
  | _ => rfl

/-- The faults of operators, indexes and keys name nothing. -/
theorem UnaryOperator.rename_fault {o : UnaryOperator} {v : Value} {f : Fault}
    (h : o.apply v = .error f) : f.rename φ = f := by
  unfold apply at h
  split at h
  · cases h
  · cases h
  · obtain rfl := Except.error.inj h
    rfl

theorem BinaryOperator.rename_fault {o : BinaryOperator} {v w : Value} {f : Fault}
    (h : o.apply v w = .error f) : f.rename φ = f := by
  unfold apply at h
  split at h
  · unfold applyIntegers at h
    split at h <;> first | cases h | skip
    split at h <;> cases h
    rfl
  · unfold applyStrings at h
    split at h <;> cases h
    rfl
  · unfold applyOthers at h
    split at h
    · cases h
    · cases h
    · split at h <;> cases h <;> rfl

theorem Value.rename_fault_toKey {v : Value} {f : Fault} (h : v.toKey = .error f) :
    f.rename φ = f := by
  unfold toKey at h
  split at h <;> cases h
  rfl

theorem Value.rename_fault_at {v w : Value} {f : Fault} (h : v.at w = .error f) :
    f.rename φ = f := by
  unfold Value.at at h
  split at h
  · cases h
  · cases hkey : Value.toKey _ with
    | error fault =>
      rw [hkey] at h
      obtain rfl := Except.error.inj h
      exact rename_fault_toKey hkey
    | ok key =>
      rw [hkey] at h
      cases h
  · cases h
    rfl

end

end Treewalk
