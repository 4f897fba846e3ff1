import Treewalk.Proofs.Renaming.Copies
import Treewalk.Proofs.Renaming.Names

namespace Treewalk

open Evaluation

/-- If the value is a function, it looks up only these names. -/
def Value.KeepsTo (names : String → Prop) : Value → Prop
  | .function _ _ body _ => KnownStatements names body
  | _ => True

/-- The program looks up only these names, also in the functions that it makes, and it binds no
others where it is run. The names of parameters do not count, nor those that a function binds in the
scope of a call. -/
structure Program.KeepsTo (names : String → Prop) (p : Program) : Prop where
  looked : KnownStatements names p.statements
  bound : ∀ name ∈ blockLetNames p.statements, names name

/-- All other names are bound in the scopes of the first memory as they were. -/
def Memory.KeepsOthers (names : String → Prop) (m m' : Memory) : Prop :=
  ∀ t < m.scopes.size, ∀ name, ¬ names name →
    (m'.bindings t).get? name = (m.bindings t).get? name

/-- The second memory has each scope of the first one, under another number, and binds these names
there to the same values, in which scopes and stamps have other numbers as well. -/
structure Memory.AlikeOn (φ : Renaming) (names : String → Prop) (m m' : Memory) : Prop where
  exists_iff : ∀ t, φ.scope t < m'.scopes.size ↔ t < m.scopes.size
  enclosing : ∀ t, m'.enclosing (φ.scope t) = (m.enclosing t).map φ.scope
  bindings : ∀ t name, names name →
    (m'.bindings (φ.scope t)).get? name = ((m.bindings t).get? name).map (·.rename φ)

/-- What there is in the first memory keeps its number, and what is made from now on gets the
numbers that are next in the second one. -/
structure Renaming.GoesOn (φ : Renaming) (m μ : Memory) : Prop where
  names : φ.KeepsNames
  scope : ∀ t < m.scopes.size, φ.scope t = t
  stamp : ∀ n < m.nextStamp, φ.stamp n = n
  scope_next : ∀ i, φ.scope (m.scopes.size + i) = μ.scopes.size + i
  stamp_next : ∀ i, φ.stamp (m.nextStamp + i) = μ.nextStamp + i

section
variable {names : String → Prop} {m m' μ μ' : Memory}

theorem Memory.Frame.keepsOthers {s : ScopeId} {lets : List String} (h : m.Frame s lets m')
    (hlets : ∀ name ∈ lets, names name) : m.KeepsOthers names m' := by
  intro t ht name hname
  by_cases hts : t = s
  · subst hts
    exact h.unnamed ht name (fun hmem => hname (hlets name hmem))
  · rw [h.elsewhere t ht hts]

/-- A binding of another name. -/
theorem Memory.AgreesOn.define (h : m.AgreesOn names μ) {name : String} (hname : ¬ names name)
    (s : ScopeId) (v : Value) : m.AgreesOn names (μ.define s name v) := by
  refine ⟨?_, ?_, ?_⟩
  · rw [Memory.size_define]
    exact h.size_le
  · intro t ht
    rw [Memory.enclosing_define, h.enclosing t ht]
  · intro t ht other hother
    have hne : name ≠ other := fun heq => hname (heq ▸ hother)
    rw [← h.bindings t ht other hother, Memory.bindings_define]
    split
    · rw [Bindings.get?_set, if_neg hne]
    · rfl

namespace Renaming

variable {φ : Renaming} {forgotten : ScopeId → Prop}

/-- Leaves everything where it is. Only these names count, and no forgotten scope does. -/
def inSight (names : String → Prop) (forgotten : ScopeId → Prop) : Renaming :=
  { shift 0 0 with known := names, forgotten := forgotten }

theorem image_inSight (h : m.Fits forgotten (Value.KeepsTo names)) :
    (inSight names forgotten).Image m m :=
  image_self (fun _ => rfl) (fun _ => rfl) (fun _ => rfl) h

/-- Once what is made from now on gets the numbers that are next in the other memory, the other one
is an image of the first. -/
theorem exists_goesOn (htidy : m.Tidy) (hfits : m.Fits forgotten (Value.KeepsTo names))
    (hagree : m.AgreesOn names μ) (hstamp : m.nextStamp ≤ μ.nextStamp) :
    ∃ φ : Renaming, φ.known = names ∧ φ.forgotten = forgotten ∧ φ.GoesOn m μ ∧ φ.Image m μ := by
  have hs : ∀ t < m.scopes.size, (inSight names forgotten).scope t < μ.scopes.size :=
    fun t ht => Nat.lt_of_lt_of_le ht hagree.size_le
  have hn : ∀ k < m.nextStamp, (inSight names forgotten).stamp k < μ.nextStamp :=
    fun k hk => Nat.lt_of_lt_of_le hk hstamp
  refine ⟨(inSight names forgotten).onward hs hn, rfl, rfl, ?_, ?_⟩
  · exact ⟨fun _ => rfl, fun _ ht => resume_of_lt ht, fun _ hk => resume_of_lt hk, resume_add,
      resume_add⟩
  · exact (image_inSight hfits).onward (fun _ => rfl) htidy hagree

/-- After a run in the scope `s` the image shows what has become of the scopes in sight. Of the
others there are no more than before, and the frames say that nothing has become of them. -/
theorem Image.alikeOn {s : ScopeId} {lets : List String} (himage : φ.Image m μ)
    (himage' : φ.Image m' μ') (hφ : φ.GoesOn m μ) (htidy : m.Tidy)
    (hagree : m.AgreesOn φ.known μ) (hkept : ¬ φ.forgotten s) (hframe : m.Frame s lets m')
    (hframe' : μ.Frame s lets μ') : m'.AlikeOn φ φ.known μ' := by
  have hold : ∀ t, φ.forgotten t → t < m.scopes.size ∧ t < μ.scopes.size ∧ t ≠ s := by
    intro t ht
    have hlt := himage.fits.old t ht
    exact ⟨hlt, Nat.lt_of_lt_of_le hlt hagree.size_le, fun hts => hkept (hts ▸ ht)⟩
  refine ⟨fun t => himage'.lt_iff, fun t => ?_, fun t name hname => ?_⟩
  · by_cases ht : φ.forgotten t
    · obtain ⟨hlt, hltμ, _⟩ := hold t ht
      rw [hφ.scope t hlt, hframe'.enclosing t hltμ, hagree.enclosing t hlt,
        hframe.enclosing t hlt, htidy.map_enclosing_congr hφ.scope, List.map_id']
    · exact himage'.enclosing t ht
  · by_cases ht : φ.forgotten t
    · obtain ⟨hlt, hltμ, hts⟩ := hold t ht
      have hsame : ∀ v : Value, v.Within m → v.rename φ = v :=
        fun _ => Value.rename_eq_of_within hφ.names hφ.scope hφ.stamp
      rw [hφ.scope t hlt, hframe'.elsewhere t hltμ hts, hagree.bindings t hlt name hname,
        hframe.elsewhere t hlt hts, htidy.map_get?_congr hsame, Option.map_id']
    · have hbound := himage'.bindings t ht name hname
      rwa [hφ.names name] at hbound

end Renaming

end

/-- What was recorded before would have to be renamed along, so evaluations are compared by
themselves. They are alike after anything that was done before, too. -/
theorem Renaming.Ends.afterwards {φ : Renaming} {p q : Evaluation Value} {m : Machine} {μ : Memory}
    (h : φ.Ends φ.Match (p (.ofMemory m.memory)) (q (.ofMemory μ))) (hnames : φ.KeepsNames)
    (hp : Built p) (hq : Built q) :
    (q { m with memory := μ }).1 = (p m).1.rename φ ∧
      φ.Image (p m).2.memory (q { m with memory := μ }).2.memory ∧
      (q { m with memory := μ }).2.seen = (p m).2.seen := by
  have hrun : p m = ((p (.ofMemory m.memory)).1, m.followedBy (p (.ofMemory m.memory)).2) :=
    hp.alone m
  have hrun' : q { m with memory := μ } =
      ((q (.ofMemory μ)).1, m.followedBy (q (.ofMemory μ)).2) := hq.alone { m with memory := μ }
  rw [hrun, hrun']
  refine ⟨h.outcome, h.machine.memory, ?_⟩
  rw [h.machine.seen_followedBy hnames, Machine.seen_followedBy]

/-- Let a program and all functions within its reach keep to some names. Then it does not matter how
other names are bound, in whatever scopes, and whether there is more in memory besides. Up to the
numbers of the scopes and stamps that are made, the program has the same outcome, does and prints
the same, and leaves these names bound alike in all scopes; the others are bound as they were. -/
theorem bystanders_irrelevant {names : String → Prop} {p : Program} (hp : p.KeepsTo names)
    (budget : Nat) {s : ScopeId} {m : Machine} {μ : Memory} (hs : s < m.memory.scopes.size)
    (htidy : m.memory.Tidy) (hshows : m.memory.Shows (fun t => t = s) (Value.KeepsTo names))
    (hagree : m.memory.AgreesOn names μ) (hstamp : m.memory.nextStamp ≤ μ.nextStamp) :
    let r := p.run budget s m
    let r' := p.run budget s { m with memory := μ }
    (∃ φ : Renaming, φ.GoesOn m.memory μ ∧ r'.1 = r.1.rename φ ∧
      r.2.memory.AlikeOn φ names r'.2.memory) ∧
    r'.2.seen = r.2.seen ∧ Event.output r'.2.events = Event.output r.2.events ∧
    m.memory.KeepsOthers names r.2.memory ∧ μ.KeepsOthers names r'.2.memory := by
  intro r r'
  have hroot : m.memory.Reachable (fun t => t = s) s := .root rfl
  -- What is made from now on is counted from where each of the memories stands.
  obtain ⟨φ, rfl, hforgotten, hφ, himage⟩ :=
    Renaming.exists_goesOn htidy hshows.fits hagree hstamp
  have hkept : ¬ φ.forgotten s := hforgotten ▸ hroot.not_forgotten
  have hbuilt := Built.run p budget s
  have hends := Renaming.tracks_run ⟨(hφ.scope s hs).symm, hkept⟩ hp.looked budget
    (.ofMemory m.memory) (.ofMemory μ) ⟨himage, rfl, rfl⟩
  rw [p.rename_eq_self hφ.names] at hends
  obtain ⟨houtcome, himage', hseen⟩ := hends.afterwards hφ.names hbuilt hbuilt
  have houtput : Event.output r'.2.events = Event.output r.2.events := by
    rw [← Event.output_map_seen, ← Event.output_map_seen r.2.events]
    exact congrArg Event.output hseen
  have hframe : m.memory.Frame s (blockLetNames p.statements) r.2.memory := binds_run p budget s m
  have hframe' : μ.Frame s (blockLetNames p.statements) r'.2.memory :=
    binds_run p budget s { m with memory := μ }
  have halike := himage.alikeOn himage' hφ htidy hagree hkept hframe hframe'
  exact ⟨⟨φ, hφ, houtcome, halike⟩, hseen, houtput, hframe.keepsOthers hp.bound,
    hframe'.keepsOthers hp.bound⟩

/-- A scope with a function that prints its argument and puts it into an array. -/
def noting : Memory :=
  Memory.empty.newScope.2.stamp.2.define 0 "note" (.function 0 ["x"]
    [.expression (.call (.identifier "puts") [.identifier "x"]),
      .expression (.array [.identifier "x"])] 0)

/-- The same scope with one more function, which would call the other one. -/
def crowded : Memory :=
  noting.stamp.2.define 0 "spare" (.function 1 [] [.expression (.call (.identifier "note") [])] 0)

/-- Binds what the function makes of a text, and has this as its value. -/
def takingNote : Program :=
  ⟨[.binding "made" (.call (.identifier "note") [.string "a"]), .expression (.identifier "made")]⟩

theorem bystanders_irrelevant_crowded :
    let r := takingNote.run 5 0 (.ofMemory noting)
    let r' := takingNote.run 5 0 (.ofMemory crowded)
    (∃ φ : Renaming, φ.GoesOn noting crowded ∧ r.1 = .done (.array 1 [.string "a"]) ∧
      r'.1 = .done (.array 2 [.string "a"]) ∧ r'.1 = r.1.rename φ) ∧
    Event.output r'.2.events = "a\n" ∧
    (r'.2.memory.bindings 0).get? "spare" = (crowded.bindings 0).get? "spare" := by
  let names : String → Prop := fun name => name ∈ ["note", "made", "puts", "x"]
  have hspare : ¬ names "spare" := by decide
  have hprogram : takingNote.KeepsTo names := by
    constructor
    · simp [takingNote, KnownStatements, Statement.Known, Expression.Known, KnownExpressions, names]
    · simp [takingNote, blockLetNames, Statement.letNames, Expression.letNames, listLetNames, names]
  have htidy : noting.Tidy :=
    Memory.tidy_new.stamp.define (Value.within_function.mpr ⟨by decide, by decide⟩)
  have hnew : Memory.empty.newScope.2.Fits (fun _ => False) (Value.KeepsTo names) :=
    ⟨fun _ h => h.elim, fun _ _ _ _ h => h, fun _ _ _ hb => absurd hb Memory.not_mem_empty_newScope⟩
  have hfits : noting.Fits (fun _ => False) (Value.KeepsTo names) := by
    refine hnew.stamp.define (Value.fits_function.mpr ⟨?_, id⟩)
    simp [Value.KeepsTo, KnownStatements, Statement.Known, Expression.Known, KnownExpressions,
      names]
  have hstamped : noting.AgreesOn names noting.stamp.2 :=
    ⟨Nat.le_refl _, fun _ _ => rfl, fun _ _ _ _ => rfl⟩
  have hagree : noting.AgreesOn names crowded := hstamped.define hspare 0 _
  obtain ⟨⟨φ, hφ, houtcome, _⟩, _, houtput, _, hothers⟩ :=
    bystanders_irrelevant (s := 0) (m := .ofMemory noting) hprogram 5 (by decide) htidy
      (hfits.shows (fun _ _ => id)) hagree (by decide)
  exact ⟨⟨φ, hφ, rfl, rfl, houtcome⟩, houtput, hothers 0 (by decide) "spare" hspare⟩

end Treewalk
