import Treewalk.Proofs.Renaming.Shift
import Treewalk.Proofs.Scopes.Order
import Treewalk.Proofs.Session.Bindings

namespace Treewalk

open Evaluation Text

/-- An answer as it is seen: of a value, the type and the text. -/
inductive Answer.Shown where
  | value (tag : Tag) (text : String)
  | binding (name : String)
  | rejected (messages : List String)
  | told (message : String)
  | unknownCommand (word : String)
  | empty
  | exit
  | exhausted
deriving DecidableEq

def Answer.shown : Answer → Answer.Shown
  | .value v => .value v.tag v.inspect
  | .binding name => .binding name
  | .rejected messages => .rejected messages
  | .told message => .told message
  | .unknownCommand word => .unknownCommand word
  | .empty => .empty
  | .exit => .exit
  | .exhausted => .exhausted

/-- A reply as it is seen, with what was printed and what was logged. -/
structure Reply.Shown where
  answer : Answer.Shown
  output : String
  readingLog : List LogRecord
  log : List LogRecord
deriving DecidableEq

def Reply.shown (r : Reply) : Reply.Shown :=
  ⟨r.answer.shown, Event.output r.events, r.readingLog, Event.log r.events⟩

/-- Lists that are strictly in order of their keys and have the same elements are equal. -/
theorem eq_of_pairwise_lt {α : Type} {key : α → String} {xs ys : List α}
    (hxs : xs.Pairwise (fun a b => key a < key b)) (hys : ys.Pairwise (fun a b => key a < key b))
    (h : ∀ a, a ∈ xs ↔ a ∈ ys) : xs = ys := by
  have hnodup : ∀ {zs : List α}, zs.Pairwise (fun a b => key a < key b) → zs.Nodup := by
    intro zs hzs
    refine hzs.imp (fun {a b} hlt heq => ?_)
    subst heq
    exact lt_irrefl _ hlt
  refine List.Perm.eq_of_pairwise (fun a b _ _ hab hba => absurd hab (lt_asymm hba)) hxs hys ?_
  exact (List.perm_ext_iff_of_nodup (hnodup hxs) (hnodup hys)).mpr h

theorem Renaming.Image.ownBindings {φ : Renaming} (hnames : φ.KeepsNames)
    (hknown : ∀ name, φ.known name) {m m' : Memory} (h : φ.Image m m') (hm : m.Distinct)
    (hm' : m'.Distinct) {s : ScopeId} (hs : ¬ φ.forgotten s) :
    m'.ownBindings (φ.scope s) = (m.ownBindings s).map (fun b => (b.1, b.2.rename φ)) := by
  have hsorted : ∀ {m : Memory}, m.Distinct → ∀ s,
      (m.ownBindings s).Pairwise (fun b c => b.1 < c.1) := fun hm s => (hm s).pairwise_sorted
  refine eq_of_pairwise_lt (hsorted hm' _) (List.pairwise_map.mpr (hsorted hm s)) (fun b => ?_)
  obtain ⟨name, v⟩ := b
  have hget := h.bindings s hs name (hknown name)
  rw [hnames] at hget
  rw [hm'.mem_ownBindings_iff, hget, Option.map_eq_some_iff, List.mem_map]
  constructor
  · rintro ⟨w, hw, rfl⟩
    exact ⟨(name, w), hm.mem_ownBindings_iff.mpr hw, rfl⟩
  · rintro ⟨⟨n, w⟩, hw, heq⟩
    obtain ⟨rfl, rfl⟩ := Prod.mk.inj heq
    exact ⟨w, hm.mem_ownBindings_iff.mp hw, rfl⟩

theorem environmentText_rename {φ : Renaming} (hnames : φ.KeepsNames) (bs : Bindings) :
    environmentText (bs.map (fun b => (b.1, b.2.rename φ))) = environmentText bs := by
  simp only [environmentText, List.isEmpty_map, List.map_map, Function.comp_def, Value.tag_rename,
    Value.inspect_rename hnames]

theorem answerTo_shown {φ : Renaming} (hnames : φ.KeepsNames) (p : Program)
    {r r' : Outcome Value × Machine} (h : φ.Ends φ.Match r r') :
    (answerTo p r'.1).shown = (answerTo p r.1).shown := by
  cases h with
  | @done v _ _ _ hv hm =>
    obtain ⟨rfl, _⟩ := hv
    have hvalue : Answer.shown (.value (v.rename φ)) = Answer.shown (.value v) := by
      rw [Answer.shown, Answer.shown, Value.tag_rename, Value.inspect_rename hnames]
    simp only [answerTo, Value.isError_rename]
    split
    · exact hvalue
    · split
      · rfl
      · exact hvalue
  | failed f hm => rw [f.rename_eq_self hnames]
  | exhausted hm => rfl

/-- A program leaves every scope with one binding for a name. -/
theorem Memory.Distinct.run {m : Machine} (h : m.memory.Distinct) (p : Program) (budget : Nat)
    (scope : ScopeId) : (p.run budget scope m).2.memory.Distinct :=
  (Built.run p budget scope).keeps (fun _ s name v hm => hm.define s name v)
    (fun _ _ hm => hm.addScope _) (fun _ hm => hm) h

theorem Command.eq_of_ofWord?_stats {word : String} (h : ofWord? word = some .stats) :
    word = ":stats" := by
  grind [ofWord?]

namespace Console

/-- The session of the second console is that of the first one, behind so many scopes and stamps.
All that came before the reset is still in memory, but no scope made afterwards leads to it. -/
structure Like (scopes stamps : Nat) (c c' : Console) : Prop where
  memory : (Renaming.shift scopes stamps).Image c.session.memory c'.session.memory
  scope : c'.session.scope = c.session.scope + scopes
  distinct : c.session.memory.Distinct
  distinct' : c'.session.memory.Distinct

/-- Both replies are shown alike, and afterwards the consoles are alike. -/
structure AnsweredAlike (scopes stamps : Nat) (r r' : Reply × Console) : Prop where
  shown : r'.1.shown = r.1.shown
  like : r.2.Like scopes stamps r'.2

namespace Like

variable {scopes stamps budget : Nat} {line : String} {c c' : Console}
  (h : c.Like scopes stamps c')
include h

/-- The program of a line does the same in both sessions. -/
theorem runLine (budget : Nat) (line : String) :
    (Renaming.shift scopes stamps).Ends (Renaming.shift scopes stamps).Match
      (c.runLine budget line) (c'.runLine budget line) := by
  have hscope : (Renaming.shift scopes stamps).MatchScope c.session.scope c'.session.scope :=
    ⟨h.scope, fun hforgotten => hforgotten⟩
  have hrun := Renaming.tracks_run hscope
    (knownStatements_of_all (read line).program.statements) budget
  rw [Program.rename_eq_self Renaming.keepsNames_shift] at hrun
  exact hrun _ _ ⟨h.memory, rfl, rfl⟩

theorem answerProgram (budget : Nat) (line : String) :
    AnsweredAlike scopes stamps (c.answerProgram budget line) (c'.answerProgram budget line) := by
  cases hempty : (read line).diagnostics.isEmpty with
  | false =>
    rw [answerProgram_of_raised budget c hempty, answerProgram_of_raised budget c' hempty]
    exact ⟨rfl, h.memory, h.scope, h.distinct, h.distinct'⟩
  | true =>
    have hends := h.runLine budget line
    have hevents := hends.machine.events
    rw [answerProgram_of_clean budget c hempty, answerProgram_of_clean budget c' hempty]
    constructor
    · simp only [Reply.shown, hevents, answerTo_shown Renaming.keepsNames_shift _ hends,
        Event.output_rename Renaming.keepsNames_shift, Event.log_rename]
    · constructor <;> simp only [session_countEvaluation]
      · exact hends.machine.memory
      · exact h.scope
      · rw [Console.runLine]
        exact h.distinct.run (read line).program budget c.session.scope
      · rw [Console.runLine]
        exact h.distinct'.run (read line).program budget c'.session.scope

theorem reset : Like scopes stamps { c with session := c.session.reset }
    { c' with session := c'.session.reset } :=
  ⟨h.memory.addScope (Renaming.memoryFits_shift _), h.memory.scope_size.symm,
    h.distinct.addScope [], h.distinct'.addScope []⟩

theorem environmentText_eq :
    environmentText c'.session.ownBindings = environmentText c.session.ownBindings := by
  have hown : c'.session.ownBindings = c.session.ownBindings.map
      (fun b => (b.1, b.2.rename (.shift scopes stamps))) := by
    rw [Session.ownBindings, h.scope]
    exact h.memory.ownBindings Renaming.keepsNames_shift (fun _ => trivial) h.distinct h.distinct'
      (fun hforgotten => hforgotten)
  rw [hown, environmentText_rename Renaming.keepsNames_shift]

/-- All commands but one are obeyed alike. -/
theorem obey {word : String} (hword : Command.ofWord? word ≠ some .stats) :
    (c'.obey word).1.shown = (c.obey word).1.shown ∧
      (c.obey word).2.Like scopes stamps (c'.obey word).2 := by
  cases hcommand : Command.ofWord? word with
  | none => simp only [Console.obey, hcommand, true_and]; exact h
  | some command =>
    cases command with
    | help => simp only [Console.obey, hcommand, true_and]; exact h
    | environment =>
      simp only [Console.obey, hcommand, h.environmentText_eq, true_and]
      exact h
    | reset => simp only [Console.obey, hcommand, true_and]; exact h.reset
    | stats => exact absurd hcommand hword
    | quit => simp only [Console.obey, hcommand, true_and]; exact h

/-- All lines but those for the statistics are answered alike. -/
theorem answer (budget : Nat) (hline : firstWord (trim line) ≠ ":stats") :
    AnsweredAlike scopes stamps (c.answer budget line) (c'.answer budget line) := by
  by_cases hblank : IsBlankLine line
  · rw [answer_of_blank hblank, answer_of_blank hblank]
    exact ⟨rfl, h⟩
  by_cases hcommand : IsCommandLine line
  · have hcount : c.countCommand.Like scopes stamps c'.countCommand :=
      ⟨h.memory, h.scope, h.distinct, h.distinct'⟩
    have hobey := hcount.obey (fun hstats => hline (Command.eq_of_ofWord?_stats hstats))
    rw [answer_of_command budget c hcommand, answer_of_command budget c' hcommand]
    generalize c.countCommand.obey (firstWord (trim line)) = obeyed at hobey ⊢
    generalize c'.countCommand.obey (firstWord (trim line)) = obeyed' at hobey ⊢
    exact ⟨by simp only [Reply.shown, hobey.1], hobey.2⟩
  rw [answer_of_program budget c hblank hcommand, answer_of_program budget c' hblank hcommand]
  exact h.answerProgram budget line

theorem answerAll (budget : Nat) {lines : List String}
    (hlines : ∀ line ∈ lines, firstWord (trim line) ≠ ":stats") :
    (c'.answerAll budget lines).1.map Reply.shown =
      (c.answerAll budget lines).1.map Reply.shown := by
  induction lines generalizing c c' with
  | nil => rfl
  | cons line rest ih =>
    obtain ⟨hhead, hrest⟩ := List.forall_mem_cons.mp hlines
    have hanswer := h.answer budget hhead
    rw [answerAll_cons, answerAll_cons, List.map_cons, List.map_cons, hanswer.shown,
      ih hanswer.like hrest]

end Like

theorem answerAll_concat (budget : Nat) (lines : List String) (last : String) (c : Console) :
    (c.answerAll budget (lines ++ [last])).2 =
      ((c.answerAll budget lines).2.answer budget last).2 := by
  induction lines generalizing c with
  | nil => rw [List.nil_append, answerAll_cons, answerAll, answerAll]
  | cons line rest ih => rw [List.cons_append, answerAll_cons, answerAll_cons, ih]

theorem session_answer_reset (budget : Nat) (c : Console) :
    (c.answer budget ":reset").2.session = c.session.reset := by
  have hcommand : IsCommandLine ":reset" := rfl
  rw [answer_of_command budget c hcommand]
  rfl

/-- In the memory of a session every scope has one binding for a name. -/
theorem distinct_answerAll (budget : Nat) (history : List String) :
    (Console.new.answerAll budget history).2.session.memory.Distinct :=
  session_answerAll (P := fun s => s.memory.Distinct) (fun _ hs => hs.addScope [])
    (fun s p hs => hs.run p budget s.scope) (Memory.distinct_empty.addScope []) history

/-- The new session is found again in any other one that was reset, behind all that was there. -/
theorem like_of_reset {c : Console} {s : Session} (hs : s.memory.Distinct)
    (hc : c.session = s.reset) :
    Console.new.Like s.memory.scopes.size s.memory.nextStamp c := by
  refine ⟨?_, ?_, Memory.distinct_empty.addScope [], ?_⟩ <;> rw [hc]
  · exact (Renaming.image_empty s.memory).addScope (Renaming.memoryFits_shift _)
  · exact (Nat.zero_add _).symm
  · exact hs.addScope []

end Console

/-- Whatever was answered before a reset, the lines after it are answered as in a new console, as
far as is shown; only the statistics tell the difference. -/
theorem reset_forgets (budget : Nat) (history lines : List String)
    (h : ∀ line ∈ lines, firstWord (trim line) ≠ ":stats") :
    ((Console.new.answerAll budget (history ++ [":reset"])).2.answerAll budget lines).1.map
        Reply.shown =
      (Console.new.answerAll budget lines).1.map Reply.shown := by
  have hreset : (Console.new.answerAll budget (history ++ [":reset"])).2.session =
      (Console.new.answerAll budget history).2.session.reset := by
    rw [Console.answerAll_concat]
    exact Console.session_answer_reset budget _
  have hlike := Console.like_of_reset (Console.distinct_answerAll budget history) hreset
  exact hlike.answerAll budget h

/-- A function and an array were there before, and one of each is made afterwards. -/
theorem reset_forgets_function :
    let history := ["let f = fn(x) \x7b x \x7d; let a = [f];"]
    let lines := ["let g = fn(x) \x7b [x] \x7d", "g(1)", "f", ":env"]
    ((Console.new.answerAll 9 (history ++ [":reset"])).2.answerAll 9 lines).1.map Reply.shown =
      (Console.new.answerAll 9 lines).1.map Reply.shown :=
  reset_forgets 9 _ _ (by decide)

end Treewalk
