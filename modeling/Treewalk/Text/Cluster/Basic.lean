import Treewalk.Text.Cluster.Classes
import Treewalk.Text.Syllable

namespace Treewalk.Text

/-- What a character does to its neighbours. -/
inductive Role where
  | carriageReturn
  | lineFeed
  | control
  | extender
  | joiner
  | spacing
  | preposed
  | regional
  | syllable (part : SyllablePart)
  | other
deriving DecidableEq

namespace Role

/-- Vowels of their own that join like the vowels of syllables. -/
def isVowelSign (c : Char) : Bool :=
  c.toNat == 0x16d63 || (0x16d67 ≤ c.toNat && c.toNat ≤ 0x16d6a)

def ofChar (c : Char) : Role :=
  if c == '\r' then carriageReturn
  else if c == '\n' then lineFeed
  else if c == '\u200d' then joiner
  else if inRanges controlRanges c then control
  else if inRanges extenderRanges c then extender
  else if inRanges spacingRanges c then spacing
  else if inRanges preposedRanges c then preposed
  else if 0x1f1e6 ≤ c.toNat && c.toNat ≤ 0x1f1ff then regional
  else if isVowelSign c then syllable .vowel
  else match SyllablePart.ofChar? c with
    | some part => syllable part
    | none => other

def standsAlone : Role → Bool
  | carriageReturn | lineFeed | control => true
  | _ => false

/-- Whether a character of this role belongs to the one before it. -/
def attaches : Role → Bool
  | extender | joiner | spacing => true
  | _ => false

/-- Whether two parts belong to one syllable. -/
def sameSyllable : Role → Role → Bool
  | syllable a, syllable b => a.continues b
  | _, _ => false

end Role

def isPictograph (c : Char) : Bool := inRanges pictographRanges c

def isConsonant (c : Char) : Bool := inRanges consonantRanges c

def isLinker (c : Char) : Bool := inRanges linkerRanges c

/-- What a text has come to. It ends in a picture with its extenders (`picture`), which a joiner
may follow (`joined`); in a consonant with its signs (`consonant`), one of which may be a linker
(`linked`); or in a regional letter that still lacks its second (`unpaired`). -/
structure Edge where
  role : Role
  picture : Bool
  joined : Bool
  consonant : Bool
  linked : Bool
  unpaired : Bool

namespace Edge

def start : Edge := ⟨.control, false, false, false, false, false⟩

def after (e : Edge) (c : Char) : Edge :=
  let role := Role.ofChar c
  let sign := e.consonant && (isLinker c || role == .joiner || (role == .extender && c != '\u200c'))
  { role
    picture := isPictograph c || (e.picture && role == .extender)
    joined := e.picture && role == .joiner
    consonant := isConsonant c || sign
    linked := sign && (e.linked || isLinker c)
    unpaired := role == .regional && !e.unpaired }

/-- Whether the next character belongs to the cluster that has been read last. -/
def joins (e : Edge) (c : Char) : Bool :=
  let role := Role.ofChar c
  if e.role == .carriageReturn && role == .lineFeed then true
  else if e.role.standsAlone || role.standsAlone then false
  else role.attaches || e.role == .preposed || e.role.sameSyllable role ||
    (e.joined && isPictograph c) || (e.linked && isConsonant c) ||
    (e.unpaired && role == .regional)

end Edge

/-- What follows an edge: the rest of its cluster, and the clusters after that. -/
def clustersAfter (e : Edge) : List Char → List Char × List (List Char)
  | [] => ([], [])
  | c :: cs =>
    let (own, others) := clustersAfter (e.after c) cs
    if e.joins c then (c :: own, others) else ([], (c :: own) :: others)

/-- The runs of characters that a reader takes for one character, such as a letter with its accents,
a syllable or a family of joined pictures (Unicode 17). -/
def clusters (cs : List Char) : List (List Char) := (clustersAfter .start cs).2

theorem flatten_clustersAfter (e : Edge) (cs : List Char) :
    (clustersAfter e cs).1 ++ (clustersAfter e cs).2.flatten = cs := by
  induction cs generalizing e with
  | nil => rfl
  | cons c cs ih =>
    have h := ih (e.after c)
    simp only [clustersAfter]
    split
    · rw [List.cons_append, h]
    · rw [List.nil_append, List.flatten_cons, List.cons_append, h]

theorem joins_start (c : Char) : Edge.start.joins c = false := rfl

theorem fst_clustersAfter_start (cs : List Char) : (clustersAfter .start cs).1 = [] := by
  cases cs with
  | nil => rfl
  | cons c cs => simp only [clustersAfter, joins_start, Bool.false_eq_true, if_false]

/-- Nothing is lost or moved. -/
theorem flatten_clusters (cs : List Char) : (clusters cs).flatten = cs := by
  have h := flatten_clustersAfter .start cs
  rwa [fst_clustersAfter_start, List.nil_append] at h

end Treewalk.Text
