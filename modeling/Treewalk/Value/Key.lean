namespace Treewalk

/-- The types that values have. -/
inductive Tag where
  | integer
  | boolean
  | string
  | null
  | returned
  | error
  | function
  | builtin
  | array
  | hash
deriving DecidableEq

def Tag.name : Tag → String
  | integer => "INTEGER"
  | boolean => "BOOLEAN"
  | string => "STRING"
  | null => "NULL"
  | returned => "RETURN_VALUE"
  | error => "ERROR"
  | function => "FUNCTION"
  | builtin => "BUILTIN"
  | array => "ARRAY"
  | hash => "HASH"

/-- The FNV-1a hash of a byte sequence. -/
def fnv1a (bytes : List UInt8) : UInt64 :=
  bytes.foldl (fun hash byte => (hash ^^^ byte.toUInt64) * 0x100000001b3) 0xcbf29ce484222325

/-- What a key is found by. A number of 64 bits together with the type. -/
structure HashKey where
  tag : Tag
  number : UInt64
deriving DecidableEq

inductive Key where
  | integer (n : Int64)
  | boolean (b : Bool)
  | string (s : String)
deriving DecidableEq

namespace Key

def tag : Key → Tag
  | integer _ => .integer
  | boolean _ => .boolean
  | string _ => .string

def number : Key → UInt64
  | integer n => n.toUInt64
  | boolean b => if b then 1 else 0
  | string s => fnv1a s.toUTF8.toList

def hashKey (k : Key) : HashKey := ⟨k.tag, k.number⟩

def inspect : Key → String
  | integer n => toString n.toInt
  | boolean b => if b then "true" else "false"
  | string s => s

end Key

/-- Pairs of keys and values, no two keys with the same hash key. -/
abbrev Entries (α : Type) := List (Key × α)

namespace Entries

variable {α : Type}

/-- A new key comes last; a key that is found already is replaced where it stands, and its value
with it. -/
def insert (key : Key) (value : α) : Entries α → Entries α
  | [] => [(key, value)]
  | (k, v) :: rest =>
    if k.hashKey = key.hashKey then (key, value) :: rest else (k, v) :: insert key value rest

def find? (wanted : HashKey) : Entries α → Option (Key × α)
  | [] => none
  | (k, v) :: rest => if k.hashKey = wanted then some (k, v) else find? wanted rest

def get? (wanted : HashKey) (entries : Entries α) : Option α :=
  (find? wanted entries).map Prod.snd

theorem find?_insert (key : Key) (value : α) (wanted : HashKey) (entries : Entries α) :
    find? wanted (insert key value entries) =
      if key.hashKey = wanted then some (key, value) else find? wanted entries := by
  induction entries with
  | nil => simp [insert, find?]
  | cons entry rest ih =>
    obtain ⟨k, v⟩ := entry
    by_cases hk : k.hashKey = key.hashKey
    · by_cases hw : key.hashKey = wanted <;> simp [insert, find?, hk, hw]
    · by_cases hw : k.hashKey = wanted
      · subst hw
        simp [insert, find?, hk, Ne.symm hk]
      · simp [insert, find?, hk, hw, ih]

theorem get?_insert (key : Key) (value : α) (wanted : HashKey) (entries : Entries α) :
    get? wanted (insert key value entries) =
      if key.hashKey = wanted then some value else get? wanted entries := by
  unfold get?
  rw [find?_insert]
  split <;> rfl

def ofList (pairs : List (Key × α)) : Entries α :=
  pairs.foldl (fun entries pair => insert pair.1 pair.2 entries) []

end Entries

end Treewalk
