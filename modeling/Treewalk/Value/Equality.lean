import Treewalk.Value.Basic

namespace Treewalk

/-- The equality that programs see, for operands that are not both strings: simple values by what
they are, functions, arrays and hashes by their stamps. -/
def Value.identical : Value → Value → Bool
  | .boolean a, .boolean b => a == b
  | .null, .null => true
  | .integer a, .integer b => a == b
  | .array s _, .array t _ => s == t
  | .hash s _, .hash t _ => s == t
  | .function s _ _ _, .function t _ _ _ => s == t
  | .builtin a, .builtin b => a == b
  | _, _ => false

mutual

/-- Equality of content. The order of a hash's entries is no part of its content; functions are
told apart by their stamps. -/
def Value.same : Value → Value → Bool
  | .integer a, .integer b => a == b
  | .boolean a, .boolean b => a == b
  | .string a, .string b => a == b
  | .null, .null => true
  | .returned a, .returned b => a.same b
  | .error a, .error b => a == b
  | .function s _ _ _, .function t _ _ _ => s == t
  | .builtin a, .builtin b => a == b
  | .array _ xs, .array _ ys => sameElements xs ys
  | .hash _ xs, .hash _ ys => xs.length == ys.length && entriesWithin xs ys
  | _, _ => false

def sameElements : List Value → List Value → Bool
  | [], [] => true
  | a :: xs, b :: ys => a.same b && sameElements xs ys
  | _, _ => false

/-- Whether each entry is found in the other list with the same key and value. -/
def entriesWithin : List (Key × Value) → List (Key × Value) → Bool
  | [], _ => true
  | (k, v) :: rest, others =>
    (match Entries.find? k.hashKey others with
      | some (l, w) => k == l && v.same w
      | none => false) && entriesWithin rest others

end

end Treewalk
