import Treewalk.Tree.Outline
import Treewalk.Value.Memory

namespace Treewalk

open Text

/-- A scope may hold functions that hold the scope again, so only its names and its depth are
written. -/
def Memory.outlineScope (m : Memory) (s : ScopeId) : String :=
  record "Environment"
    [("variables", sequence ((m.ownBindings s).map (fun b => quote b.1))),
      ("depth", toString (m.depth s))]

def HashKey.outline (k : HashKey) : String :=
  record "HashKey" [("type_name", quote k.tag.name), ("value", toString k.number.toNat)]

def Key.outline : Key → String
  | .integer n => variant "Integer" [toString n.toInt]
  | .boolean b => variant "Boolean" [outlineBoolean b]
  | .string s => variant "String" [quote s]

mutual

def Value.outline (m : Memory) : Value → String
  | .integer n => variant "Integer" [toString n.toInt]
  | .boolean b => variant "Boolean" [outlineBoolean b]
  | .string s => variant "String" [quote s]
  | .null => "Null"
  | .returned v => variant "ReturnValue" [v.outline m]
  | .error message => variant "Error" [quote message]
  | .function _ parameters body scope =>
    variant "Function" [record "Function"
      [("literal", outlineFunction parameters body), ("closure", m.outlineScope scope)]]
  | .builtin b => variant "Builtin" [record "Builtin" [("name", quote b.name)]]
  | .array _ elements => variant "Array" [sequence (outlineElements m elements)]
  | .hash _ entries => variant "Hash" [mapping (outlineEntries m entries)]

def outlineElements (m : Memory) : List Value → List String
  | [] => []
  | v :: rest => v.outline m :: outlineElements m rest

def outlineEntries (m : Memory) : List (Key × Value) → List (String × String)
  | [] => []
  | (k, v) :: rest =>
    (k.hashKey.outline, record "HashPair" [("key", k.outline), ("value", v.outline m)]) ::
      outlineEntries m rest

end

end Treewalk
