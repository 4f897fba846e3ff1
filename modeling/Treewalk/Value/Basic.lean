import Treewalk.Tree.Basic
import Treewalk.Value.Key

namespace Treewalk

inductive Builtin where
  | len
  | first
  | last
  | rest
  | push
  | puts
deriving DecidableEq

namespace Builtin

def name : Builtin → String
  | len => "len"
  | first => "first"
  | last => "last"
  | rest => "rest"
  | push => "push"
  | puts => "puts"

def all : List Builtin := [len, first, last, rest, push, puts]

def ofName? (s : String) : Option Builtin := all.find? (fun b => b.name == s)

end Builtin

/-- Scopes are numbered in the order of their creation. -/
abbrev ScopeId := Nat

/-- Functions, arrays and hashes carry a stamp that is new whenever one is created, which tells
them from others of the same content. A `returned` value is on its way out of nested blocks. -/
inductive Value where
  | integer (n : Int64)
  | boolean (b : Bool)
  | string (s : String)
  | null
  | returned (value : Value)
  | error (message : String)
  | function (stamp : Nat) (parameters : List String) (body : Block) (scope : ScopeId)
  | builtin (b : Builtin)
  | array (stamp : Nat) (elements : List Value)
  | hash (stamp : Nat) (entries : List (Key × Value))

instance : Inhabited Value := ⟨.null⟩

namespace Value

def tag : Value → Tag
  | integer _ => .integer
  | boolean _ => .boolean
  | string _ => .string
  | null => .null
  | returned _ => .returned
  | error _ => .error
  | function .. => .function
  | builtin _ => .builtin
  | array .. => .array
  | hash .. => .hash

/-- All but `false` and `null` count as true. -/
def isTruthy : Value → Bool
  | boolean false => false
  | null => false
  | _ => true

def isError : Value → Bool
  | error _ => true
  | _ => false

def isReturned : Value → Bool
  | returned _ => true
  | _ => false

/-- Integers, booleans and strings can be keys. -/
def key? : Value → Option Key
  | integer n => some (.integer n)
  | boolean b => some (.boolean b)
  | string s => some (.string s)
  | _ => none

def hashKey? (v : Value) : Option HashKey := v.key?.map Key.hashKey

end Value

end Treewalk
