import Treewalk.Proofs.Run.Hashes

namespace Treewalk

open Evaluation

theorem Memory.get?_bindings_defineAll {m : Memory} {s : ScopeId} (hs : s < m.scopes.size)
    (bs : List (String × Value)) (name : String) :
    ((m.defineAll s bs).bindings s).get? name =
      (bs.reverse.lookup name).or ((m.bindings s).get? name) := by
  induction bs generalizing m with
  | nil => rfl
  | cons b bs ih =>
    obtain ⟨other, v⟩ := b
    have hs' : s < (m.define s other v).scopes.size := by rwa [size_define]
    show ((Memory.defineAll (m.define s other v) s bs).bindings s).get? name = _
    rw [ih hs', bindings_define_self hs, Bindings.get?_set, List.reverse_cons, List.lookup_append,
      Option.or_assoc]
    by_cases hname : other = name
    · rw [if_pos hname, hname, List.lookup_cons_self]
      rfl
    · rw [if_neg hname, List.lookup_cons, beq_false_of_ne (Ne.symm hname)]
      rfl

/-- A hash has for each key the value of the last pair that matches. -/
theorem Entries.get?_ofList_eq_find? {α : Type} (pairs : List (Key × α)) (wanted : HashKey) :
    get? wanted (ofList pairs) =
      (pairs.reverse.find? (fun p => p.1.hashKey == wanted)).map Prod.snd := by
  induction pairs using List.reverseRecOn with
  | nil => rfl
  | append_singleton pairs pair ih =>
    rw [ofList_concat, get?_insert, ih, List.reverse_concat, List.find?_cons]
    by_cases hkey : pair.1.hashKey = wanted
    · rw [if_pos hkey, beq_iff_eq.mpr hkey]
      rfl
    · rw [if_neg hkey, beq_false_of_ne hkey]

theorem evaluate_name {n : Nat} {scope : ScopeId} {name : String} {m : Machine} {v : Value}
    (h : m.memory.get? scope name = some v) :
    evaluate (n + 1) scope (.identifier name) m = (.done v, m) := by
  rw [evaluate, evalNode, nameValue, bind_of_done (look_apply scope name m), h]
  rfl

/-- Wherever a value is handed on in evaluations that are nested up to the given depth, the value
that comes out is the one that was put in. -/
structure HandsOn (n : Nat) : Prop where
  /-- A `let` binds its name to the value of its expression. -/
  binding : ∀ scope name e m v m', scope < m'.memory.scopes.size →
    evaluate n scope e m = (.done v, m') →
      ∃ m'', runStatement (evaluate n) scope (.binding name e) m = (.done .null, m'') ∧
        evaluate (n + 1) scope (.identifier name) m'' = (.done v, m'')
  /-- A name that is bound stands for what it is bound to. -/
  name : ∀ scope name m v, m.memory.get? scope name = some v →
    evaluate (n + 1) scope (.identifier name) m = (.done v, m)
  /-- In the body of a function, a parameter stands for its argument. -/
  argument : ∀ parameters outer arguments m inner m' name v,
    callScope parameters outer arguments m = (.done inner, m') →
    (parameters.zip arguments).reverse.lookup name = some v →
      evaluate (n + 1) inner (.identifier name) m' = (.done v, m')
  /-- A function is called with the values of the expressions. -/
  call : ∀ scope f es m callee m₁ vs m₂, evaluate n scope f m = (.done callee, m₁) →
    evalAll (evaluate n scope) es m₁ = (.done vs, m₂) →
      evaluate (n + 1) scope (.call f es) m = callValue (evaluate n) callee vs m₂
  /-- A `return` ends the statements around it with a marker of its value. -/
  returning : ∀ scope e others m v m' w, evaluate n scope e m = (.done v, m') →
    runStatements (evaluate n) scope (.return e :: others) w m = (.done (.returned v), m')
  /-- What the body of a function comes to, freed from the marker, is what the call comes to. -/
  returned : ∀ stamp parameters body outer arguments m inner m₁ v m₂,
    parameters.length = arguments.length →
    callScope parameters outer arguments m = (.done inner, m₁) →
    runBlock (evaluate n) inner body (m₁.startCall parameters.length) = (.done v, m₂) →
      callValue (evaluate n) (.function stamp parameters body outer) arguments m =
        (.done v.unwrapped, m₂.endCall)
  /-- An array holds the values of its elements. -/
  array : ∀ scope es m vs m', evalAll (evaluate n scope) es m = (.done vs, m') →
    ∃ stamp m'', evaluate (n + 1) scope (.array es) m = (.done (.array stamp vs), m'')
  /-- An index gives the element of an array. -/
  element : ∀ scope c i m stamp vs m₁ j m₂ v, evaluate n scope c m = (.done (.array stamp vs), m₁) →
    evaluate n scope i m₁ = (.done (.integer j), m₂) → 0 ≤ j → vs[j.toInt.toNat]? = some v →
      evaluate (n + 1) scope (.index c i) m = (.done v, m₂)
  /-- A hash holds the values of its pairs, the last one of those that match. -/
  hash : ∀ scope pairs m kvs m', PairsYield (evaluate n scope) pairs m kvs m' →
    ∃ stamp entries m'', evaluate (n + 1) scope (.hash pairs) m =
        (.done (.hash stamp entries), m'') ∧
      ∀ wanted, Entries.get? wanted entries =
        (kvs.reverse.find? (fun p => p.1.hashKey == wanted)).map Prod.snd
  /-- An index gives what a hash holds for the key. -/
  entry : ∀ scope c i m stamp entries m₁ w key m₂ v,
    evaluate n scope c m = (.done (.hash stamp entries), m₁) →
    evaluate n scope i m₁ = (.done w, m₂) → w.key? = some key →
    Entries.get? key.hashKey entries = some v →
      evaluate (n + 1) scope (.index c i) m = (.done v, m₂)
  first : ∀ stamp v vs m, Builtin.first.apply [.array stamp (v :: vs)] m = (.done v, m)
  last : ∀ stamp v vs m, Builtin.last.apply [.array stamp (vs ++ [v])] m = (.done v, m)
  /-- The new array holds the elements of the other one but the first. -/
  rest : ∀ stamp v vs m, ∃ stamp' m',
    Builtin.rest.apply [.array stamp (v :: vs)] m = (.done (.array stamp' vs), m')
  /-- The new array holds the elements of the other one, and the argument. -/
  push : ∀ stamp vs v m, ∃ stamp' m',
    Builtin.push.apply [.array stamp vs, v] m = (.done (.array stamp' (vs ++ [v])), m')

section
variable {n : Nat} {scope : ScopeId} {m m₁ m₂ : Machine} {v : Value}

theorem evaluate_of_binding {name : String} {e : Expression} {m' : Machine}
    (hs : scope < m'.memory.scopes.size) (h : evaluate n scope e m = (.done v, m')) :
    ∃ m'', runStatement (evaluate n) scope (.binding name e) m = (.done .null, m'') ∧
      evaluate (n + 1) scope (.identifier name) m'' = (.done v, m'') := by
  refine ⟨{ m' with memory := m'.memory.define scope name v }, ?_,
    evaluate_name (Memory.get?_define_self hs name v)⟩
  rw [runStatement, bind_of_done h, bind_of_done (define_apply scope name v m')]
  rfl

theorem evaluate_of_argument {parameters : List String} {outer inner : ScopeId}
    {arguments : List Value} {m' : Machine} {name : String}
    (h : callScope parameters outer arguments m = (.done inner, m'))
    (hlookup : (parameters.zip arguments).reverse.lookup name = some v) :
    evaluate (n + 1) inner (.identifier name) m' = (.done v, m') := by
  rw [callScope_apply] at h
  obtain ⟨hinner, hmachine⟩ := Prod.mk.inj h
  obtain rfl : m.memory.scopes.size = inner := Outcome.done.inj hinner
  have hmemory : m'.memory = (m.memory.innerScope outer).2.defineAll m.memory.scopes.size
      (parameters.zip arguments) := by
    rw [← hmachine]
    rfl
  have hlt : m.memory.scopes.size < (m.memory.innerScope outer).2.scopes.size :=
    Memory.lt_size_innerScope
  refine evaluate_name ?_
  rw [hmemory, Memory.get?, List.findSome?_cons, Memory.get?_bindings_defineAll hlt, hlookup]
  rfl

theorem evaluate_element {c i : Expression} {stamp : Nat} {vs : List Value} {j : Int64}
    (hc : evaluate n scope c m = (.done (.array stamp vs), m₁))
    (hi : evaluate n scope i m₁ = (.done (.integer j), m₂)) (hj : 0 ≤ j)
    (hv : vs[j.toInt.toNat]? = some v) :
    evaluate (n + 1) scope (.index c i) m = (.done v, m₂) := by
  have hat : (Value.array stamp vs).at (.integer j) = .ok v := by
    rw [Value.at, elementAt, if_neg (Int64.not_lt.mpr hj), hv]
    rfl
  rw [evaluate, evalNode, bind_of_done hc, bind_of_done hi, hat]
  rfl

theorem evaluate_hash {pairs : List (Expression × Expression)} {kvs : List (Key × Value)}
    {m' : Machine} (h : PairsYield (evaluate n scope) pairs m kvs m') :
    ∃ stamp entries m'', evaluate (n + 1) scope (.hash pairs) m =
        (.done (.hash stamp entries), m'') ∧
      ∀ wanted, Entries.get? wanted entries =
        (kvs.reverse.find? (fun p => p.1.hashKey == wanted)).map Prod.snd :=
  ⟨_, Entries.ofList kvs, _, (bind_of_done (h.evalPairs_eq [])).trans (newHash_apply _ _),
    Entries.get?_ofList_eq_find? kvs⟩

theorem evaluate_entry {c i : Expression} {stamp : Nat} {entries : Entries Value} {w : Value}
    {key : Key} (hc : evaluate n scope c m = (.done (.hash stamp entries), m₁))
    (hi : evaluate n scope i m₁ = (.done w, m₂)) (hkey : w.key? = some key)
    (hv : Entries.get? key.hashKey entries = some v) :
    evaluate (n + 1) scope (.index c i) m = (.done v, m₂) := by
  have hat : (Value.hash stamp entries).at w = .ok v := by
    rw [Value.at, Value.toKey, hkey]
    show Except.ok ((Entries.get? key.hashKey entries).getD .null) = _
    rw [hv]
    rfl
  rw [evaluate, evalNode, bind_of_done hc, bind_of_done hi, hat]
  rfl

end

theorem handsOn (n : Nat) : HandsOn n where
  binding _ _ _ _ _ _ hs h := evaluate_of_binding hs h
  name _ _ _ _ h := evaluate_name h
  argument _ _ _ _ _ _ _ _ h hlookup := evaluate_of_argument h hlookup
  call _ _ _ _ _ _ _ _ hf hes := (bind_of_done hf).trans (bind_of_done hes)
  returning scope e others m v m' w h := by
    have hreturn : runStatement (evaluate n) scope (.return e) m = (.done (.returned v), m') :=
      bind_of_done h
    rw [runStatements, bind_of_done hreturn]
    rfl
  returned stamp parameters body outer arguments m inner m₁ v m₂ hlength hscope hbody := by
    have hcall : asCall parameters.length (runBlock (evaluate n) inner body) m₁ =
        (.done v, m₂.endCall) := by
      rw [asCall_apply, hbody]
    rw [callValue, enterFunction, if_pos hlength, bind_of_done hscope, bind_of_done hcall]
    rfl
  array _ _ _ _ _ h := ⟨_, _, (bind_of_done h).trans (newArray_apply _ _)⟩
  element _ _ _ _ _ _ _ _ _ _ hc hi hj hv := evaluate_element hc hi hj hv
  hash _ _ _ _ _ h := evaluate_hash h
  entry _ _ _ _ _ _ _ _ _ _ _ hc hi hkey hv := evaluate_entry hc hi hkey hv
  first _ _ _ _ := rfl
  last stamp v vs m := by
    show (Outcome.done ((vs ++ [v]).getLastD .null), m) = _
    rw [List.getLastD_eq_getLast?, List.getLast?_concat]
    rfl
  rest _ _ _ _ := ⟨_, _, rfl⟩
  push _ _ _ _ := ⟨_, _, rfl⟩

end Treewalk
