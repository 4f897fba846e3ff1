import Treewalk.Proofs.Run.Upkeep

namespace Treewalk

open Evaluation

variable {forgotten : ScopeId → Prop} {Q : Value → Prop}

/-- However the step ends, what is in sight fits. -/
abbrev Evaluation.Fit {α : Type} (forgotten : ScopeId → Prop) (Q : Value → Prop) (p : Evaluation α)
    (m : Machine) (P : α → Prop) : Prop :=
  Ensures (fun m' => m'.memory.Fits forgotten Q) (fun _ => True) p m (fun a _ => P a)

namespace Evaluation.Fit

variable {α β : Type} {p : Evaluation α} {f : α → Evaluation β} {m : Machine} {P : α → Prop}
  {R : β → Prop}

theorem done {m' : Machine} {a : α} (h : p m = (.done a, m')) (hm : m'.memory.Fits forgotten Q)
    (ha : P a) : Fit forgotten Q p m P :=
  .of_done h hm ha

theorem pure (hm : m.memory.Fits forgotten Q) {a : α} (ha : P a) :
    Fit forgotten Q (Pure.pure a) m P :=
  Ensures.pure hm ha

theorem fail (hm : m.memory.Fits forgotten Q) (fault : Fault) :
    Fit forgotten Q (Evaluation.fail fault) m P :=
  Ensures.fail hm trivial

theorem ofExcept (hm : m.memory.Fits forgotten Q) {r : Except Fault α} (h : ∀ a, r = .ok a → P a) :
    Fit forgotten Q (Evaluation.ofExcept r) m P :=
  Ensures.ofExcept hm h (fun _ _ => trivial)

theorem bind (hp : Fit forgotten Q p m P)
    (hf : ∀ a m', P a → m'.memory.Fits forgotten Q → Fit forgotten Q (f a) m' R) :
    Fit forgotten Q (p >>= f) m R :=
  Ensures.bind hp (fun a m' _ hm' ha => hf a m' ha hm')

theorem imp (h : Fit forgotten Q p m P) {P' : α → Prop} (hP : ∀ a, P a → P' a) :
    Fit forgotten Q p m P' :=
  h.mono (fun _ hm' => hm') (fun a _ _ ha => hP a ha)

end Evaluation.Fit

/-- In sight, what fits goes on to fit. -/
def fitting (forgotten : ScopeId → Prop) (Q : Value → Prop) : Upkeep where
  memory := Memory.Fits forgotten Q
  next _ m := m.Fits forgotten Q
  value _ := Value.Fits forgotten Q
  scope _ s := ¬ forgotten s
  refl h := h
  trans _ h := h
  memory_of_next h := h
  value_of_next _ h := h
  scope_of_next _ h := h

theorem Lenient.fitting (hQ : Lenient Q) : (fitting forgotten Q).Lenient where
  atom h := hQ.fits h
  part hv hw := hv.part hw
  array h := (Value.fits_array (hQ.array _ _)).mpr h
  hash h := (Value.fits_hash (hQ.hash _ _)).mpr h
  stamp hm := hm.stamp
  define hm hv := hm.define hv
  innerScope hm hs := hm.innerScope hs
  inner hm _ := hm.fresh
  get? hm hs hv := hm.get? hs hv

section
variable (hQ : Lenient Q)
include hQ

theorem Value.fits_at {v w u : Value} (hv : v.Fits forgotten Q) (h : v.at w = .ok u) :
    u.Fits forgotten Q :=
  hQ.fitting.at (m := .empty) hv h

variable {m : Machine} (hm : m.memory.Fits forgotten Q)
include hm

theorem fit_newArray {vs : List Value} (h : ∀ v ∈ vs, v.Fits forgotten Q) :
    Fit forgotten Q (newArray vs) m (Value.Fits forgotten Q) :=
  upholds_newArray hQ.fitting hm h

theorem fit_newHash {entries : Entries Value} (h : ∀ e ∈ entries, e.2.Fits forgotten Q) :
    Fit forgotten Q (newHash entries) m (Value.Fits forgotten Q) :=
  upholds_newHash hQ.fitting hm h

omit hQ in
theorem fit_newFunction {parameters : List String} {body : Block} {scope : ScopeId}
    (hq : ∀ n, Q (.function n parameters body scope)) (hs : ¬ forgotten scope) :
    Fit forgotten Q (newFunction parameters body scope) m (Value.Fits forgotten Q) :=
  .done (newFunction_apply parameters body scope m) hm.stamp
    (Value.fits_function.mpr ⟨hq _, hs⟩)

theorem fit_nameValue {scope : ScopeId} (hs : ¬ forgotten scope) {name : String} :
    Fit forgotten Q (nameValue scope name) m (Value.Fits forgotten Q) :=
  upholds_nameValue hQ.fitting hm hs

theorem fit_apply {b : Builtin} {vs : List Value} (hvs : ∀ v ∈ vs, v.Fits forgotten Q) :
    Fit forgotten Q (b.apply vs) m (Value.Fits forgotten Q) :=
  upholds_apply hQ.fitting hm hvs

theorem fit_callScope {parameters : List String} {outer : ScopeId} {arguments : List Value}
    (ho : ¬ forgotten outer) (ha : ∀ v ∈ arguments, v.Fits forgotten Q) :
    Fit forgotten Q (callScope parameters outer arguments) m (fun inner => ¬ forgotten inner) :=
  upholds_callScope hQ.fitting hm ho ha

end

end Treewalk
