import Galley.Value.Content
import Galley.Value.Compare
import Mathlib

/-!
# Other numbers for the same values

Numbers tell what is built apart and say nothing else. A renumbering gives every number another one,
so that two values keep having one number or two, and what does not read the numbers comes to the
same for a value and for the renumbered one.

* `Renumbering`: a change of numbers.
* `Value.renumber`: a value with other numbers, also in what its calls are still to make.
* `Value.nested`: a proof about all values by their parts.
* `Value.isBelow`: a value without numbers from a certain one on.
* `Value.text?_renumber`, `Value.truth_renumber`, `Value.render_renumber`: what is written.
-/

namespace Galley

/-- **A change of numbers.** Different numbers stay different, and zero stays the number of a value
that is nowhere else. -/
structure Renumbering where
  toFun : Nat → Nat
  injective : Function.Injective toFun
  zero : toFun 0 = 0

namespace Renumbering

instance : CoeFun Renumbering fun _ => Nat → Nat := ⟨toFun⟩

instance : Inhabited Renumbering := ⟨id, Function.injective_id, rfl⟩

/-- A renumbering **fixes** the numbers below a certain one if it leaves them as they are. -/
def Fixes (ρ : Renumbering) (n : Nat) : Prop := ∀ k < n, ρ k = k

variable (ρ : Renumbering)

@[simp] theorem apply_zero : ρ 0 = 0 := ρ.zero

@[simp] theorem apply_eq_apply {m n : Nat} : ρ m = ρ n ↔ m = n := ρ.injective.eq_iff

@[simp] theorem apply_eq_zero {n : Nat} : ρ n = 0 ↔ n = 0 := by
  rw [← ρ.apply_eq_apply (m := n), ρ.apply_zero]

@[simp] theorem apply_beq_apply {m n : Nat} : (ρ m == ρ n) = (m == n) := by
  rw [Bool.eq_iff_iff, beq_iff_eq, beq_iff_eq, apply_eq_apply]

@[simp] theorem apply_beq_zero {n : Nat} : (ρ n == 0) = (n == 0) := by
  rw [Bool.eq_iff_iff, beq_iff_eq, beq_iff_eq, apply_eq_zero]

@[simp] theorem apply_bne_zero {n : Nat} : (ρ n != 0) = (n != 0) := by
  rw [bne, bne, apply_beq_zero]

end Renumbering

namespace Value

mutual

/-- **A value with other numbers.** -/
def renumber (ρ : Renumbering) : Value → Value
  | .none => .none
  | bool b => bool b
  | int n => int n
  | float x => float x
  | nan number => nan (ρ number)
  | text kind s => text kind s
  | bytes number data => bytes (ρ number) data
  | list number items => list (ρ number) (renumberAll ρ items)
  | tuple number items => tuple (ρ number) (renumberAll ρ items)
  | dict number entries => dict (ρ number) (renumberEntries ρ entries)
  | view part entries => view part (renumberEntries ρ entries)
  | range number start stop step => range (ρ number) start stop step
  | stream number items ending => stream (ρ number) (renumberAll ρ items) ending
  | object identity attributes call =>
    object { identity with number := ρ identity.number } (renumberAttributes ρ attributes)
      (renumberCall ρ call)
  | scope number layers => scope (ρ number) (renumberLayers ρ layers)

/-- The values of a list with other numbers. -/
def renumberAll (ρ : Renumbering) : List Value → List Value
  | [] => []
  | v :: rest => renumber ρ v :: renumberAll ρ rest

/-- Entries with other numbers. -/
def renumberEntries (ρ : Renumbering) : List (Value × Value) → List (Value × Value)
  | [] => []
  | (k, v) :: rest => (renumber ρ k, renumber ρ v) :: renumberEntries ρ rest

/-- Layers with other numbers. -/
def renumberLayers (ρ : Renumbering) : List (List (Value × Value)) → List (List (Value × Value))
  | [] => []
  | layer :: rest => renumberEntries ρ layer :: renumberLayers ρ rest

/-- Attributes with other numbers. -/
def renumberAttributes (ρ : Renumbering) :
    List (String × Except HostError Value) → List (String × Except HostError Value)
  | [] => []
  | (name, result) :: rest => (name, renumberResult ρ result) :: renumberAttributes ρ rest

/-- A result with other numbers. -/
def renumberResult (ρ : Renumbering) : Except HostError Value → Except HostError Value
  | .ok v => .ok (renumber ρ v)
  | .error e => .error e

/-- A call with other numbers, also of the list that it takes an item of. -/
def renumberCall (ρ : Renumbering) : Option (Callable Value) → Option (Callable Value)
  | .none => .none
  | some ⟨result, needsArgument, inspectable, takes⟩ =>
    some ⟨renumberResult ρ result, needsArgument, inspectable,
      takes.map fun (number, left) => (ρ number, left)⟩

end

variable (ρ : Renumbering)

@[simp] theorem renumberAll_eq (items : List Value) :
    renumberAll ρ items = items.map (renumber ρ) := by
  induction items with
  | nil => rfl
  | cons v rest ih => rw [renumberAll, ih, List.map_cons]

@[simp] theorem renumberEntries_eq (entries : List (Value × Value)) :
    renumberEntries ρ entries = entries.map (Prod.map (renumber ρ) (renumber ρ)) := by
  induction entries with
  | nil => rfl
  | cons entry rest ih => rw [renumberEntries, ih, List.map_cons, Prod.map]

@[simp] theorem renumberLayers_eq (layers : List (List (Value × Value))) :
    renumberLayers ρ layers =
      layers.map (List.map (Prod.map (renumber ρ) (renumber ρ))) := by
  induction layers with
  | nil => rfl
  | cons layer rest ih => rw [renumberLayers, ih, renumberEntries_eq, List.map_cons]

@[simp] theorem renumberResult_eq (result : Except HostError Value) :
    renumberResult ρ result = result.map (renumber ρ) := by
  cases result <;> rfl

@[simp] theorem renumberAttributes_eq (attributes : List (String × Except HostError Value)) :
    renumberAttributes ρ attributes = attributes.map (Prod.map id (Except.map (renumber ρ))) := by
  induction attributes with
  | nil => rfl
  | cons a rest ih => rw [renumberAttributes, ih, renumberResult_eq, List.map_cons, Prod.map, id]

/-- **A proof about all values** by their parts. What a call is still to make is no part. -/
@[elab_as_elim]
theorem nested {P : Value → Prop} (none : P .none) (bool : ∀ b, P (.bool b))
    (int : ∀ n, P (.int n)) (float : ∀ x, P (.float x)) (nan : ∀ number, P (.nan number))
    (text : ∀ kind s, P (.text kind s)) (bytes : ∀ number data, P (.bytes number data))
    (list : ∀ number items, (∀ v ∈ items, P v) → P (.list number items))
    (tuple : ∀ number items, (∀ v ∈ items, P v) → P (.tuple number items))
    (dict : ∀ number entries, (∀ e ∈ entries, P e.1 ∧ P e.2) → P (.dict number entries))
    (view : ∀ part entries, (∀ e ∈ entries, P e.1 ∧ P e.2) → P (.view part entries))
    (range : ∀ number start stop step, P (.range number start stop step))
    (stream : ∀ number items ending, (∀ v ∈ items, P v) → P (.stream number items ending))
    (object : ∀ identity attributes call, (∀ a ∈ attributes, ∀ v, a.2 = .ok v → P v) →
      P (.object identity attributes call))
    (scope : ∀ number layers, (∀ layer ∈ layers, ∀ e ∈ layer, P e.1 ∧ P e.2) →
      P (.scope number layers)) (v : Value) : P v :=
  @Value.rec P (fun items => ∀ v ∈ items, P v) (fun entries => ∀ e ∈ entries, P e.1 ∧ P e.2)
    (fun attributes => ∀ a ∈ attributes, ∀ v, a.2 = .ok v → P v) (fun _ => True)
    (fun layers => ∀ layer ∈ layers, ∀ e ∈ layer, P e.1 ∧ P e.2) (fun e => P e.1 ∧ P e.2)
    (fun a => ∀ v, a.2 = .ok v → P v) (fun _ => True) (fun result => ∀ v, result = .ok v → P v)
    none bool int float nan text bytes list tuple dict view range stream
    (fun identity attributes call h _ => object identity attributes call h) scope
    (List.forall_mem_nil _) (fun _ _ h hs => List.forall_mem_cons.2 ⟨h, hs⟩)
    (List.forall_mem_nil _) (fun _ _ h hs => List.forall_mem_cons.2 ⟨h, hs⟩)
    (List.forall_mem_nil _) (fun _ _ h hs => List.forall_mem_cons.2 ⟨h, hs⟩)
    trivial (fun _ _ => trivial)
    (List.forall_mem_nil _) (fun _ _ h hs => List.forall_mem_cons.2 ⟨h, hs⟩)
    (fun _ _ hk hv => ⟨hk, hv⟩) (fun _ _ h => h) (fun _ _ _ _ _ => trivial)
    (fun _ _ h => nomatch h) (fun _ h _ hv => Except.ok.inj hv ▸ h) v

/-! ## What is written -/

@[simp] theorem typeName_renumber (v : Value) : (v.renumber ρ).typeName = v.typeName := by
  cases v with
  | text kind s => rfl
  | view part entries => cases part <;> rfl
  | _ => rfl

@[simp] theorem isSafe_renumber (v : Value) : (v.renumber ρ).isSafe = v.isSafe := by
  cases v <;> rfl

variable {ρ}

theorem reprAll?_map {items : List Value}
    (h : ∀ v ∈ items, repr? (v.renumber ρ) = repr? v) :
    reprAll? (items.map (renumber ρ)) = reprAll? items := by
  induction items with
  | nil => rfl
  | cons v rest ih =>
    obtain ⟨hv, hrest⟩ := List.forall_mem_cons.1 h
    rw [List.map_cons, reprAll?, reprAll?, hv, ih hrest]

theorem reprEntries?_map {entries : List (Value × Value)}
    (h : ∀ e ∈ entries, repr? (e.1.renumber ρ) = repr? e.1 ∧ repr? (e.2.renumber ρ) = repr? e.2) :
    reprEntries? (entries.map (Prod.map (renumber ρ) (renumber ρ))) = reprEntries? entries := by
  induction entries with
  | nil => rfl
  | cons e rest ih =>
    obtain ⟨⟨hk, hv⟩, hrest⟩ := List.forall_mem_cons.1 h
    rw [List.map_cons, Prod.map, reprEntries?, reprEntries?, hk, hv, ih hrest]

theorem reprLayers?_map {layers : List (List (Value × Value))}
    (h : ∀ layer ∈ layers, ∀ e ∈ layer,
      repr? (e.1.renumber ρ) = repr? e.1 ∧ repr? (e.2.renumber ρ) = repr? e.2) :
    reprLayers? (layers.map (List.map (Prod.map (renumber ρ) (renumber ρ)))) =
      reprLayers? layers := by
  induction layers with
  | nil => rfl
  | cons layer rest ih =>
    obtain ⟨hlayer, hrest⟩ := List.forall_mem_cons.1 h
    rw [List.map_cons, reprLayers?, reprLayers?, reprEntries?_map hlayer, ih hrest]

variable (ρ)

@[simp] theorem repr?_renumber (v : Value) : (v.renumber ρ).repr? = v.repr? := by
  induction v using nested with
  | none | bool | int | float | nan | text | bytes | range | object => rfl
  | stream => rfl
  | list number items ih | tuple number items ih =>
    simp only [renumber, repr?, renumberAll_eq, reprAll?_map ih]
  | dict number entries ih | view part entries ih =>
    simp only [renumber, repr?, renumberEntries_eq, reprEntries?_map ih]
  | scope number layers ih =>
    simp only [renumber, repr?, renumberLayers_eq, reprLayers?_map ih]

@[simp] theorem repr_renumber (v : Value) : (v.renumber ρ).repr = v.repr := by
  rw [repr, repr, repr?_renumber]

@[simp] theorem text?_renumber (v : Value) : (v.renumber ρ).text? = v.text? := by
  cases v with
  | text _ _ | object _ _ _ => rfl
  | _ => exact repr?_renumber ρ _

@[simp] theorem toText_renumber (v : Value) : (v.renumber ρ).toText = v.toText := by
  rw [toText, toText, text?_renumber]

@[simp] theorem truth_renumber (v : Value) : (v.renumber ρ).truth = v.truth := by
  cases v <;> simp [renumber, truth]

/-- **What is written** for a value does not depend on its numbers. -/
theorem render_renumber (v : Option Value) (autoescape : Bool) :
    Value.render (v.map (renumber ρ)) autoescape = Value.render v autoescape := by
  cases v with
  | none => rfl
  | some v =>
    simp only [Value.render, Content.ofValue, Option.map_some, toText_renumber]
    cases v with
    | text kind s => rfl
    | _ => rfl

/-! ## Values below a number -/

mutual

/-- **Whether a value is below a number:** no number in it is as high, and none in what its calls
make. -/
def isBelow (n : Nat) : Value → Bool
  | nan number | bytes number _ | range number _ _ _ => number < n
  | list number items | tuple number items | stream number items _ => number < n && allBelow n items
  | dict number entries => number < n && entriesBelow n entries
  | view _ entries => entriesBelow n entries
  | object identity attributes call =>
    identity.number < n && attributesBelow n attributes && callBelow n call
  | scope number layers => number < n && layersBelow n layers
  | .none | bool _ | int _ | float _ | text _ _ => true

/-- Whether the values of a list are. -/
def allBelow (n : Nat) : List Value → Bool
  | [] => true
  | v :: rest => isBelow n v && allBelow n rest

/-- Whether the keys and values of entries are. -/
def entriesBelow (n : Nat) : List (Value × Value) → Bool
  | [] => true
  | (k, v) :: rest => isBelow n k && isBelow n v && entriesBelow n rest

/-- Whether those of layers are. -/
def layersBelow (n : Nat) : List (List (Value × Value)) → Bool
  | [] => true
  | layer :: rest => entriesBelow n layer && layersBelow n rest

/-- Whether attributes are. -/
def attributesBelow (n : Nat) : List (String × Except HostError Value) → Bool
  | [] => true
  | (_, result) :: rest => resultBelow n result && attributesBelow n rest

/-- Whether a result is. -/
def resultBelow (n : Nat) : Except HostError Value → Bool
  | .ok v => isBelow n v
  | .error _ => true

/-- Whether a call is, and the list that it takes an item of. -/
def callBelow (n : Nat) : Option (Callable Value) → Bool
  | .none => true
  | some ⟨result, _, _, takes⟩ => resultBelow n result && takes.all (·.1 < n)

end

section Below

variable {ρ} {n : Nat}

mutual

/-- **A value below a number** stays as it is if only higher numbers are changed. -/
theorem renumber_of_isBelow (hρ : ρ.Fixes n) {v : Value} (h : v.isBelow n = true) :
    v.renumber ρ = v := by
  cases v with
  | none | bool _ | int _ | float _ | text _ _ => rfl
  | nan number => exact congrArg nan (hρ number (of_decide_eq_true h))
  | bytes number data => exact congrArg (bytes · data) (hρ number (of_decide_eq_true h))
  | range number start stop step =>
    exact congrArg (range · start stop step) (hρ number (of_decide_eq_true h))
  | list number items =>
    obtain ⟨hnumber, hitems⟩ := Bool.and_eq_true_iff.1 h
    exact congrArg₂ list (hρ number (of_decide_eq_true hnumber)) (renumberAll_of_allBelow hρ hitems)
  | tuple number items =>
    obtain ⟨hnumber, hitems⟩ := Bool.and_eq_true_iff.1 h
    exact congrArg₂ tuple (hρ number (of_decide_eq_true hnumber)) (renumberAll_of_allBelow hρ hitems)
  | stream number items ending =>
    obtain ⟨hnumber, hitems⟩ := Bool.and_eq_true_iff.1 h
    exact congrArg₂ (stream · · ending) (hρ number (of_decide_eq_true hnumber))
      (renumberAll_of_allBelow hρ hitems)
  | dict number entries =>
    obtain ⟨hnumber, hentries⟩ := Bool.and_eq_true_iff.1 h
    exact congrArg₂ dict (hρ number (of_decide_eq_true hnumber))
      (renumberEntries_of_entriesBelow hρ hentries)
  | view part entries => exact congrArg (view part) (renumberEntries_of_entriesBelow hρ h)
  | object identity attributes call =>
    obtain ⟨hparts, hcall⟩ := Bool.and_eq_true_iff.1 h
    obtain ⟨hnumber, hattributes⟩ := Bool.and_eq_true_iff.1 hparts
    rw [renumber, hρ _ (of_decide_eq_true hnumber),
      renumberAttributes_of_attributesBelow hρ hattributes, renumberCall_of_callBelow hρ hcall]
  | scope number layers =>
    obtain ⟨hnumber, hlayers⟩ := Bool.and_eq_true_iff.1 h
    exact congrArg₂ scope (hρ number (of_decide_eq_true hnumber))
      (renumberLayers_of_layersBelow hρ hlayers)

theorem renumberAll_of_allBelow (hρ : ρ.Fixes n) {items : List Value} (h : allBelow n items = true) :
    renumberAll ρ items = items := by
  cases items with
  | nil => rfl
  | cons v rest =>
    obtain ⟨hv, hrest⟩ := Bool.and_eq_true_iff.1 h
    exact congrArg₂ List.cons (renumber_of_isBelow hρ hv) (renumberAll_of_allBelow hρ hrest)

theorem renumberEntries_of_entriesBelow (hρ : ρ.Fixes n) {entries : List (Value × Value)}
    (h : entriesBelow n entries = true) : renumberEntries ρ entries = entries := by
  match entries, h with
  | [], _ => rfl
  | (k, v) :: rest, h =>
    obtain ⟨hentry, hrest⟩ := Bool.and_eq_true_iff.1 h
    obtain ⟨hk, hv⟩ := Bool.and_eq_true_iff.1 hentry
    rw [renumberEntries, renumber_of_isBelow hρ hk, renumber_of_isBelow hρ hv,
      renumberEntries_of_entriesBelow hρ hrest]

theorem renumberLayers_of_layersBelow (hρ : ρ.Fixes n) {layers : List (List (Value × Value))}
    (h : layersBelow n layers = true) : renumberLayers ρ layers = layers := by
  cases layers with
  | nil => rfl
  | cons layer rest =>
    obtain ⟨hlayer, hrest⟩ := Bool.and_eq_true_iff.1 h
    exact congrArg₂ List.cons (renumberEntries_of_entriesBelow hρ hlayer)
      (renumberLayers_of_layersBelow hρ hrest)

theorem renumberAttributes_of_attributesBelow (hρ : ρ.Fixes n)
    {attributes : List (String × Except HostError Value)} (h : attributesBelow n attributes = true) : renumberAttributes ρ attributes = attributes := by
  match attributes, h with
  | [], _ => rfl
  | (name, result) :: rest, h =>
    obtain ⟨hresult, hrest⟩ := Bool.and_eq_true_iff.1 h
    rw [renumberAttributes, renumberResult_of_resultBelow hρ hresult,
      renumberAttributes_of_attributesBelow hρ hrest]

theorem renumberResult_of_resultBelow (hρ : ρ.Fixes n) {result : Except HostError Value}
    (h : resultBelow n result = true) : renumberResult ρ result = result := by
  cases result with
  | ok v => exact congrArg Except.ok (renumber_of_isBelow hρ h)
  | error e => rfl

theorem renumberCall_of_callBelow (hρ : ρ.Fixes n) {call : Option (Callable Value)}
    (h : callBelow n call = true) : renumberCall ρ call = call := by
  match call, h with
  | .none, _ => rfl
  | some ⟨result, needsArgument, inspectable, takes⟩, h =>
    obtain ⟨hresult, htakes⟩ := Bool.and_eq_true_iff.1 h
    rw [renumberCall, renumberResult_of_resultBelow hρ hresult]
    cases takes with
    | none => rfl
    | some taken =>
      obtain ⟨number, left⟩ := taken
      rw [Option.map_some]
      dsimp only
      rw [hρ number (of_decide_eq_true htakes)]

end

end Below

end Value

end Galley
