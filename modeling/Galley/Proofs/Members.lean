import Galley.Proofs.Comparison
import Galley.Value.Iterate
import Galley.Value.Member
import Mathlib

/-!
# Members of values with other numbers

What is looked up in a renumbered value is what is looked up in the value itself, with other
numbers; so is what a call makes and what a walk comes by. Nothing that is found out on the way
depends on the numbers.

* `Value.Lookup.renumber`, `Walk.renumber`: lookups and walks with other numbers.
* `Value.member_renumber`: the member with a name.
* `Value.called_renumber`, `Value.takes?_renumber`: what a call makes and takes.
* `Value.walk?_renumber`: the walk through a value.
-/

namespace Galley

/-- A walk through items with other numbers. -/
def Walk.renumber (ρ : Renumbering) (w : Walk) : Walk :=
  { w with items := w.items.map (Value.renumber ρ) }

namespace Value

/-- A lookup that finds a value with other numbers. -/
def Lookup.renumber (ρ : Renumbering) : Lookup → Lookup
  | .absent => .absent
  | .found v => .found (v.renumber ρ)
  | .failed e => .failed e

variable (ρ : Renumbering)

/-! ## Members -/

/-- What is looked up among entries whose values are changed. -/
theorem lookup_map_snd {α β : Type} (f : α → β) (entries : List (String × α)) (name : String) :
    (entries.map (Prod.map id f)).lookup name = (entries.lookup name).map f := by
  induction entries with
  | nil => rfl
  | cons entry rest ih =>
    obtain ⟨key, a⟩ := entry
    rw [List.map_cons, Prod.map, List.lookup_cons, List.lookup_cons, ih, id]
    cases name == key <;> rfl

theorem method_renumber (result : Except HostError Value) :
    (method result).renumber ρ = method (result.map (renumber ρ)) := by
  simp [method, renumber, renumberCall, methodIdentity]

theorem methodWithArguments_renumber :
    methodWithArguments.renumber ρ = methodWithArguments := by
  simp [methodWithArguments, renumber, renumberCall, methodIdentity, Except.map]

/-- A value that is found for sure. -/
theorem map_ok_map (v : Option Value) :
    (v.map Except.ok).map (Except.map (renumber ρ)) =
      (v.map (renumber ρ)).map (Except.ok : Value → Except HostError Value) := by
  cases v <;> rfl

theorem textAttribute?_renumber (s name : String) :
    (textAttribute? s name).map (renumber ρ) = textAttribute? s name := by
  unfold textAttribute?
  split <;> simp [method_renumber, methodWithArguments_renumber, renumber, str, Except.map,
    Function.comp_def]

theorem dictAttribute?_renumber (entries : List (Value × Value)) (name : String) :
    dictAttribute? (entries.map (Prod.map (renumber ρ) (renumber ρ))) name =
      (dictAttribute? entries name).map (renumber ρ) := by
  unfold dictAttribute?
  split <;> simp [method_renumber, methodWithArguments_renumber, renumber, Except.map]

theorem takeLast_renumber (number : Nat) (items : List Value) :
    takeLast (ρ number) (items.map (renumber ρ)) = (takeLast number items).renumber ρ := by
  unfold takeLast
  rw [List.getLast?_map]
  cases items.getLast? with
  | none => simp [method_renumber, Except.map]
  | some last =>
    by_cases h : number = 0 <;> simp [renumber, renumberCall, methodIdentity, Except.map, h]

theorem listAttribute?_renumber (number : Nat) (items : List Value) (name : String) :
    listAttribute? (ρ number) (items.map (renumber ρ)) name =
      (listAttribute? number items name).map (renumber ρ) := by
  unfold listAttribute?
  split <;> simp [method_renumber, methodWithArguments_renumber, takeLast_renumber, renumber, Except.map]

theorem floatAttribute?_renumber (v : Value) (name : String) :
    floatAttribute? (v.renumber ρ) name = (floatAttribute? v name).map (renumber ρ) := by
  unfold floatAttribute?
  split
  · rfl
  · cases v <;> simp_all [renumber, method_renumber, Except.map]
  · cases v <;> simp_all [renumber, method_renumber, Except.map]
  · split <;> simp_all

theorem bytesAttribute?_renumber (data : List UInt8) (name : String) :
    (bytesAttribute? data name).map (renumber ρ) = bytesAttribute? data name := by
  unfold bytesAttribute?
  split
  · cases Text.decodeUtf8 data <;> simp [method_renumber, renumber, str, Except.map]
  · rfl

/-- **An attribute** of a renumbered value. -/
theorem attribute?_renumber (v : Value) (name : String) :
    (v.renumber ρ).attribute? name = (v.attribute? name).map (Except.map (renumber ρ)) := by
  cases v with
  | bool _ | int _ | range _ _ _ _ =>
    simp only [renumber, attribute?]
    split <;> rfl
  | float _ | nan _ =>
    simp only [renumber, attribute?, map_ok_map, ← floatAttribute?_renumber]
  | text _ s => simp only [renumber, attribute?, map_ok_map, textAttribute?_renumber]
  | bytes _ data => simp only [renumber, attribute?, map_ok_map, bytesAttribute?_renumber]
  | list number items =>
    simp only [renumber, attribute?, map_ok_map, renumberAll_eq, listAttribute?_renumber]
  | dict number entries =>
    simp only [renumber, attribute?, map_ok_map, renumberEntries_eq, dictAttribute?_renumber]
  | object _ attributes _ =>
    simp only [renumber, attribute?, renumberAttributes_eq, lookup_map_snd]
  | _ => rfl

theorem lookupLayers?_renumber (layers : List (List (Value × Value))) (key : Value) :
    lookupLayers? (layers.map (List.map (Prod.map (renumber ρ) (renumber ρ)))) (key.renumber ρ) =
      (lookupLayers? layers key).map (renumber ρ) := by
  unfold lookupLayers?
  rw [← List.map_reverse, List.findSome?_map, List.map_findSome?]
  simp only [Function.comp_def, lookupKey?_renumber]

theorem keyed?_renumber (v : Value) (key : String) :
    (v.renumber ρ).keyed? key = (v.keyed? key).map (renumber ρ) := by
  cases v with
  | dict _ entries =>
    simp only [renumber, keyed?, renumberEntries_eq]
    exact lookupKey?_renumber ρ entries (str key)
  | scope _ layers =>
    simp only [renumber, keyed?, renumberLayers_eq]
    exact lookupLayers?_renumber ρ layers (str key)
  | _ => rfl

theorem indexed?_renumber (v : Value) (n : Int) :
    (v.renumber ρ).indexed? n = (v.indexed? n).map (renumber ρ) := by
  cases v with
  | dict _ entries =>
    simp only [renumber, indexed?, renumberEntries_eq]
    exact lookupKey?_renumber ρ entries (int n)
  | scope _ layers =>
    simp only [renumber, indexed?, renumberLayers_eq]
    exact lookupLayers?_renumber ρ layers (int n)
  | list _ items | tuple _ items =>
    simp only [renumber, indexed?, renumberAll_eq, List.getElem?_map]
    split <;> rfl
  | text _ s =>
    simp only [renumber, indexed?]
    split
    · rfl
    · cases s.toList[n.toNat]? <;> rfl
  | bytes _ data =>
    simp only [renumber, indexed?]
    split
    · rfl
    · cases data[n.toNat]? <;> rfl
  | range _ start stop step =>
    simp only [renumber, indexed?]
    split <;> [rfl; (split <;> rfl)]
  | _ => simp [renumber, indexed?]

/-- **The member with a name** of a renumbered value. -/
theorem member_renumber (v : Value) (name : String) :
    (v.renumber ρ).member name = (v.member name).renumber ρ := by
  unfold member
  rw [keyed?_renumber, attribute?_renumber]
  cases v.keyed? name with
  | some w => rfl
  | none =>
    cases v.attribute? name with
    | some result => cases result <;> rfl
    | none =>
      cases Integer.read? name.toList with
      | none => rfl
      | some n =>
        simp only [Option.map_none, Option.bind_some, indexed?_renumber]
        cases v.indexed? n <;> rfl

/-! ## Calls -/

theorem takes?_renumber (v : Value) :
    (v.renumber ρ).takes? = v.takes?.map fun (number, left) => (ρ number, left) := by
  cases v with
  | object _ _ call => cases call <;> rfl
  | _ => rfl

theorem flagged_map (attributes : List (String × Except HostError Value)) (name : String) :
    flagged (attributes.map (Prod.map id (Except.map (renumber ρ)))) name =
      flagged attributes name := by
  unfold flagged
  rw [lookup_map_snd]
  cases attributes.lookup name with
  | none => rfl
  | some result =>
    cases result with
    | error e => rfl
    | ok v => exact truth_renumber ρ v

/-- **The value of a renumbered value** in a template. -/
theorem called_renumber (v : Value) :
    (v.renumber ρ).called = v.called.map (Option.map (renumber ρ)) := by
  cases v with
  | object identity attributes call =>
    cases call with
    | none => rfl
    | some call =>
      obtain ⟨result, needsArgument, inspectable, takes⟩ := call
      simp only [renumber, renumberCall, called, renumberAttributes_eq, flagged_map,
        renumberResult_eq]
      -- the marks of the object come first, then what its call makes
      cases flagged attributes "do_not_call_in_templates" with
      | error e => rfl
      | ok kept =>
        cases kept with
        | true => simp [Except.map, bind, Except.bind, pure, Except.pure, renumber, renumberCall]
        | false =>
          cases flagged attributes "alters_data" with
          | error e => rfl
          | ok alters =>
            cases result with
            | ok w => cases alters <;> cases needsArgument <;> rfl
            | error e =>
              simp only [bind, Except.bind, Bool.false_eq_true, if_false, Except.map]
              split
              · rfl
              · split
                · rfl
                · split <;> rfl
  | _ => rfl

/-! ## Walks -/

/-- **The walk** through a renumbered value. -/
theorem walk?_renumber (v : Value) : (v.renumber ρ).walk? = v.walk?.map (Walk.renumber ρ) := by
  cases v with
  | text _ _ | bytes _ _ => simp [renumber, walk?, Walk.renumber, str, Function.comp_def]
  | list _ _ | tuple _ _ => simp [renumber, walk?, Walk.renumber]
  | dict _ _ => simp [renumber, walk?, Walk.renumber, Function.comp_def]
  | view _ _ => simp [renumber, walk?, Walk.renumber, Function.comp_def, viewItem_map]
  | stream _ _ _ => simp [renumber, walk?, Walk.renumber]
  | scope _ _ => simp [renumber, walk?, Walk.renumber, Function.comp_def]
  | range _ start stop step =>
    simp only [renumber, walk?, Option.map_some, Walk.renumber, walkRange]
    split
    · rfl
    · split <;> simp [renumber]
  | _ => rfl

end Value

end Galley
