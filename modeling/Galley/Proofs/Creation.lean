import Galley.Proofs.Sessions
import Mathlib

/-!
# New scopes

All values in the layer that a scope is created with get numbers. A key that is told by something is
told by the same afterwards, so the layer stays a dictionary, and a session that begins with such a scope
works with dictionaries only.

* `Value.keyForm?_numbered`: what a key is told by does not change when it is numbered.
* `Layer.IsDict.given`: the layer with numbers is a dictionary.
* `Session.isStack_of_create`: **whatever is done with a new scope,** its layers are dictionaries.
-/

namespace Galley

variable {layer : Layer} {v : Value}

/-! ## Keys that are numbered -/

namespace Value

theorem isSome_keyForms?_cons {rest : List Value} (h : (keyForms? (v :: rest)).isSome) :
    v.keyForm?.isSome ∧ (keyForms? rest).isSome := by
  obtain ⟨forms, hforms⟩ := Option.isSome_iff_exists.1 h
  obtain ⟨form, others, -, hform, hothers⟩ := keyForms?_cons_eq_some.1 hforms
  exact ⟨Option.isSome_iff_exists.2 ⟨form, hform⟩, Option.isSome_iff_exists.2 ⟨others, hothers⟩⟩

/-- What is told by something can be a key. -/
theorem isKey_of_keyForm? (h : v.keyForm?.isSome) : v.IsKey := by
  induction v using nested with
  | tuple number items ih =>
    rw [keyForm?, Option.isSome_map] at h
    unfold IsKey unhashable?
    induction items with
    | nil => rfl
    | cons w rest ihrest =>
      obtain ⟨hw, hrest⟩ := isSome_keyForms?_cons h
      obtain ⟨hkey, hkeys⟩ := List.forall_mem_cons.1 ih
      rw [anyUnhashable?, hkey hw]
      exact ihrest hkeys hrest
  | list | dict | view | scope => cases h
  | _ => rfl

/-- A floating point number with an exact value is a number. -/
theorem isNaN_of_keyForm? {x : Float} (h : (float x).keyForm?.isSome) : x.isNaN = false := by
  rw [keyForm?, Option.isSome_map, Number.quantity?, Binary.decode_eq_ofUnpacked] at h
  unfold Float.isNaN Float.Model.isNaN
  cases hx : x.toModel.unpack with
  | notANumber =>
    rw [hx] at h
    cases h
  | _ => rfl

theorem ne_zero_of_numberForm? {form : Nat → KeyForm} {number : Nat}
    (h : (numberForm? form number).isSome) : number ≠ 0 := by
  rintro rfl
  cases h

theorem keyForm?_numberPart (h : v.keyForm?.isSome) (n : Nat) :
    ((numberPart v).run n).1.keyForm? = v.keyForm? := by
  cases hnumber : v.withNumber? n with
  | none => rw [run_numberPart_of_none hnumber]
  | some w =>
    rw [run_numberPart_of_some hnumber]
    unfold withNumber? at hnumber
    -- what gets a number is told without it: bytes, tuples and ranges
    split at hnumber
    · exact absurd rfl (ne_zero_of_numberForm? h)
    · rw [isNaN_of_keyForm? h] at hnumber
      cases hnumber
    · cases hnumber
      rfl
    · cases h
    · cases hnumber
      rfl
    · cases h
    · cases hnumber
      rfl
    · exact absurd rfl (ne_zero_of_numberForm? h)
    · rw [if_neg (ne_zero_of_numberForm? h)] at hnumber
      cases hnumber
    · cases h
    · cases hnumber

theorem keyForms?_rebuildAll {items : List Value} (h : (keyForms? items).isSome)
    (hitems : ∀ v ∈ items, v.keyForm?.isSome →
      ∀ n, ((rebuild numberPart v).run n).1.keyForm? = v.keyForm?) (n : Nat) :
    keyForms? ((rebuildAll numberPart items).run n).1 = keyForms? items := by
  induction items generalizing n with
  | nil => rfl
  | cons v rest ih =>
    obtain ⟨hv, hrest⟩ := isSome_keyForms?_cons h
    obtain ⟨hfirst, hothers⟩ := List.forall_mem_cons.1 hitems
    rw [rebuildAll]
    simp only [run_bind_number, run_pure_number]
    rw [keyForms?, keyForms?, hfirst hv, ih hrest hothers]

theorem keyForm?_rebuild (h : v.keyForm?.isSome) (n : Nat) :
    ((rebuild numberPart v).run n).1.keyForm? = v.keyForm? := by
  induction v using nested generalizing n with
  | tuple number items ih =>
    rw [rebuild, run_bind_number]
    have hitems : (keyForms? items).isSome := by rwa [keyForm?, Option.isSome_map] at h
    have hforms := keyForms?_rebuildAll hitems ih n
    have htuple : (tuple number ((rebuildAll numberPart items).run n).1).keyForm? =
        (tuple number items).keyForm? := by
      rw [keyForm?, keyForm?, hforms]
    rw [keyForm?_numberPart (by rwa [htuple]), htuple]
  | stream number items ending =>
    rw [rebuild, run_bind_number]
    exact keyForm?_numberPart (v := stream number ((rebuildAll numberPart items).run n).1 ending) h _
  | object identity attributes call =>
    rw [rebuild, run_bind_number]
    exact keyForm?_numberPart
      (v := object identity ((rebuildAttributes numberPart attributes).run n).1 call) h _
  | list | dict | view | scope => cases h
  | _ => exact keyForm?_numberPart h n

/-- **What a key is told by** does not change when it is numbered. -/
theorem keyForm?_numbered (h : v.keyForm?.isSome) (n : Nat) :
    (v.numbered.run n).1.keyForm? = v.keyForm? := by
  unfold numbered
  split
  · exact keyForm?_rebuild h n
  · rfl

end Value

/-! ## Layers that are numbered -/

namespace Layer

theorem keyForms_numbered (h : ∀ entry ∈ layer, entry.1.keyForm?.isSome) (n : Nat) :
    (layer.numbered.run n).1.map (·.1.keyForm?) = layer.map (·.1.keyForm?) := by
  induction layer generalizing n with
  | nil => rfl
  | cons entry rest ih =>
    obtain ⟨hentry, hrest⟩ := List.forall_mem_cons.1 h
    rw [run_numbered_cons, List.map_cons, List.map_cons, Value.keyForm?_numbered hentry, ih hrest]

/-- Keys that are told by something are those of a dictionary if no two are told by the same. -/
theorem isDict_iff_nodup (h : ∀ entry ∈ layer, entry.1.keyForm?.isSome) :
    layer.IsDict ↔ (layer.map (·.1.keyForm?)).Nodup := by
  have hkeys : ∀ entry ∈ layer, entry.1.IsKey :=
    fun entry hentry => Value.isKey_of_keyForm? (h entry hentry)
  have hforms : layer.Pairwise (fun entry later => Value.alike entry.1 later.1 = false) ↔
      layer.Pairwise fun entry later => entry.1.keyForm? ≠ later.1.keyForm? := by
    refine List.Pairwise.iff_of_mem fun {entry later} hentry _ => ?_
    obtain ⟨form, hform⟩ := Option.isSome_iff_exists.1 (h entry hentry)
    rw [← Bool.not_eq_true, Value.alike_iff (hkeys entry hentry), hform]
    simp [eq_comm]
  rw [List.nodup_iff_pairwise_ne, List.pairwise_map, ← hforms]
  exact ⟨fun hdict => hdict.distinct, fun hdistinct => ⟨hkeys, hdistinct⟩⟩

/-- **The layer with numbers** is a dictionary if the layer is one and its keys are told by something. -/
theorem IsDict.given (h : layer.IsDict) (htold : ∀ entry ∈ layer, entry.1.keyForm?.isSome) :
    layer.given.IsDict := by
  have hforms := keyForms_numbered htold layer.freeNumber
  have htold' : ∀ entry ∈ layer.given, entry.1.keyForm?.isSome := by
    intro entry hentry
    have hmem := List.mem_map_of_mem (f := (·.1.keyForm?)) hentry
    unfold Layer.given at hmem
    rw [hforms] at hmem
    obtain ⟨before, hbefore, hform⟩ := List.mem_map.1 hmem
    rw [← hform]
    exact htold before hbefore
  rw [isDict_iff_nodup htold']
  unfold Layer.given
  rw [hforms]
  exact (isDict_iff_nodup htold).1 h

end Layer

/-- **Whatever is done with a new scope,** its layers are dictionaries. -/
theorem Session.isStack_of_create {layer : Option Layer} (autoescape : Bool) (request : Option Request)
    {operations : List Operation}
    (h : ∀ l ∈ layer, l.IsDict ∧ ∀ entry ∈ l, entry.1.keyForm?.isSome)
    (hops : ∀ operation ∈ operations, operation.BringsDicts) :
    (Session.performAll ⟨.create layer autoescape request, []⟩ operations).2.scope.IsStack := by
  refine isStack_performAll ?_ hops
  cases layer with
  | none => exact List.forall_mem_singleton.2 Layer.isDict_constants
  | some l =>
    obtain ⟨hdict, htold⟩ := h l rfl
    exact List.forall_mem_cons.2 ⟨hdict.given htold, List.forall_mem_singleton.2 Layer.isDict_constants⟩

end Galley
