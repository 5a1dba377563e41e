import Galley.Proofs.Renumbering
import Galley.Value.Iterate
import Mathlib

/-!
# Comparing values with other numbers

Comparisons read the numbers of two values only to tell if they have one number, and a renumbering
does not change that.

* `Value.eq_renumber`, `Value.same_renumber`: equality and identity.
* `Value.ordered?_renumber`, `Value.holds?_renumber`: order and membership.
* `Value.lookupKey?_renumber`: what stands under a key.
-/

namespace Galley.Value

variable (ρ : Renumbering)

@[simp] theorem number?_renumber (v : Value) : (v.renumber ρ).number? = v.number? := by
  cases v <;> rfl

@[simp] theorem number_renumber (v : Value) : (v.renumber ρ).number = ρ v.number := by
  cases v <;> simp [renumber, number]

@[simp] theorem sameNan_renumber (a b : Value) :
    sameNan (a.renumber ρ) (b.renumber ρ) = sameNan a b := by
  cases a <;> cases b <;> simp [renumber, sameNan]

@[simp] theorem sameNumber_renumber (a b : Value) :
    sameNumber (a.renumber ρ) (b.renumber ρ) = sameNumber a b := by
  simp [sameNumber]

/-- What is found first in a list of lists whose members are changed. -/
theorem findSome?_find?_map {α β : Type} (f : α → β) (q : β → Bool) (layers : List (List α)) :
    (layers.map (List.map f)).findSome? (fun layer => layer.find? q) =
      (layers.findSome? fun layer => layer.find? fun a => q (f a)).map f := by
  rw [List.findSome?_map, List.map_findSome?]
  simp only [Function.comp_def, List.find?_map]

/-! ## Equality -/

/-- A value compares **evenly** if it is equal to the same values whatever their numbers are. -/
def Even (ρ : Renumbering) (a : Value) : Prop := ∀ b, eq (a.renumber ρ) (b.renumber ρ) = eq a b

variable {ρ}

theorem eqAll_map {as : List Value} (h : ∀ a ∈ as, Even ρ a) (bs : List Value) :
    eqAll (as.map (renumber ρ)) (bs.map (renumber ρ)) = eqAll as bs := by
  induction as generalizing bs with
  | nil => cases bs <;> rfl
  | cons a rest ih =>
    obtain ⟨ha, hrest⟩ := List.forall_mem_cons.1 h
    cases bs with
    | nil => rfl
    | cons b bs => simp only [List.map_cons, eqAll, sameNan_renumber, ha b, ih hrest bs]

theorem subsetEntries_map {entries : List (Value × Value)}
    (h : ∀ e ∈ entries, Even ρ e.1 ∧ Even ρ e.2) (others : List (Value × Value)) :
    subsetEntries (entries.map (Prod.map (renumber ρ) (renumber ρ)))
      (others.map (Prod.map (renumber ρ) (renumber ρ))) = subsetEntries entries others := by
  induction entries with
  | nil => rfl
  | cons e rest ih =>
    obtain ⟨⟨hk, hv⟩, hrest⟩ := List.forall_mem_cons.1 h
    simp only [List.map_cons, subsetEntries, Prod.map, List.any_map, Function.comp_def,
      sameNan_renumber, hk _, hv _, ih hrest]

/-! ## Views

Views are told apart item by item, where a key stands beside an item only if it is a pair. -/

theorem alike_pair (m n : Nat) (k v l w : Value) :
    alike (tuple m [k, v]) (tuple n [l, w]) = (alike k l && alike v w) := by
  simp [alike, sameNan, eq, eqAll]

/-- A view of values shows nothing that is shown by another view. -/
theorem subsetViews_of_values {part other : DictPart} (h : part = .values ∨ other = .values)
    (entries others : List (Value × Value)) : subsetViews part other entries others = false := by
  induction entries with
  | nil => rcases h with rfl | rfl <;> simp [subsetViews]
  | cons e rest ih => rw [subsetViews, ih, Bool.and_false]

/-- **A part of a view** is a part of another one if each of its items is like one of those. -/
theorem subsetViews_cons {part other : DictPart} (h : part ≠ .values) (h' : other ≠ .values)
    (e : Value × Value) (rest others : List (Value × Value)) :
    subsetViews part other (e :: rest) others =
      (others.any (fun o => alike (viewItem part e) (viewItem other o)) &&
        subsetViews part other rest others) := by
  obtain ⟨k, v⟩ := e
  rw [subsetViews]
  congr 2
  funext ⟨l, w⟩
  match part, other with
  | .values, _ => exact absurd rfl h
  | _, .values => exact absurd rfl h'
  | .keys, .keys => rfl
  | .items, .items => exact (alike_pair 0 0 k v l w).symm
  | .keys, .items =>
    cases k with
    | tuple number items =>
      match items with
      | [a, b] => exact (alike_pair number 0 a b l w).symm
      | [] | [_] | _ :: _ :: _ :: _ => simp [viewItem, alike, sameNan, eq, eqAll]
    | _ => rfl
  | .items, .keys =>
    cases l with
    | tuple number items =>
      match items with
      | [a, b] => exact (alike_pair 0 number k v a b).symm
      | [] | [_] | _ :: _ :: _ :: _ => simp [viewItem, alike, sameNan, eq, eqAll]
    | _ => rfl

theorem viewItem_map (part : DictPart) (e : Value × Value) :
    viewItem part (Prod.map (renumber ρ) (renumber ρ) e) = (viewItem part e).renumber ρ := by
  cases part <;> simp [viewItem, renumber]

theorem even_viewItem {e : Value × Value} (h : Even ρ e.1 ∧ Even ρ e.2) (part : DictPart) :
    Even ρ (viewItem part e) := by
  cases part with
  | keys => exact h.1
  | values => exact h.2
  | items =>
    intro b
    cases b with
    | tuple number items =>
      simp only [viewItem, renumber, renumberAll_eq, eq]
      exact eqAll_map (List.forall_mem_cons.2 ⟨h.1, List.forall_mem_singleton.2 h.2⟩) items
    | _ => rfl

theorem subsetViews_map {part other : DictPart} {entries : List (Value × Value)}
    (h : ∀ e ∈ entries, Even ρ e.1 ∧ Even ρ e.2) (others : List (Value × Value)) :
    subsetViews part other (entries.map (Prod.map (renumber ρ) (renumber ρ)))
      (others.map (Prod.map (renumber ρ) (renumber ρ))) = subsetViews part other entries others := by
  by_cases hvalues : part = .values ∨ other = .values
  · rw [subsetViews_of_values hvalues, subsetViews_of_values hvalues]
  obtain ⟨hpart, hother⟩ := not_or.1 hvalues
  induction entries with
  | nil => simp only [List.map_nil, subsetViews]
  | cons e rest ih =>
    obtain ⟨he, hrest⟩ := List.forall_mem_cons.1 h
    simp only [List.map_cons, subsetViews_cons hpart hother, viewItem_map, List.any_map,
      Function.comp_def, alike, sameNan_renumber, even_viewItem he part _, ih hrest]

theorem hasKey_map {layer : List (Value × Value)} (h : ∀ e ∈ layer, Even ρ e.1) (key : Value) :
    hasKey (layer.map (Prod.map (renumber ρ) (renumber ρ))) (key.renumber ρ) = hasKey layer key := by
  induction layer with
  | nil => rfl
  | cons e rest ih =>
    obtain ⟨he, hrest⟩ := List.forall_mem_cons.1 h
    obtain ⟨k, v⟩ := e
    simp only [List.map_cons, Prod.map, hasKey, sameNan_renumber, he key, ih hrest]

theorem anyHasKey_map {layers : List (List (Value × Value))}
    (h : ∀ layer ∈ layers, ∀ e ∈ layer, Even ρ e.1) (key : Value) :
    anyHasKey (layers.map (List.map (Prod.map (renumber ρ) (renumber ρ)))) (key.renumber ρ) =
      anyHasKey layers key := by
  induction layers with
  | nil => rfl
  | cons layer rest ih =>
    obtain ⟨hlayer, hrest⟩ := List.forall_mem_cons.1 h
    simp only [List.map_cons, anyHasKey, hasKey_map hlayer, ih hrest]

theorem layerShownIn_map {layer : List (Value × Value)}
    (h : ∀ e ∈ layer, Even ρ e.1 ∧ Even ρ e.2) (higher others : List (List (Value × Value))) :
    layerShownIn (layer.map (Prod.map (renumber ρ) (renumber ρ)))
      (higher.map (List.map (Prod.map (renumber ρ) (renumber ρ))))
      (others.map (List.map (Prod.map (renumber ρ) (renumber ρ)))) =
      layerShownIn layer higher others := by
  induction layer with
  | nil => rfl
  | cons e rest ih =>
    obtain ⟨⟨hk, hv⟩, hrest⟩ := List.forall_mem_cons.1 h
    obtain ⟨k, v⟩ := e
    simp only [List.map_cons, Prod.map_apply, layerShownIn, ih hrest, List.any_map,
      Function.comp_def, sameNan_renumber, hk _, ← List.map_reverse, findSome?_find?_map,
      Prod.map_fst]
    -- the value that is visible among the others, if there is one
    cases others.reverse.findSome? fun layer => layer.find? fun o => sameNan k o.1 || eq k o.1 with
    | none => rfl
    | some visible => simp only [Option.map_some, Prod.map, sameNan_renumber, hv visible.2]

theorem shownIn_map {layers : List (List (Value × Value))}
    (h : ∀ layer ∈ layers, ∀ e ∈ layer, Even ρ e.1 ∧ Even ρ e.2)
    (others : List (List (Value × Value))) :
    shownIn (layers.map (List.map (Prod.map (renumber ρ) (renumber ρ))))
      (others.map (List.map (Prod.map (renumber ρ) (renumber ρ)))) = shownIn layers others := by
  induction layers with
  | nil => rfl
  | cons layer rest ih =>
    obtain ⟨hlayer, hrest⟩ := List.forall_mem_cons.1 h
    simp only [List.map_cons, shownIn, layerShownIn_map hlayer, ih hrest]

variable (ρ)

/-- **Equality** does not depend on numbers. -/
@[simp] theorem eq_renumber (a b : Value) : eq (a.renumber ρ) (b.renumber ρ) = eq a b := by
  -- only the first value is taken apart, as equality goes through its parts
  suffices h : Even ρ a from h b
  clear b
  induction a using nested with
  | none => intro b; cases b <;> rfl
  | bool _ | int _ | float _ => intro b; cases b <;> simp [renumber, eq, number?]
  | nan _ => intro b; cases b <;> rfl
  | text _ _ | bytes _ _ => intro b; cases b <;> rfl
  | range _ _ _ _ => intro b; cases b <;> rfl
  | list number items ih | tuple number items ih =>
    intro b
    cases b with
    | list _ others | tuple _ others => simp [renumber, eq, eqAll_map ih]
    | _ => rfl
  | dict number entries ih =>
    intro b
    cases b with
    | dict _ others => simp [renumber, eq, subsetEntries_map ih]
    | _ => rfl
  | view part entries ih =>
    intro b
    cases b with
    | view other others => simp [renumber, eq, subsetViews_map ih]
    | _ => rfl
  | stream number items ending ih => intro b; cases b <;> simp [renumber, eq]
  | object identity attributes call ih => intro b; cases b <;> simp [renumber, eq]
  | scope number layers ih =>
    intro b
    cases b with
    | scope _ others =>
      have hkeys := fun layer hlayer e he => (ih layer hlayer e he).1
      simp [renumber, eq, shownIn_map ih, Function.comp_def, anyHasKey_map hkeys]
    | _ => rfl

@[simp] theorem alike_renumber (a b : Value) : alike (a.renumber ρ) (b.renumber ρ) = alike a b := by
  simp [alike]

/-- **Identity** depends on numbers only as far as they are the same. -/
@[simp] theorem same_renumber (a b : Value) : same (a.renumber ρ) (b.renumber ρ) = same a b := by
  have hnumber := sameNumber_renumber ρ a b
  cases a with
  | tuple _ items =>
    cases b with
    | tuple _ others => cases items <;> cases others <;> first | rfl | exact hnumber
    | _ => cases items <;> exact hnumber
  | none | bool _ | int _ | float _ | text _ _ => cases b <;> rfl
  | bytes _ _ => cases b <;> first | exact hnumber | simp [renumber, same]
  | _ => cases b <;> exact hnumber

/-! ## Order -/

theorem viewOrdered_map (operator : Operator) (part other : DictPart)
    (as bs : List (Value × Value)) :
    viewOrdered operator part other (as.map (Prod.map (renumber ρ) (renumber ρ)))
      (bs.map (Prod.map (renumber ρ) (renumber ρ))) = viewOrdered operator part other as bs := by
  have heven (entries : List (Value × Value)) : ∀ e ∈ entries, Even ρ e.1 ∧ Even ρ e.2 :=
    fun e _ => ⟨eq_renumber ρ e.1, eq_renumber ρ e.2⟩
  cases operator <;> simp [viewOrdered, subsetViews_map (heven _)]

theorem orderedAll?_map {operator : Operator} {as : List Value}
    (h : ∀ a ∈ as, ∀ b : Value, ordered? operator (a.renumber ρ) (b.renumber ρ) = ordered? operator a b)
    (bs : List Value) :
    orderedAll? operator (as.map (renumber ρ)) (bs.map (renumber ρ)) =
      orderedAll? operator as bs := by
  induction as generalizing bs with
  | nil => cases bs <;> simp [orderedAll?]
  | cons a rest ih =>
    obtain ⟨ha, hrest⟩ := List.forall_mem_cons.1 h
    cases bs with
    | nil => simp [orderedAll?]
    | cons b bs => simp only [List.map_cons, orderedAll?, alike_renumber, ha b, ih hrest bs]

/-- **Order** does not depend on numbers. -/
@[simp] theorem ordered?_renumber (operator : Operator) (a b : Value) :
    ordered? operator (a.renumber ρ) (b.renumber ρ) = ordered? operator a b := by
  induction a using nested generalizing b with
  | list number items ih | tuple number items ih =>
    cases b with
    | list _ others | tuple _ others => simp [renumber, ordered?, orderedAll?_map ρ ih, number?]
    | _ => simp [renumber, ordered?, number?]
  | view part entries ih =>
    cases b with
    | view other others => simp [renumber, ordered?, viewOrdered_map]
    | _ => simp [renumber, ordered?, number?]
  | _ => cases b <;> simp [renumber, ordered?, number?]

/-! ## Keys and members -/

theorem anyUnhashable?_map {items : List Value}
    (h : ∀ v ∈ items, unhashable? (v.renumber ρ) = unhashable? v) :
    anyUnhashable? (items.map (renumber ρ)) = anyUnhashable? items := by
  induction items with
  | nil => rfl
  | cons v rest ih =>
    obtain ⟨hv, hrest⟩ := List.forall_mem_cons.1 h
    rw [List.map_cons, anyUnhashable?, anyUnhashable?, hv, ih hrest]

@[simp] theorem unhashable?_renumber (v : Value) : (v.renumber ρ).unhashable? = v.unhashable? := by
  induction v using nested with
  | tuple number items ih => simp only [renumber, unhashable?, renumberAll_eq, anyUnhashable?_map ρ ih]
  | view part entries => cases part <;> rfl
  | _ => rfl

@[simp] theorem checkKey_renumber (v : Value) : checkKey (v.renumber ρ) = checkKey v := by
  rw [checkKey, checkKey, unhashable?_renumber]

/-- **What stands under a key** is the renumbered value. -/
theorem lookupKey?_renumber (entries : List (Value × Value)) (key : Value) :
    lookupKey? (entries.map (Prod.map (renumber ρ) (renumber ρ))) (key.renumber ρ) =
      (lookupKey? entries key).map (renumber ρ) := by
  simp only [lookupKey?, List.find?_map, Function.comp_def, Prod.map_fst, alike_renumber,
    Option.map_map]
  rfl

/-- **Membership** does not depend on numbers. -/
@[simp] theorem holds?_renumber (container v : Value) :
    (container.renumber ρ).holds? (v.renumber ρ) = container.holds? v := by
  cases container with
  | text _ _ | bytes _ _ => cases v <;> rfl
  | view part entries =>
    cases part with
    | keys | values => simp [renumber, holds?, Function.comp_def]
    | items =>
      -- only a pair can be an item
      cases v with
      | tuple _ items =>
        match items with
        | [k, w] => simp [renumber, holds?, Function.comp_def]
        | [] | [_] | _ :: _ :: _ :: _ => rfl
      | _ => rfl
  | list _ _ | tuple _ _ | dict _ _ | stream _ _ _ | scope _ _ | range _ _ _ _ =>
    simp [renumber, holds?, Function.comp_def]
  | _ => rfl

end Galley.Value
