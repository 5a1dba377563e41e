import Galley.Proofs.Numbering
import Galley.Proofs.Comparison
import Mathlib

/-!
# The numbers that a value is given

How many numbers a value is given does not depend on the first of them, and a value that is numbered
from another number on becomes the same value with other numbers.

* `Value.Follows`: a computation that hands out the numbers of another one under other numbers.
* `Value.places`, `Value.follows_numbered`: how many numbers a value is given, and which.
* `Value.run_numbered_renumber`: **a renumbered value** is numbered like the value itself.
* `Value.reduced_renumber`: a renumbered value without the items that have been taken.
-/

namespace Galley

namespace Value

variable {ρ : Renumbering} {α β γ δ : Type}

/-! ## Handing out numbers -/

/-- A computation **follows** another one that hands out `k` numbers, if it comes to the
same under other numbers whenever these are the other numbers of those. -/
def Follows (ρ : Renumbering) (k : Nat) (g : α → β) (x : StateM Nat α) (y : StateM Nat β) : Prop :=
  ∀ n, (x.run n).2 = n + k ∧
    ∀ n', (∀ i < k, ρ (n + i) = n' + i) → y.run n' = (g (x.run n).1, n' + k)

theorem follows_pure (g : α → β) (a : α) : Follows ρ 0 g (pure a) (pure (g a)) :=
  fun _ => ⟨rfl, fun _ _ => rfl⟩

theorem Follows.bind {g : α → β} {h : γ → δ} {k l : Nat} {x : StateM Nat α} {y : StateM Nat β}
    {f : α → StateM Nat γ} {f' : β → StateM Nat δ} (hx : Follows ρ k g x y)
    (hf : ∀ a, Follows ρ l h (f a) (f' (g a))) : Follows ρ (k + l) h (x >>= f) (y >>= f') := by
  intro n
  obtain ⟨hnext, hy⟩ := hx n
  obtain ⟨hlast, hz⟩ := hf (x.run n).1 (n + k)
  rw [run_bind_number, hnext]
  refine ⟨by rw [hlast, Nat.add_assoc], fun n' hρ => ?_⟩
  rw [run_bind_number, hy n' fun i hi => hρ i (Nat.lt_add_right l hi)]
  rw [hz (n' + k), Nat.add_assoc]
  intro i hi
  rw [Nat.add_assoc, hρ (k + i) (Nat.add_lt_add_left hi k), Nat.add_assoc]

theorem follows_numberPart_of_none (v : Value) (h : ∀ m, v.withNumber? m = .none)
    (h' : ∀ m, (v.renumber ρ).withNumber? m = .none) :
    Follows ρ 0 (renumber ρ) (numberPart v) (numberPart (v.renumber ρ)) := by
  intro n
  rw [run_numberPart_of_none (h n)]
  exact ⟨rfl, fun n' _ => by rw [run_numberPart_of_none (h' n'), Nat.add_zero]⟩

/-- Values that differ in a number that they can be given. -/
structure Numberable (build : Nat → Value) : Prop where
  first : ∀ m, (build 0).withNumber? m = some (build m)
  later : ∀ k m, (build (k + 1)).withNumber? m = .none

theorem Numberable.withNumber?_of_ne {build : Nat → Value} (h : Numberable build) {k : Nat}
    (hk : k ≠ 0) (m : Nat) : (build k).withNumber? m = .none := by
  obtain ⟨k, rfl⟩ := Nat.exists_eq_add_one_of_ne_zero hk
  exact h.later k m

/-- What can have a number is given one if it has none. -/
theorem follows_numberPart (build build' : Nat → Value) (hb : Numberable build)
    (hb' : Numberable build') (hρ : ∀ k, (build k).renumber ρ = build' (ρ k)) (number : Nat) :
    Follows ρ (if number = 0 then 1 else 0) (renumber ρ) (numberPart (build number))
      (numberPart (build' (ρ number))) := by
  by_cases h : number = 0
  · subst h
    intro n
    rw [run_numberPart_of_some (hb.first n), if_pos rfl, ρ.apply_zero]
    refine ⟨rfl, fun n' hn => ?_⟩
    have hn' : ρ n = n' := hn 0 Nat.one_pos
    rw [run_numberPart_of_some (hb'.first n'), hρ, hn']
  · rw [if_neg h, ← hρ]
    refine follows_numberPart_of_none _ (hb.withNumber?_of_ne h) fun m => ?_
    rw [hρ]
    exact hb'.withNumber?_of_ne (mt ρ.apply_eq_zero.1 h) m

theorem numberable_nan : Numberable nan := ⟨fun _ => rfl, fun _ _ => rfl⟩

theorem numberable_bytes (data : List UInt8) : Numberable (bytes · data) :=
  ⟨fun _ => rfl, fun _ _ => rfl⟩

theorem numberable_range (start stop step : Int) : Numberable (range · start stop step) :=
  ⟨fun _ => rfl, fun _ _ => rfl⟩

theorem numberable_list (items : List Value) : Numberable (list · items) :=
  ⟨fun _ => rfl, fun _ _ => rfl⟩

theorem numberable_tuple (items : List Value) : Numberable (tuple · items) :=
  ⟨fun _ => rfl, fun _ _ => rfl⟩

theorem numberable_dict (entries : List (Value × Value)) : Numberable (dict · entries) :=
  ⟨fun _ => rfl, fun _ _ => rfl⟩

theorem numberable_stream (items : List Value) (ending : Option HostError) :
    Numberable (stream · items ending) := ⟨fun _ => rfl, fun _ _ => rfl⟩

theorem numberable_object (identity : Identity) (attributes : List (String × Except HostError Value))
    (call : Option (Callable Value)) :
    Numberable fun n => object { identity with number := n } attributes call :=
  ⟨fun _ => rfl, fun _ _ => rfl⟩

theorem numberable_scope (layers : List (List (Value × Value))) : Numberable (scope · layers) :=
  ⟨fun _ => rfl, fun _ _ => rfl⟩

/-- The parts of a value are given as many numbers as those of the renumbered value. -/
def Settles (ρ : Renumbering) (v : Value) : Prop :=
  ∃ k, Follows ρ k (renumber ρ) (rebuild numberPart v) (rebuild numberPart (v.renumber ρ))

theorem follows_rebuildAll {items : List Value} (h : ∀ v ∈ items, Settles ρ v) :
    ∃ k, Follows ρ k (List.map (renumber ρ)) (rebuildAll numberPart items)
      (rebuildAll numberPart (items.map (renumber ρ))) := by
  induction items with
  | nil => exact ⟨0, follows_pure _ []⟩
  | cons v rest ih =>
    obtain ⟨⟨k, hv⟩, hrest⟩ := List.forall_mem_cons.1 h
    obtain ⟨l, hrest⟩ := ih hrest
    exact ⟨k + (l + 0), hv.bind fun a => hrest.bind fun as => follows_pure _ (a :: as)⟩

theorem follows_rebuildEntries {entries : List (Value × Value)}
    (h : ∀ e ∈ entries, Settles ρ e.1 ∧ Settles ρ e.2) :
    ∃ k, Follows ρ k (List.map (Prod.map (renumber ρ) (renumber ρ)))
      (rebuildEntries numberPart entries)
      (rebuildEntries numberPart (entries.map (Prod.map (renumber ρ) (renumber ρ)))) := by
  induction entries with
  | nil => exact ⟨0, follows_pure _ []⟩
  | cons e rest ih =>
    obtain ⟨⟨⟨k, hk⟩, ⟨l, hl⟩⟩, hrest⟩ := List.forall_mem_cons.1 h
    obtain ⟨m, hrest⟩ := ih hrest
    exact ⟨k + (l + (m + 0)), hk.bind fun a => hl.bind fun b => hrest.bind fun as =>
      follows_pure _ ((a, b) :: as)⟩

theorem follows_rebuildLayers {layers : List (List (Value × Value))}
    (h : ∀ layer ∈ layers, ∀ e ∈ layer, Settles ρ e.1 ∧ Settles ρ e.2) :
    ∃ k, Follows ρ k (List.map (List.map (Prod.map (renumber ρ) (renumber ρ))))
      (rebuildLayers numberPart layers)
      (rebuildLayers numberPart
        (layers.map (List.map (Prod.map (renumber ρ) (renumber ρ))))) := by
  induction layers with
  | nil => exact ⟨0, follows_pure _ []⟩
  | cons layer rest ih =>
    obtain ⟨hlayer, hrest⟩ := List.forall_mem_cons.1 h
    obtain ⟨k, hlayer⟩ := follows_rebuildEntries hlayer
    obtain ⟨l, hrest⟩ := ih hrest
    exact ⟨k + (l + 0), hlayer.bind fun a => hrest.bind fun as => follows_pure _ (a :: as)⟩

theorem follows_rebuildAttributes {attributes : List (String × Except HostError Value)}
    (h : ∀ a ∈ attributes, ∀ v, a.2 = .ok v → Settles ρ v) :
    ∃ k, Follows ρ k (List.map (Prod.map id (Except.map (renumber ρ))))
      (rebuildAttributes numberPart attributes)
      (rebuildAttributes numberPart
        (attributes.map (Prod.map id (Except.map (renumber ρ))))) := by
  induction attributes with
  | nil => exact ⟨0, follows_pure _ []⟩
  | cons a rest ih =>
    obtain ⟨ha, hrest⟩ := List.forall_mem_cons.1 h
    obtain ⟨l, hrest⟩ := ih hrest
    obtain ⟨name, result⟩ := a
    cases result with
    | error e =>
      exact ⟨l + 0, hrest.bind fun as => follows_pure _ ((name, .error e) :: as)⟩
    | ok v =>
      obtain ⟨k, hv⟩ := ha v rfl
      exact ⟨k + (l + 0), hv.bind fun b => hrest.bind fun as =>
        follows_pure _ ((name, .ok b) :: as)⟩

/-- **Numbering the parts** of a renumbered value. -/
theorem settles (ρ : Renumbering) (v : Value) : Settles ρ v := by
  induction v using nested with
  | none => exact ⟨0, follows_numberPart_of_none .none (fun _ => rfl) fun _ => rfl⟩
  | bool b => exact ⟨0, follows_numberPart_of_none (.bool b) (fun _ => rfl) fun _ => rfl⟩
  | int n => exact ⟨0, follows_numberPart_of_none (.int n) (fun _ => rfl) fun _ => rfl⟩
  | text kind s => exact ⟨0, follows_numberPart_of_none (.text kind s) (fun _ => rfl) fun _ => rfl⟩
  | float x =>
    by_cases hx : x.isNaN = true
    · refine ⟨1, fun n => ?_⟩
      have hgiven (m : Nat) : (numberPart (float x)).run m = (nan m, m + 1) :=
        run_numberPart_of_some (if_pos hx)
      simp only [rebuild, renumber, hgiven]
      refine ⟨trivial, fun n' hn => ?_⟩
      rw [show ρ n = n' from hn 0 Nat.one_pos]
    · exact ⟨0, follows_numberPart_of_none (.float x) (fun _ => if_neg hx) fun _ => if_neg hx⟩
  | nan number =>
    exact ⟨_, follows_numberPart nan nan numberable_nan numberable_nan (fun _ => rfl) number⟩
  | bytes number data =>
    exact ⟨_, follows_numberPart (bytes · data) (bytes · data) (numberable_bytes data)
      (numberable_bytes data) (fun _ => rfl) number⟩
  | range number start stop step =>
    have hrange := numberable_range start stop step
    exact ⟨_, follows_numberPart (range · start stop step) (range · start stop step) hrange hrange
      (fun _ => rfl) number⟩
  | list number items ih =>
    obtain ⟨k, hitems⟩ := follows_rebuildAll ih
    simp only [Settles, rebuild, renumber, renumberAll_eq]
    exact ⟨_, hitems.bind fun as => follows_numberPart (list · as) (list · (as.map (renumber ρ)))
      (numberable_list as) (numberable_list _) (by simp [renumber]) number⟩
  | tuple number items ih =>
    obtain ⟨k, hitems⟩ := follows_rebuildAll ih
    simp only [Settles, rebuild, renumber, renumberAll_eq]
    exact ⟨_, hitems.bind fun as => follows_numberPart (tuple · as) (tuple · (as.map (renumber ρ)))
      (numberable_tuple as) (numberable_tuple _) (by simp [renumber]) number⟩
  | stream number items ending ih =>
    obtain ⟨k, hitems⟩ := follows_rebuildAll ih
    simp only [Settles, rebuild, renumber, renumberAll_eq]
    exact ⟨_, hitems.bind fun as => follows_numberPart (stream · as ending)
      (stream · (as.map (renumber ρ)) ending) (numberable_stream as ending)
      (numberable_stream _ ending) (by simp [renumber]) number⟩
  | dict number entries ih =>
    obtain ⟨k, hentries⟩ := follows_rebuildEntries ih
    simp only [Settles, rebuild, renumber, renumberEntries_eq]
    exact ⟨_, hentries.bind fun as => follows_numberPart (dict · as)
      (dict · (as.map (Prod.map (renumber ρ) (renumber ρ)))) (numberable_dict as)
      (numberable_dict _) (by simp [renumber]) number⟩
  | view part entries ih =>
    obtain ⟨k, hentries⟩ := follows_rebuildEntries ih
    simp only [Settles, rebuild, renumber, renumberEntries_eq]
    refine ⟨k + 0, hentries.bind fun as => ?_⟩
    have hview := follows_numberPart_of_none (ρ := ρ) (view part as) (fun _ => rfl) fun _ => rfl
    rwa [renumber, renumberEntries_eq] at hview
  | object identity attributes call ih =>
    obtain ⟨k, hattributes⟩ := follows_rebuildAttributes ih
    simp only [Settles, rebuild, renumber, renumberAttributes_eq]
    exact ⟨_, hattributes.bind fun as => follows_numberPart _ _ (numberable_object identity as call)
      (numberable_object identity _ _) (by simp [renumber]) identity.number⟩
  | scope number layers ih =>
    obtain ⟨k, hlayers⟩ := follows_rebuildLayers ih
    simp only [Settles, rebuild, renumber, renumberLayers_eq]
    exact ⟨_, hlayers.bind fun as => follows_numberPart (scope · as)
      (scope · (as.map (List.map (Prod.map (renumber ρ) (renumber ρ))))) (numberable_scope as)
      (numberable_scope _) (by simp [renumber]) number⟩

/-- How many numbers a value is given. -/
def places (v : Value) : Nat := (v.numbered.run 0).2

/-- **A renumbered value is numbered** like the value itself, under other numbers. -/
theorem follows_numbered (ρ : Renumbering) (v : Value) :
    Follows ρ v.places (renumber ρ) v.numbered (v.renumber ρ).numbered := by
  have hsome : ∃ k, Follows ρ k (renumber ρ) v.numbered (v.renumber ρ).numbered := by
    simp only [numbered, number_renumber, Renumbering.apply_eq_zero]
    split
    · exact settles ρ v
    · exact ⟨0, follows_pure _ v⟩
  obtain ⟨k, h⟩ := hsome
  have hk : v.places = k := ((h 0).1).trans (Nat.zero_add k)
  exact hk ▸ h

theorem run_numbered_snd (v : Value) (n : Nat) : (v.numbered.run n).2 = n + v.places :=
  (follows_numbered default v n).1

theorem run_numbered_renumber {v : Value} {n n' : Nat}
    (hρ : ∀ i < v.places, ρ (n + i) = n' + i) :
    (v.renumber ρ).numbered.run n' = ((v.numbered.run n).1.renumber ρ, n' + v.places) :=
  (follows_numbered ρ v n).2 n' hρ

/-! ## Values as they are by now -/

theorem lookup_remains (ρ : Renumbering) (remains : Remains) (number : Nat) :
    (remains.map (Prod.map ρ id)).lookup (ρ number) = remains.lookup number := by
  induction remains with
  | nil => rfl
  | cons entry rest ih =>
    obtain ⟨key, left⟩ := entry
    simp only [List.map_cons, Prod.map, List.lookup_cons, ρ.apply_beq_apply, ih, id]

theorem reducePart_renumber (ρ : Renumbering) (remains : Remains) (v : Value) :
    reducePart (remains.map (Prod.map ρ id)) (v.renumber ρ) =
      (reducePart remains v).renumber ρ := by
  cases v with
  | list number items =>
    simp only [renumber, reducePart, lookup_remains]
    cases remains.lookup number <;> simp [renumber]
  | _ => rfl

section Rebuild

variable {f f' : Value → Id Value}

/-- The change of a value's parts that is made to a renumbered value. -/
def Fits (ρ : Renumbering) (f f' : Value → Id Value) (v : Value) : Prop :=
  rebuild f' (v.renumber ρ) = (rebuild f v).renumber ρ

theorem rebuildAll_map {items : List Value} (h : ∀ v ∈ items, Fits ρ f f' v) :
    rebuildAll f' (items.map (renumber ρ)) = (rebuildAll f items).map (renumber ρ) := by
  induction items with
  | nil => rfl
  | cons v rest ih =>
    obtain ⟨hv, hrest⟩ := List.forall_mem_cons.1 h
    exact congrArg₂ List.cons hv (ih hrest)

theorem rebuildEntries_map {entries : List (Value × Value)}
    (h : ∀ e ∈ entries, Fits ρ f f' e.1 ∧ Fits ρ f f' e.2) :
    rebuildEntries f' (entries.map (Prod.map (renumber ρ) (renumber ρ))) =
      (rebuildEntries f entries).map (Prod.map (renumber ρ) (renumber ρ)) := by
  induction entries with
  | nil => rfl
  | cons e rest ih =>
    obtain ⟨⟨hk, hv⟩, hrest⟩ := List.forall_mem_cons.1 h
    exact congrArg₂ List.cons (congrArg₂ Prod.mk hk hv) (ih hrest)

theorem rebuildLayers_map {layers : List (List (Value × Value))}
    (h : ∀ layer ∈ layers, ∀ e ∈ layer, Fits ρ f f' e.1 ∧ Fits ρ f f' e.2) :
    rebuildLayers f' (layers.map (List.map (Prod.map (renumber ρ) (renumber ρ)))) =
      (rebuildLayers f layers).map (List.map (Prod.map (renumber ρ) (renumber ρ))) := by
  induction layers with
  | nil => rfl
  | cons layer rest ih =>
    obtain ⟨hlayer, hrest⟩ := List.forall_mem_cons.1 h
    exact congrArg₂ List.cons (rebuildEntries_map hlayer) (ih hrest)

theorem rebuildAttributes_map {attributes : List (String × Except HostError Value)}
    (h : ∀ a ∈ attributes, ∀ v, a.2 = .ok v → Fits ρ f f' v) :
    rebuildAttributes f' (attributes.map (Prod.map id (Except.map (renumber ρ)))) =
      (rebuildAttributes f attributes).map (Prod.map id (Except.map (renumber ρ))) := by
  induction attributes with
  | nil => rfl
  | cons a rest ih =>
    obtain ⟨ha, hrest⟩ := List.forall_mem_cons.1 h
    obtain ⟨name, result⟩ := a
    cases result with
    | error e => exact congrArg (List.cons (name, .error e)) (ih hrest)
    | ok v => exact congrArg₂ List.cons (congrArg (fun w => (name, Except.ok w)) (ha v rfl)) (ih hrest)

/-- A change that suits the numbers of each part suits those of the value. -/
theorem rebuild_renumber (hf : ∀ v, f' (v.renumber ρ) = (f v).renumber ρ) (v : Value) :
    Fits ρ f f' v := by
  induction v using nested with
  | none => exact hf .none
  | bool b => exact hf (.bool b)
  | int n => exact hf (.int n)
  | float x => exact hf (.float x)
  | nan number => exact hf (.nan number)
  | text kind s => exact hf (.text kind s)
  | bytes number data => exact hf (.bytes number data)
  | range number start stop step => exact hf (.range number start stop step)
  | list number items ih =>
    refine Eq.trans ?_ (hf (list number (rebuildAll f items)))
    rw [renumber, renumber, renumberAll_eq, renumberAll_eq, ← rebuildAll_map ih]
    rfl
  | tuple number items ih =>
    refine Eq.trans ?_ (hf (tuple number (rebuildAll f items)))
    rw [renumber, renumber, renumberAll_eq, renumberAll_eq, ← rebuildAll_map ih]
    rfl
  | stream number items ending ih =>
    refine Eq.trans ?_ (hf (stream number (rebuildAll f items) ending))
    rw [renumber, renumber, renumberAll_eq, renumberAll_eq, ← rebuildAll_map ih]
    rfl
  | dict number entries ih =>
    refine Eq.trans ?_ (hf (dict number (rebuildEntries f entries)))
    rw [renumber, renumber, renumberEntries_eq, renumberEntries_eq, ← rebuildEntries_map ih]
    rfl
  | view part entries ih =>
    refine Eq.trans ?_ (hf (view part (rebuildEntries f entries)))
    rw [renumber, renumber, renumberEntries_eq, renumberEntries_eq, ← rebuildEntries_map ih]
    rfl
  | object identity attributes call ih =>
    refine Eq.trans ?_ (hf (object identity (rebuildAttributes f attributes) call))
    rw [renumber, renumber, renumberAttributes_eq, renumberAttributes_eq,
      ← rebuildAttributes_map ih]
    rfl
  | scope number layers ih =>
    refine Eq.trans ?_ (hf (scope number (rebuildLayers f layers)))
    rw [renumber, renumber, renumberLayers_eq, renumberLayers_eq, ← rebuildLayers_map ih]
    rfl

end Rebuild

/-- **A renumbered value without the items that have been taken.** -/
theorem reduced_renumber (ρ : Renumbering) (remains : Remains) (v : Value) :
    (v.renumber ρ).reduced (remains.map (Prod.map ρ id)) = (v.reduced remains).renumber ρ :=
  rebuild_renumber (reducePart_renumber ρ remains) v

end Value

end Galley
