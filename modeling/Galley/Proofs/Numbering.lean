import Galley.Scope

/-!
# Values that have their numbers

Numbering a value a second time changes nothing, and neither does leaving out the items that have
been taken if none have. So a layer that was given to a scope is the same when it is given again.

* `Value.Settled`: everything in a value that can have a number has one.
* `Value.settled_rebuild`, `Value.numbered_numbered`: numbering settles a value.
* `Layer.given_given`: a layer that was given before.
* `Layer.reduced_nil`: a layer from whose lists nothing was taken.
-/

namespace Galley

namespace Value

/-- A value is **settled** if numbering its parts changes nothing. -/
def Settled (v : Value) : Prop := ∀ m, (rebuild numberPart v).run m = (v, m)

/-- The same for the values of a list, of entries, of layers and of attributes. -/
def SettledAll (items : List Value) : Prop :=
  ∀ m, (rebuildAll numberPart items).run m = (items, m)

@[inherit_doc SettledAll]
def SettledEntries (entries : List (Value × Value)) : Prop :=
  ∀ m, (rebuildEntries numberPart entries).run m = (entries, m)

@[inherit_doc SettledAll]
def SettledLayers (layers : List (List (Value × Value))) : Prop :=
  ∀ m, (rebuildLayers numberPart layers).run m = (layers, m)

@[inherit_doc SettledAll]
def SettledAttributes (attributes : List (String × Except HostError Value)) : Prop :=
  ∀ m, (rebuildAttributes numberPart attributes).run m = (attributes, m)

/-- Computations with a number in a row. -/
theorem run_bind_number {α β : Type} (x : StateM Nat α) (f : α → StateM Nat β) (n : Nat) :
    (x >>= f).run n = (f (x.run n).1).run (x.run n).2 := rfl

theorem run_pure_number {α : Type} (a : α) (n : Nat) : (pure a : StateM Nat α).run n = (a, n) := rfl

theorem run_numberPart_of_none {v : Value} {m : Nat} (h : v.withNumber? m = .none) :
    (numberPart v).run m = (v, m) := by
  change numberPart v m = _
  unfold numberPart
  rw [h]

theorem run_numberPart_of_some {v w : Value} {m : Nat} (h : v.withNumber? m = some w) :
    (numberPart v).run m = (w, m + 1) := by
  change numberPart v m = _
  unfold numberPart
  rw [h]

/-- What can have no number is settled if its parts are. -/
theorem settled_numberPart_of_none {v : Value}
    (hparts : ∀ m, (rebuild numberPart v).run m = (numberPart v).run m)
    (h : ∀ m, v.withNumber? m = .none) (n : Nat) :
    Settled ((numberPart v).run n).1 ∧ n ≤ ((numberPart v).run n).2 := by
  rw [run_numberPart_of_none (h n)]
  refine ⟨fun m => ?_, Nat.le_refl n⟩
  rw [hparts, run_numberPart_of_none (h m)]

/-- What can have a number is settled with one if its parts are. -/
theorem settled_numberPart (build : Nat → Value)
    (hparts : ∀ k m, (rebuild numberPart (build k)).run m = (numberPart (build k)).run m)
    (hfirst : ∀ m, (build 0).withNumber? m = some (build m))
    (hlater : ∀ k m, (build (k + 1)).withNumber? m = .none) (number : Nat) {n : Nat} (hn : 0 < n) :
    Settled ((numberPart (build number)).run n).1 ∧ n ≤ ((numberPart (build number)).run n).2 := by
  cases number with
  | zero =>
    rw [run_numberPart_of_some (hfirst n)]
    refine ⟨fun m => ?_, Nat.le_succ n⟩
    -- zero stands for no number, and the one that it gets is not zero
    obtain ⟨k, rfl⟩ := Nat.exists_eq_add_one_of_ne_zero (Nat.ne_of_gt hn)
    rw [hparts, run_numberPart_of_none (hlater k m)]
  | succ k => exact settled_numberPart_of_none (hparts _) (hlater k) n

mutual

/-- **Numbering its parts settles a value,** and no number is given again. -/
theorem settled_rebuild (v : Value) {n : Nat} (hn : 0 < n) :
    Settled ((rebuild numberPart v).run n).1 ∧ n ≤ ((rebuild numberPart v).run n).2 := by
  -- parts get their numbers before the value that they are in
  cases v with
  | none => exact settled_numberPart_of_none (v := .none) (fun _ => rfl) (fun _ => rfl) n
  | bool b => exact settled_numberPart_of_none (v := bool b) (fun _ => rfl) (fun _ => rfl) n
  | int i => exact settled_numberPart_of_none (v := int i) (fun _ => rfl) (fun _ => rfl) n
  | text kind s => exact settled_numberPart_of_none (v := text kind s) (fun _ => rfl) (fun _ => rfl) n
  | float x =>
    cases hx : x.isNaN with
    | false =>
      refine settled_numberPart_of_none (v := float x) (fun _ => rfl) (fun m => ?_) n
      exact if_neg (Bool.eq_false_iff.1 hx)
    | true =>
      -- it becomes a value that is not a number and has one
      have hnumber : (numberPart (float x)).run n = (nan n, n + 1) :=
        run_numberPart_of_some (if_pos hx)
      have hnan := settled_numberPart nan (fun _ _ => rfl) (fun _ => rfl) (fun _ _ => rfl) 0 hn
      change Settled ((numberPart (float x)).run n).1 ∧ n ≤ ((numberPart (float x)).run n).2
      rw [hnumber]
      exact hnan
  | nan number => exact settled_numberPart nan (fun _ _ => rfl) (fun _ => rfl) (fun _ _ => rfl) number hn
  | bytes number data =>
    exact settled_numberPart (bytes · data) (fun _ _ => rfl) (fun _ => rfl) (fun _ _ => rfl) number hn
  | range number start stop step =>
    exact settled_numberPart (range · start stop step) (fun _ _ => rfl) (fun _ => rfl)
      (fun _ _ => rfl) number hn
  | list number items =>
    obtain ⟨hitems, hle⟩ := settledAll_rebuild items hn
    have h := settled_numberPart (list · ((rebuildAll numberPart items).run n).1)
      (fun k m => by rw [rebuild, run_bind_number, hitems m]) (fun _ => rfl) (fun _ _ => rfl) number
      (Nat.lt_of_lt_of_le hn hle)
    exact ⟨h.1, Nat.le_trans hle h.2⟩
  | tuple number items =>
    obtain ⟨hitems, hle⟩ := settledAll_rebuild items hn
    have h := settled_numberPart (tuple · ((rebuildAll numberPart items).run n).1)
      (fun k m => by rw [rebuild, run_bind_number, hitems m]) (fun _ => rfl) (fun _ _ => rfl) number
      (Nat.lt_of_lt_of_le hn hle)
    exact ⟨h.1, Nat.le_trans hle h.2⟩
  | stream number items ending =>
    obtain ⟨hitems, hle⟩ := settledAll_rebuild items hn
    have h := settled_numberPart (stream · ((rebuildAll numberPart items).run n).1 ending)
      (fun k m => by rw [rebuild, run_bind_number, hitems m]) (fun _ => rfl) (fun _ _ => rfl) number
      (Nat.lt_of_lt_of_le hn hle)
    exact ⟨h.1, Nat.le_trans hle h.2⟩
  | dict number entries =>
    obtain ⟨hentries, hle⟩ := settledEntries_rebuild entries hn
    have h := settled_numberPart (dict · ((rebuildEntries numberPart entries).run n).1)
      (fun k m => by rw [rebuild, run_bind_number, hentries m]) (fun _ => rfl) (fun _ _ => rfl)
      number (Nat.lt_of_lt_of_le hn hle)
    exact ⟨h.1, Nat.le_trans hle h.2⟩
  | view part entries =>
    obtain ⟨hentries, hle⟩ := settledEntries_rebuild entries hn
    have h := settled_numberPart_of_none
      (v := view part ((rebuildEntries numberPart entries).run n).1)
      (fun m => by rw [rebuild, run_bind_number, hentries m]) (fun _ => rfl)
      ((rebuildEntries numberPart entries).run n).2
    exact ⟨h.1, Nat.le_trans hle h.2⟩
  | object identity attributes call =>
    obtain ⟨hattributes, hle⟩ := settledAttributes_rebuild attributes hn
    have h := settled_numberPart (fun k => object { identity with number := k }
        ((rebuildAttributes numberPart attributes).run n).1 call)
      (fun k m => by rw [rebuild, run_bind_number, hattributes m]) (fun _ => rfl) (fun _ _ => rfl)
      identity.number (Nat.lt_of_lt_of_le hn hle)
    exact ⟨h.1, Nat.le_trans hle h.2⟩
  | scope number layers =>
    obtain ⟨hlayers, hle⟩ := settledLayers_rebuild layers hn
    have h := settled_numberPart (scope · ((rebuildLayers numberPart layers).run n).1)
      (fun k m => by rw [rebuild, run_bind_number, hlayers m]) (fun _ => rfl) (fun _ _ => rfl) number
      (Nat.lt_of_lt_of_le hn hle)
    exact ⟨h.1, Nat.le_trans hle h.2⟩

theorem settledAll_rebuild (items : List Value) {n : Nat} (hn : 0 < n) :
    SettledAll ((rebuildAll numberPart items).run n).1 ∧
      n ≤ ((rebuildAll numberPart items).run n).2 := by
  cases items with
  | nil => exact ⟨fun _ => rfl, Nat.le_refl n⟩
  | cons v rest =>
    obtain ⟨hv, hle⟩ := settled_rebuild v hn
    obtain ⟨hrest, hle'⟩ := settledAll_rebuild rest (Nat.lt_of_lt_of_le hn hle)
    refine ⟨fun m => ?_, Nat.le_trans hle hle'⟩
    simp only [rebuildAll, run_bind_number, run_pure_number, hv m, hrest m]

theorem settledEntries_rebuild (entries : List (Value × Value)) {n : Nat} (hn : 0 < n) :
    SettledEntries ((rebuildEntries numberPart entries).run n).1 ∧
      n ≤ ((rebuildEntries numberPart entries).run n).2 := by
  cases entries with
  | nil => exact ⟨fun _ => rfl, Nat.le_refl n⟩
  | cons entry rest =>
    obtain ⟨k, v⟩ := entry
    -- the key first, then the value, then the other entries
    obtain ⟨hk, hle⟩ := settled_rebuild k hn
    obtain ⟨hv, hle'⟩ := settled_rebuild v (Nat.lt_of_lt_of_le hn hle)
    have hle'' := Nat.le_trans hle hle'
    obtain ⟨hrest, hlast⟩ := settledEntries_rebuild rest (Nat.lt_of_lt_of_le hn hle'')
    refine ⟨fun m => ?_, Nat.le_trans hle'' hlast⟩
    simp only [rebuildEntries, run_bind_number, run_pure_number, hk m, hv m, hrest m]

theorem settledLayers_rebuild (layers : List (List (Value × Value))) {n : Nat} (hn : 0 < n) :
    SettledLayers ((rebuildLayers numberPart layers).run n).1 ∧
      n ≤ ((rebuildLayers numberPart layers).run n).2 := by
  cases layers with
  | nil => exact ⟨fun _ => rfl, Nat.le_refl n⟩
  | cons layer rest =>
    obtain ⟨hlayer, hle⟩ := settledEntries_rebuild layer hn
    obtain ⟨hrest, hle'⟩ := settledLayers_rebuild rest (Nat.lt_of_lt_of_le hn hle)
    refine ⟨fun m => ?_, Nat.le_trans hle hle'⟩
    simp only [rebuildLayers, run_bind_number, run_pure_number, hlayer m, hrest m]

theorem settledAttributes_rebuild (attributes : List (String × Except HostError Value)) {n : Nat}
    (hn : 0 < n) :
    SettledAttributes ((rebuildAttributes numberPart attributes).run n).1 ∧
      n ≤ ((rebuildAttributes numberPart attributes).run n).2 := by
  match attributes with
  | [] => exact ⟨fun _ => rfl, Nat.le_refl n⟩
  | (name, .ok v) :: rest =>
    obtain ⟨hv, hle⟩ := settled_rebuild v hn
    obtain ⟨hrest, hle'⟩ := settledAttributes_rebuild rest (Nat.lt_of_lt_of_le hn hle)
    refine ⟨fun m => ?_, Nat.le_trans hle hle'⟩
    simp only [rebuildAttributes, run_bind_number, run_pure_number, hv m, hrest m]
  | (name, .error e) :: rest =>
    obtain ⟨hrest, hle⟩ := settledAttributes_rebuild rest hn
    refine ⟨fun m => ?_, hle⟩
    simp only [rebuildAttributes, run_bind_number, run_pure_number, hrest m]

end

/-- **A value that was numbered** is the same when it is numbered again. -/
theorem numbered_numbered (v : Value) {n : Nat} (hn : 0 < n) :
    (∀ m, ((v.numbered.run n).1).numbered.run m = ((v.numbered.run n).1, m)) ∧
      n ≤ (v.numbered.run n).2 := by
  unfold numbered
  split
  · obtain ⟨hsettled, hle⟩ := settled_rebuild v hn
    refine ⟨fun m => ?_, hle⟩
    split
    · exact hsettled m
    · rfl
  · next hv => exact ⟨fun m => by rw [run_pure_number, if_neg hv, run_pure_number], Nat.le_refl n⟩

mutual

/-- A value of which no part is changed. -/
theorem rebuild_self (v : Value) : rebuild (m := Id) (fun part => part) v = v := by
  cases v with
  | none | bool _ | int _ | float _ | nan _ | text _ _ | bytes _ _ | range _ _ _ _ => rfl
  | list number items => exact congrArg (list number) (rebuildAll_self items)
  | tuple number items => exact congrArg (tuple number) (rebuildAll_self items)
  | stream number items ending => exact congrArg (stream number · ending) (rebuildAll_self items)
  | dict number entries => exact congrArg (dict number) (rebuildEntries_self entries)
  | view part entries => exact congrArg (view part) (rebuildEntries_self entries)
  | object identity attributes call =>
    exact congrArg (object identity · call) (rebuildAttributes_self attributes)
  | scope number layers => exact congrArg (scope number) (rebuildLayers_self layers)

theorem rebuildAll_self (items : List Value) :
    rebuildAll (m := Id) (fun part => part) items = items := by
  cases items with
  | nil => rfl
  | cons v rest =>
    change rebuild (m := Id) _ v :: rebuildAll (m := Id) _ rest = _
    rw [rebuild_self v, rebuildAll_self rest]

theorem rebuildEntries_self (entries : List (Value × Value)) :
    rebuildEntries (m := Id) (fun part => part) entries = entries := by
  cases entries with
  | nil => rfl
  | cons entry rest =>
    obtain ⟨k, v⟩ := entry
    change (rebuild (m := Id) _ k, rebuild (m := Id) _ v) :: rebuildEntries (m := Id) _ rest = _
    rw [rebuild_self k, rebuild_self v, rebuildEntries_self rest]

theorem rebuildLayers_self (layers : List (List (Value × Value))) :
    rebuildLayers (m := Id) (fun part => part) layers = layers := by
  cases layers with
  | nil => rfl
  | cons layer rest =>
    change rebuildEntries (m := Id) _ layer :: rebuildLayers (m := Id) _ rest = _
    rw [rebuildEntries_self layer, rebuildLayers_self rest]

theorem rebuildAttributes_self (attributes : List (String × Except HostError Value)) :
    rebuildAttributes (m := Id) (fun part => part) attributes = attributes := by
  match attributes with
  | [] => rfl
  | (name, .ok v) :: rest =>
    change (name, .ok (rebuild (m := Id) _ v)) :: rebuildAttributes (m := Id) _ rest = _
    rw [rebuild_self v, rebuildAttributes_self rest]
  | (name, .error e) :: rest =>
    exact congrArg (List.cons (name, .error e)) (rebuildAttributes_self rest)

end

/-- If nothing was taken, nothing is left out. -/
theorem reduced_nil (v : Value) : v.reduced [] = v := by
  have hpart : (fun part => reducePart [] part : Value → Id Value) = fun part => part := by
    funext part
    cases part <;> rfl
  rw [reduced, hpart, rebuild_self]

end Value

namespace Layer

theorem freeNumber_pos (layer : Layer) : 0 < layer.freeNumber := by
  have hfold (entries : Layer) (n : Nat) (hn : 0 < n) :
      0 < entries.foldl (fun n entry => max n (max entry.1.highest entry.2.highest + 1)) n := by
    induction entries generalizing n with
    | nil => exact hn
    | cons entry rest ih => exact ih _ (Nat.lt_of_lt_of_le hn (Nat.le_max_left _ _))
  exact hfold layer Value.firstNumber (by decide)

/-- A layer that was numbered is the same when it is numbered again. -/
theorem numbered_numbered (layer : Layer) {n : Nat} (hn : 0 < n) (m : Nat) :
    (layer.numbered.run n).1.numbered.run m = ((layer.numbered.run n).1, m) := by
  -- each entry takes up where the one before has stopped, and so `n` varies
  induction layer generalizing n m with
  | nil => rfl
  | cons entry rest ih =>
    obtain ⟨hkey, hle⟩ := entry.1.numbered_numbered hn
    obtain ⟨hvalue, hle'⟩ := entry.2.numbered_numbered (Nat.lt_of_lt_of_le hn hle)
    have hrest := ih (Nat.lt_of_lt_of_le hn (Nat.le_trans hle hle'))
    unfold numbered at hrest ⊢
    simp only [List.mapM_cons, Value.run_bind_number, Value.run_pure_number, hkey, hvalue, hrest]

/-- **A layer that was given to a scope** is the same when it is given again. -/
theorem given_given (layer : Layer) : layer.given.given = layer.given := by
  unfold given
  rw [numbered_numbered layer layer.freeNumber_pos]

/-- If nothing was taken, nothing is left out. -/
theorem reduced_nil (layer : Layer) : layer.reduced [] = layer := by
  have hentry : (fun entry : Value × Value => (entry.1, entry.2.reduced [])) = id := by
    funext entry
    rw [Value.reduced_nil, id]
  unfold reduced
  rw [hentry, List.map_id]

end Layer

end Galley
