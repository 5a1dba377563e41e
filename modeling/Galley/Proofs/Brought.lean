import Galley.Proofs.Sessions
import Mathlib

/-!
# What is brought in

A scope that is pushed onto another one is to bring in its variables, and dictionaries that are pushed
together are to bring in theirs. What is pushed is made into one layer, though, and only of one
dictionary at most. Updating takes the highest layer of the other scope only.

* `Session.Brings`: an operation that adds one layer, which brings in the variables of some layers.
* `Session.brings_push_iff`, `Session.brings_update_iff`: when pushing and updating do so.
* `Session.brings_iff`: **all variables of a scope are brought in** by pushing it if it has one layer
  at most, and by updating with it if what is hidden in it can be seen already.
-/

namespace Galley.Session

variable {s : Session} {layers : List Layer}

/-- What is found under a key in some layers, the highest first. -/
def visibleIn (layers : List Layer) (key : Value) : Option Value := layers.findSome? (·.get? key)

/-- An operation **brings in** the variables of some layers, the highest first, if it adds one layer to
the scope, so that what is found in these layers is found in the scope, and else what was found before. -/
def Brings (s : Session) (operation : Operation) (layers : List Layer) : Prop :=
  ∃ t layer, s.perform operation = (.ok .nothing, t) ∧ t.scope.layers = layer :: s.scope.layers ∧
    ∀ key, t.scope.get? key = (visibleIn layers key).or (s.scope.get? key)

theorem get?_push (s : Scope) (layer : Layer) (key : Value) :
    (s.push layer).get? key = (layer.get? key).or (s.get? key) := by
  unfold Scope.get?
  rw [Scope.layers_push, List.findSome?_cons]
  cases layer.get? key <;> rfl

/-- **Pushing** brings in the variables of one dictionary at most, and else fails. -/
theorem perform_push_of_many {values : List Value} {dicts : List (Nat × Layer)}
    (h : values.flatMap Scope.layerValues = dicts.map fun d => .dict d.1 d.2)
    (hmany : 1 < dicts.length) :
    s.perform (.push values []) =
      (.error (.typeError
        ("dict expected at most 1 argument, got " ++ toString dicts.length)), s) := by
  rw [perform, Scope.pushValues_eq, h]
  rcases dicts with _ | ⟨d, _ | ⟨e, rest⟩⟩
  · cases hmany
  · exact absurd hmany (Nat.lt_irrefl 1)
  · simp [change]

theorem brings_push_iff {values : List Value} {dicts : List (Nat × Layer)}
    (h : values.flatMap Scope.layerValues = dicts.map fun d => .dict d.1 d.2) :
    s.Brings (.push values []) (dicts.reverse.map (·.2)) ↔ dicts.length ≤ 1 := by
  constructor
  · rintro ⟨t, layer, hperform, -, -⟩
    by_contra hmany
    rw [perform_push_of_many h (by omega)] at hperform
    cases hperform
  · intro hlength
    rcases dicts with _ | ⟨d, _ | ⟨e, rest⟩⟩
    · refine ⟨⟨s.scope.push [], .layer :: s.entered⟩, [], ?_, rfl, fun key => get?_push s.scope [] key⟩
      rw [perform, Scope.pushValues_eq, h]
      rfl
    · refine ⟨⟨s.scope.push d.2, .layer :: s.entered⟩, d.2, ?_, rfl, fun key => ?_⟩
      · rw [perform, Scope.pushValues_eq, h]
        rfl
      · rw [get?_push]
        simp [visibleIn]
    · simp at hlength

/-! ## Other scopes -/

theorem flatMap_layerValues_scope (number : Nat) (o : Scope) :
    [Value.scope number o.layers.reverse].flatMap Scope.layerValues =
      (o.upper.reverse.map fun layer => (0, layer)).map fun d => .dict d.1 d.2 := by
  simp [Scope.layerValues, Scope.layers]

theorem updateLayer_scope (number : Nat) (o : Scope) :
    Scope.updateLayer (.scope number o.layers.reverse) =
      match o.upper with
      | [] => .error (.indexError "pop from empty list")
      | top :: _ => .ok top := by
  have hlast : o.layers.reverse.tail.getLast? = o.upper.head? := by
    simp [Scope.layers]
  rw [Scope.updateLayer, hlast]
  cases o.upper <;> rfl

theorem perform_update_of_empty (number : Nat) {o : Scope} (h : o.upper = []) :
    s.perform (.update (.scope number o.layers.reverse)) =
      (.error (.indexError "pop from empty list"), s) := by
  rw [perform, updateLayer_scope, h]
  rfl

theorem perform_update_of_cons (number : Nat) {o : Scope} {top : Layer} {lower : List Layer}
    (h : o.upper = top :: lower) :
    s.perform (.update (.scope number o.layers.reverse)) =
      (.ok .nothing, { s with scope := s.scope.push top }) := by
  rw [perform, updateLayer_scope, h]
  rfl

/-- **Updating** brings in the variables of another scope if it has a layer and those that this layer
does not have, but a lower one, are found already as they are there. -/
theorem brings_update_iff (number : Nat) (o : Scope) :
    s.Brings (.update (.scope number o.layers.reverse)) o.upper ↔
      ∃ top lower, o.upper = top :: lower ∧
        ∀ key v, top.get? key = none → visibleIn lower key = some v → s.scope.get? key = some v := by
  cases hupper : o.upper with
  | nil =>
    refine iff_of_false ?_ ?_
    · rintro ⟨t, layer, hperform, -, -⟩
      rw [perform_update_of_empty number hupper] at hperform
      cases hperform
    · rintro ⟨top, lower, hcons, -⟩
      cases hcons
  | cons top lower =>
    have hfind (key : Value) : visibleIn (top :: lower) key = (top.get? key).or (visibleIn lower key) := by
      unfold visibleIn
      rw [List.findSome?_cons]
      cases top.get? key <;> rfl
    constructor
    · rintro ⟨t, layer, hperform, -, hfound⟩
      rw [perform_update_of_cons number hupper] at hperform
      cases hperform
      refine ⟨top, lower, rfl, fun key v htop hlower => ?_⟩
      have hkey := hfound key
      rw [get?_push, hfind, htop, hlower] at hkey
      exact hkey
    · rintro ⟨_, _, heq, hseen⟩
      obtain ⟨rfl, rfl⟩ := List.cons.inj heq
      -- only a key of a lower layer that the top one does not have could be read otherwise
      refine ⟨_, top, perform_update_of_cons number hupper, rfl, fun key => ?_⟩
      rw [get?_push, hfind]
      cases htop : top.get? key with
      | some v => rfl
      | none =>
        cases hlower : visibleIn lower key with
        | none => rfl
        | some v => exact hseen key v htop hlower

/-- **All variables of a scope are brought in** by pushing it if it has one layer at most above its
constants, and by updating with it if it has one and what is found in lower ones only can be seen
already. Those of dictionaries that are pushed together are if there is one dictionary at most. Pushing
more, and updating with none, fails and changes nothing. -/
theorem brings_iff (s : Session) :
    (∀ (number : Nat) (o : Scope),
      (s.Brings (.push [.scope number o.layers.reverse] []) o.upper ↔ o.upper.length ≤ 1) ∧
      (1 < o.upper.length → s.perform (.push [.scope number o.layers.reverse] []) =
        (.error (.typeError
          ("dict expected at most 1 argument, got " ++ toString o.upper.length)), s)) ∧
      (s.Brings (.update (.scope number o.layers.reverse)) o.upper ↔
        ∃ top lower, o.upper = top :: lower ∧
          ∀ key v, top.get? key = none → visibleIn lower key = some v → s.scope.get? key = some v) ∧
      (o.upper = [] → s.perform (.update (.scope number o.layers.reverse)) =
        (.error (.indexError "pop from empty list"), s))) ∧
    ∀ dicts : List (Nat × Layer),
      (s.Brings (.push (dicts.map fun d => .dict d.1 d.2) []) (dicts.reverse.map (·.2)) ↔
        dicts.length ≤ 1) ∧
      (1 < dicts.length → s.perform (.push (dicts.map fun d => .dict d.1 d.2) []) =
        (.error (.typeError
          ("dict expected at most 1 argument, got " ++ toString dicts.length)), s)) := by
  constructor
  · intro number o
    have hlayers := flatMap_layerValues_scope number o
    refine ⟨?_, fun hmany => ?_, brings_update_iff number o, perform_update_of_empty number⟩
    · have hiff := brings_push_iff (s := s) hlayers
      simpa using hiff
    · have hfails := perform_push_of_many (s := s) hlayers (by simpa using hmany)
      simpa using hfails
  · intro dicts
    have hlayers : (dicts.map fun d => Value.dict d.1 d.2).flatMap Scope.layerValues =
        dicts.map fun d => .dict d.1 d.2 := by
      rw [List.flatMap_map, List.map_eq_flatMap]
      rfl
    exact ⟨brings_push_iff hlayers, perform_push_of_many hlayers⟩

/-- Two layers are not brought in by pushing them, nor is the lower one by updating; what has no layer
cannot be updated with. -/
theorem not_brings_two :
    let s : Session := ⟨.create (some []) true none, []⟩
    let o : Scope := { upper := [[(.str "y", .int 2)], [(.str "x", .int 1)]] }
    let bare : Scope := {}
    (¬ s.Brings (.push [.scope 0 o.layers.reverse] []) o.upper) ∧
      (¬ s.Brings (.update (.scope 0 o.layers.reverse)) o.upper) ∧
      (¬ s.Brings (.update (.scope 0 bare.layers.reverse)) bare.upper) ∧
      ¬ s.Brings (.push [.dict 0 [(.str "x", .int 1)], .dict 0 [(.str "y", .int 2)]] [])
        [[(.str "y", .int 2)], [(.str "x", .int 1)]] := by
  intro s o bare
  refine ⟨fun h => ?_, fun h => ?_, fun h => ?_, fun h => ?_⟩
  · have hlength := (brings_push_iff (flatMap_layerValues_scope 0 o)).1 h
    exact absurd hlength (by decide)
  · obtain ⟨top, lower, heq, hseen⟩ := (brings_update_iff 0 o).1 h
    cases heq
    cases hseen (.str "x") (.int 1) rfl rfl
  · obtain ⟨top, lower, heq, -⟩ := (brings_update_iff 0 bare).1 h
    cases heq
  · have hlayers : [Value.dict 0 [(.str "x", .int 1)], .dict 0 [(.str "y", .int 2)]].flatMap
        Scope.layerValues = [(0, [(.str "x", .int 1)]), (0, [(.str "y", .int 2)])].map
          fun d : Nat × Layer => .dict d.1 d.2 := rfl
    exact absurd ((brings_push_iff hlayers).1 h) (by decide)

end Galley.Session
