import Galley.Proofs.Sessions
import Mathlib

/-!
# The variables that are visible

All that read a scope see the same variables: those that it has as one layer. All that write to it set
a variable in one of its layers, so that this variable reads as it was set and all others read as they
did. What is set in a layer that was pushed is gone once this layer has been taken off.

* `Session.Reads`: what the readers answer for a key, by what is found under it.
* `Session.Writes`: a session after one variable was set in one layer.
* `Session.perform_push_pop`: **a layer that was pushed and taken off** leaves nothing behind.
* `Session.actsAsMap_of_isStack`: **the readers of a scope agree, and its writers change one variable.**
-/

namespace Galley.Session

variable {s t : Session} {key v : Value}

/-- What the **readers** answer for a key under which something is found, or nothing. Looking a variable
up with a value to set it to changes nothing if it is set, and else sets it. -/
structure Reads (s : Session) (key : Value) (found : Option Value) : Prop where
  get : s.perform (.get key) =
    (match found with
      | some v => .ok (.value v)
      | none => .error (Scope.unset key), s)
  getOr (default : Value) : s.perform (.getOr key default) = (.ok (.value (found.getD default)), s)
  has : s.perform (.has key) = (.ok (.flag found.isSome), s)
  setDefault (default : Value) : s.perform (.setDefault key default) =
    (.ok (.value (found.getD default)),
      if found.isSome then s else (s.perform (.set key default)).2)

/-- A session after **one variable was set** in one layer. It is found under all keys that are like its
own, and under all others the same is found as before. -/
structure Writes (s t : Session) (key v : Value) (higher : List Layer) (layer : Layer)
    (lower : List Layer) : Prop where
  before : s.scope.layers = higher ++ layer :: lower
  after : t.scope.layers = higher ++ layer.set key v :: lower
  isStack : t.scope.IsStack
  found : ∀ other, t.scope.flatten.get? other =
    if Value.alike key other then some v else s.scope.flatten.get? other
  /-- The key itself is found again if it is told by something. -/
  self : key.keyForm?.isSome → t.scope.flatten.get? key = some v

/-! ## Reading -/

theorem reads_get? (hkey : key.IsKey) : s.Reads key (s.scope.get? key) where
  get := by
    rw [perform, Value.checkKey_eq_ok.2 hkey]
    cases s.scope.get? key <;> rfl
  getOr default := by
    rw [perform, withKey_of_isKey hkey]
    rfl
  has := by
    rw [perform, withKey_of_isKey hkey, Scope.has_eq]
    rfl
  setDefault default := by
    rw [perform, perform, withKey_of_isKey hkey, withKey_of_isKey hkey, Scope.setDefault]
    cases s.scope.get? key <;> rfl

/-! ## Writing -/

/-- Under what keys a variable is found after it was set in the highest layer that has it, or in a
layer above all that have it. -/
theorem get?_of_layers {before after : Scope} {higher lower : List Layer} {layer : Layer}
    (h : before.IsStack) (hkey : key.IsKey) (hbefore : before.layers = higher ++ layer :: lower)
    (hafter : after.layers = higher ++ layer.set key v :: lower)
    (hhigher : ∀ l ∈ higher, l.has key = false) (other : Value) :
    after.get? other = if Value.alike key other then some v else before.get? other := by
  unfold Scope.IsStack at h
  rw [hbefore, List.forall_mem_append, List.forall_mem_cons] at h
  obtain ⟨hdicts, hlayer, -⟩ := h
  unfold Scope.get?
  rw [hbefore, hafter, List.findSome?_append, List.findSome?_append, List.findSome?_cons,
    List.findSome?_cons, Layer.get?_set hlayer.keys hkey]
  cases hlike : Value.alike key other with
  | false => rfl
  | true =>
    -- no higher layer has the variable, also not under the other key
    have hnone : higher.findSome? (·.get? other) = none := by
      refine List.findSome?_eq_none_iff.2 fun l hl => ?_
      have hhas := hhigher l hl
      rw [Layer.has_eq] at hhas
      rw [Layer.get?_congr (hdicts l hl).keys hkey hlike]
      exact Option.not_isSome_iff_eq_none.1 (Bool.eq_false_iff.1 hhas)
    rw [hnone]
    rfl

theorem writes_of_layers {higher lower : List Layer} {layer : Layer} (h : s.scope.IsStack)
    (hkey : key.IsKey) (hbefore : s.scope.layers = higher ++ layer :: lower)
    (hafter : t.scope.layers = higher ++ layer.set key v :: lower) (ht : t.scope.IsStack)
    (hhigher : ∀ l ∈ higher, l.has key = false) : s.Writes t key v higher layer lower where
  before := hbefore
  after := hafter
  isStack := ht
  found other := by
    rw [ht.get?_flatten, h.get?_flatten, get?_of_layers h hkey hbefore hafter hhigher]
  self hform := by
    rw [ht.get?_flatten, get?_of_layers h hkey hbefore hafter hhigher,
      (Value.alike_self_iff hkey).2 hform, if_pos rfl]

/-! ## Layers that are taken off -/

/-- Assignments leave all layers alone but the highest. -/
theorem layers_performAll_set (s : Session) (changes : List (Value × Value)) :
    ∃ layer, (s.performAll (changes.map fun change => .set change.1 change.2)).2.scope.layers =
      layer :: s.scope.layers.tail := by
  induction changes generalizing s with
  | nil => exact ⟨s.scope.top, s.scope.layers_eq_cons⟩
  | cons change rest ih =>
    obtain ⟨layer, hlayer⟩ := ih (s.perform (.set change.1 change.2)).2
    refine ⟨layer, hlayer.trans (congrArg (layer :: ·) ?_)⟩
    cases hkey : change.1.checkKey with
    | error e =>
      -- what cannot be a key is refused, and no layer changes
      rw [perform_of_not_isKey hkey change.2 _ (by simp)]
    | ok =>
      rw [perform_set (Value.checkKey_eq_ok.1 hkey), Scope.layers_set]
      rfl

/-- **A layer that was pushed and taken off** leaves nothing behind, whatever was set in between. -/
theorem perform_push_pop {values : List Value} {named : List (String × Value)}
    (hpush : s.perform (.push values named) = (.ok .nothing, t)) (changes : List (Value × Value)) :
    ∃ layer u, (t.performAll (changes.map fun change => .set change.1 change.2)).2.perform .pop =
        (.ok (.value (.dict 0 layer)), u) ∧
      u.scope.layers = s.scope.layers := by
  obtain ⟨layer, hlayer⟩ : ∃ layer, t.scope.layers = layer :: s.scope.layers := by
    rw [perform] at hpush
    cases hvalues : s.scope.pushValues values named with
    | error e =>
      rw [hvalues] at hpush
      cases hpush
    | ok pushed =>
      rw [hvalues] at hpush
      cases hpush
      obtain ⟨layer, rfl, -⟩ := Scope.exists_of_pushValues hvalues
      exact ⟨layer, Scope.layers_push _ _⟩
  obtain ⟨changed, hchanged⟩ := layers_performAll_set t changes
  rw [hlayer, List.tail_cons] at hchanged
  generalize (t.performAll (changes.map fun change => .set change.1 change.2)).2 = u at hchanged
  have hlower : s.scope.layers ≠ [] := s.scope.layers_eq_cons ▸ List.cons_ne_nil _ _
  obtain ⟨rest, hpop, hrest⟩ := Scope.exists_pop hchanged hlower
  refine ⟨changed, { u with scope := rest }, ?_, hrest⟩
  rw [perform, hpop]

/-! ## Scopes as maps -/

/-- A session **acts as a map** if its readers answer as its visible variables say, if its writers set
one variable in one layer, and if a layer that is pushed and taken off leaves nothing behind. -/
structure ActsAsMap (s : Session) : Prop where
  flatten : s.perform .flatten = (.ok (.value (.dict 0 s.scope.flatten)), s)
  reads (key : Value) (hkey : key.IsKey) : s.Reads key (s.scope.flatten.get? key)
  /-- A variable is set in the highest layer. -/
  set (key v : Value) (hkey : key.IsKey) : ∃ t layer lower,
    s.perform (.set key v) = (.ok .nothing, t) ∧ s.Writes t key v [] layer lower
  /-- Where it is set already, it is set in the highest layer that has it, and else in the highest. -/
  setUpward (key v : Value) (hkey : key.IsKey) : ∃ t higher layer lower,
    s.perform (.setUpward key v) = (.ok .nothing, t) ∧ s.Writes t key v higher layer lower ∧
      (∀ l ∈ higher, l.has key = false) ∧
      (layer.has key = true ∨ higher = [] ∧ ∀ l ∈ s.scope.layers, l.has key = false)
  /-- What cannot be a key is refused. -/
  refuses (key v : Value) (e : HostError) (he : key.checkKey = .error e) :
    ∀ operation ∈ [Operation.get key, .getOr key v, .has key, .set key v, .setDefault key v,
      .setUpward key v, .delete key], s.perform operation = (.error e, s)
  /-- What is set in a layer that was pushed is gone once it is taken off. -/
  restores (values : List Value) (named : List (String × Value)) (t : Session)
    (hpush : s.perform (.push values named) = (.ok .nothing, t)) (changes : List (Value × Value)) :
    ∃ layer u, (t.performAll (changes.map fun change => .set change.1 change.2)).2.perform .pop =
        (.ok (.value (.dict 0 layer)), u) ∧
      u.scope.layers = s.scope.layers ∧ u.scope.flatten = s.scope.flatten

/-- **A scope whose layers are dictionaries acts as a map.** -/
theorem actsAsMap_of_isStack (s : Session) (h : s.scope.IsStack) : s.ActsAsMap where
  flatten := rfl
  reads key hkey := by
    rw [h.get?_flatten]
    exact reads_get? hkey
  set key v hkey :=
    ⟨_, _, _, perform_set hkey v, writes_of_layers h hkey s.scope.layers_eq_cons
      (s.scope.layers_set key v) (h.set hkey v) (List.forall_mem_nil _)⟩
  setUpward key v hkey := by
    obtain ⟨higher, layer, lower, hbefore, hafter, hhigher, hwhere⟩ := s.scope.layers_setUpward key v
    refine ⟨_, higher, layer, lower, perform_setUpward hkey v,
      writes_of_layers h hkey hbefore hafter (h.setUpward hkey v) hhigher, hhigher, ?_⟩
    refine hwhere.imp_right fun ⟨htop, hnone⟩ => ⟨htop, fun l hl => ?_⟩
    exact Bool.eq_false_iff.2 (List.any_eq_false.1 hnone l hl)
  refuses key v e he := perform_of_not_isKey he v
  restores values named t hpush changes := by
    obtain ⟨layer, u, hpop, hlayers⟩ := perform_push_pop hpush changes
    refine ⟨layer, u, hpop, hlayers, ?_⟩
    unfold Scope.flatten
    rw [hlayers]

/-- Of two variables of one name the one in the higher layer is read; the other one is still there. -/
theorem actsAsMap_hidden :
    let s : Session :=
      ⟨{ upper := [[(.str "x", .int 2)], [(.str "x", .int 1), (.str "y", .int 3)]] }, []⟩
    s.scope.IsStack ∧ s.Reads (.str "x") (some (.int 2)) ∧ s.Reads (.str "z") none ∧
      ∃ t higher layer lower, s.perform (.setUpward (.str "y") (.int 4)) = (.ok .nothing, t) ∧
        s.Writes t (.str "y") (.int 4) higher layer lower :=
  have h := actsAsMap_of_isStack
    ⟨{ upper := [[(.str "x", .int 2)], [(.str "x", .int 1), (.str "y", .int 3)]] }, []⟩ (by decide)
  ⟨by decide, h.reads (.str "x") rfl, h.reads (.str "z") rfl,
    have ⟨t, higher, layer, lower, hset, hwrites, _⟩ := h.setUpward (.str "y") (.int 4) rfl
    ⟨t, higher, layer, lower, hset, hwrites⟩⟩

end Galley.Session
