import Galley.Proofs.Frame
import Galley.Proofs.Keys
import Galley.Proofs.Mirror
import Galley.Scope.Session
import Mathlib

/-!
# Layers as dictionaries

A layer is a list of entries, but no two of its keys are alike: it is a dictionary. What is found in it
under a key depends only on what this key is told by, and a variable that is set is found under all keys
that are like its own.

* `Layer.IsDict`: a layer with keys of which no two are alike.
* `Layer.get?_set`, `Layer.get?_erase`, `Layer.get?_setAll`: what is found after a change.
* `Scope.IsStack`: a scope of such layers.
* `Scope.get?_flatten`: **all visible variables as one layer** are found there as in the scope.
* `Scope.layers_set`, `Scope.layers_setUpward`: the layers after a change.
-/

namespace Galley

namespace Layer

variable {layer changes : Layer} {key other v : Value}

/-- A layer **is a dictionary** if its keys can be keys and no two of them are alike. -/
structure IsDict (layer : Layer) : Prop where
  keys : ∀ entry ∈ layer, entry.1.IsKey
  distinct : layer.Pairwise fun entry later => Value.alike entry.1 later.1 = false

instance (layer : Layer) : Decidable layer.IsDict :=
  decidable_of_iff ((∀ entry ∈ layer, entry.1.IsKey) ∧
    layer.Pairwise fun entry later => Value.alike entry.1 later.1 = false)
    ⟨fun h => ⟨h.1, h.2⟩, fun h => ⟨h.keys, h.distinct⟩⟩

theorem has_eq (layer : Layer) (key : Value) : layer.has key = (layer.get? key).isSome := by
  unfold has get? Value.lookupKey?
  rw [Option.isSome_map, List.isSome_find?]

theorem isDict_nil : IsDict [] := ⟨List.forall_mem_nil _, .nil⟩

theorem isDict_constants : IsDict constants := by decide

/-! ## One variable -/

/-- Under keys that are alike the same is found. -/
theorem get?_congr (hlayer : ∀ entry ∈ layer, entry.1.IsKey) (hkey : key.IsKey)
    (h : Value.alike key other = true) : layer.get? other = layer.get? key := by
  unfold get? Value.lookupKey?
  refine congrArg (Option.map Prod.snd) (List.find?_congr fun entry hentry => ?_)
  have hentry := hlayer entry hentry
  obtain ⟨form, hform, hother⟩ := (Value.alike_iff hkey other).1 h
  rw [Bool.eq_iff_iff, Value.alike_iff hentry, Value.alike_iff hentry, hform, hother]

theorem forall_keys_set {P : Value → Prop} (hlayer : ∀ entry ∈ layer, P entry.1) (hkey : P key)
    (v : Value) : ∀ entry ∈ layer.set key v, P entry.1 := by
  intro entry hentry
  unfold set at hentry
  split at hentry
  · obtain ⟨before, hbefore, rfl⟩ := List.mem_map.1 hentry
    have hkeep : (if Value.alike before.1 key then (before.1, v) else before).1 = before.1 := by
      split <;> rfl
    rw [hkeep]
    exact hlayer before hbefore
  · rcases List.mem_append.1 hentry with hentry | hentry
    · exact hlayer entry hentry
    · rw [List.mem_singleton.1 hentry]
      exact hkey

/-- **What is found after a variable was set.** -/
theorem get?_set (hlayer : ∀ entry ∈ layer, entry.1.IsKey) (hkey : key.IsKey) (v other : Value) :
    (layer.set key v).get? other = if Value.alike key other then some v else layer.get? other := by
  cases hlike : Value.alike key other with
  | true =>
    obtain ⟨form, hform, -⟩ := (Value.alike_iff hkey other).1 hlike
    have hself : Value.alike key key = true := (Value.alike_iff hkey key).2 ⟨form, hform, hform⟩
    rw [get?_congr (forall_keys_set hlayer hkey v) hkey hlike, get?_set_self layer hself, if_pos rfl]
  | false =>
    rw [if_neg Bool.false_ne_true]
    refine get?_set_of_not_alike v hlike fun entry hentry halike => ?_
    rw [Value.alike_congr (hlayer entry hentry) hkey halike, hlike]

/-- **What is found after a variable was removed.** -/
theorem get?_erase (hlayer : ∀ entry ∈ layer, entry.1.IsKey) (hkey : key.IsKey) (other : Value) :
    (layer.erase key).get? other = if Value.alike key other then none else layer.get? other := by
  unfold erase get? Value.lookupKey?
  rw [List.find?_filter]
  cases hlike : Value.alike key other with
  | true =>
    rw [if_pos rfl, Option.map_eq_none_iff, List.find?_eq_none]
    intro entry hentry hfound
    obtain ⟨hkept, hother⟩ := of_decide_eq_true hfound
    rw [Value.alike_of_alike (hlayer entry hentry) hkey hother hlike] at hkept
    exact Bool.false_ne_true hkept
  | false =>
    rw [if_neg Bool.false_ne_true]
    refine congrArg (Option.map Prod.snd) (List.find?_congr fun entry hentry => ?_)
    cases hentrykey : Value.alike entry.1 key with
    | true =>
      rw [Value.alike_congr (hlayer entry hentry) hkey hentrykey, hlike]
      rfl
    | false => simp

theorem IsDict.set (h : layer.IsDict) (hkey : key.IsKey) (v : Value) : (layer.set key v).IsDict := by
  refine ⟨forall_keys_set h.keys hkey v, ?_⟩
  unfold Layer.set
  cases hhas : layer.has key with
  | true =>
    rw [if_pos rfl]
    refine h.distinct.map _ fun entry later hne => ?_
    split <;> split <;> exact hne
  | false =>
    rw [if_neg Bool.false_ne_true]
    refine List.pairwise_append.2 ⟨h.distinct, List.pairwise_singleton _ _, ?_⟩
    intro entry hentry last hlast
    rw [List.mem_singleton.1 hlast]
    rw [has, List.any_eq_false] at hhas
    exact Bool.eq_false_iff.2 (hhas entry hentry)

theorem IsDict.erase (h : layer.IsDict) (key : Value) : (layer.erase key).IsDict :=
  ⟨fun entry hentry => h.keys entry (List.mem_of_mem_filter hentry), h.distinct.filter _⟩

/-! ## Several variables -/

theorem IsDict.setAll (h : layer.IsDict) (hchanges : ∀ entry ∈ changes, entry.1.IsKey) :
    (layer.setAll changes).IsDict := by
  induction changes generalizing layer with
  | nil => exact h
  | cons entry rest ih =>
    obtain ⟨hentry, hrest⟩ := List.forall_mem_cons.1 hchanges
    exact ih (h.set hentry entry.2) hrest

theorem isDict_ofEntries {entries : List (Value × Value)} (h : ∀ entry ∈ entries, entry.1.IsKey) :
    (ofEntries entries).IsDict := isDict_nil.setAll h

/-- **What is found after the variables of another layer were set:** what is found there, else what was
found before. -/
theorem get?_setAll (hlayer : ∀ entry ∈ layer, entry.1.IsKey) (h : changes.IsDict) (key : Value) :
    (layer.setAll changes).get? key = (changes.get? key).or (layer.get? key) := by
  induction changes generalizing layer with
  | nil => rfl
  | cons entry rest ih =>
    obtain ⟨k, v⟩ := entry
    obtain ⟨hk, hkeys⟩ := List.forall_mem_cons.1 h.keys
    obtain ⟨hne, hdistinct⟩ := List.pairwise_cons.1 h.distinct
    change ((layer.set k v).setAll rest).get? key = _
    rw [ih (forall_keys_set hlayer hk v) ⟨hkeys, hdistinct⟩, get?_set hlayer hk, get?_cons]
    cases hlike : Value.alike k key with
    | false => rfl
    | true =>
      -- no later entry stands under a key that is like that of the first one
      have hnone : get? rest key = none := by
        rw [get?_congr hkeys hk hlike]
        unfold get? Value.lookupKey?
        rw [Option.map_eq_none_iff, List.find?_eq_none]
        intro later hlater
        rw [Value.alike_comm (hkeys later hlater) hk, hne later hlater]
        exact Bool.false_ne_true
      rw [hnone]
      rfl

end Layer

namespace Scope

variable {s t : Scope} {layer : Layer} {key v : Value}

/-! ## Scopes -/

/-- A scope is **a stack** if all its layers are dictionaries. -/
def IsStack (s : Scope) : Prop := ∀ layer ∈ s.layers, layer.IsDict

instance (s : Scope) : Decidable s.IsStack :=
  inferInstanceAs (Decidable (∀ layer ∈ s.layers, layer.IsDict))

/-- All visible variables as one layer are a dictionary, and they are found there as in the scope. -/
theorem IsStack.flatten (h : s.IsStack) :
    s.flatten.IsDict ∧ ∀ key, s.flatten.get? key = s.get? key := by
  unfold IsStack at h
  unfold Scope.flatten Scope.get?
  rw [List.foldl_reverse]
  generalize s.layers = layers at h ⊢
  induction layers with
  | nil => exact ⟨Layer.isDict_nil, fun key => rfl⟩
  | cons layer rest ih =>
    obtain ⟨hlayer, hrest⟩ := List.forall_mem_cons.1 h
    obtain ⟨hflat, hget⟩ := ih hrest
    refine ⟨hflat.setAll hlayer.keys, fun key => ?_⟩
    rw [List.foldr_cons, Layer.get?_setAll hflat.keys hlayer, List.findSome?_cons, hget]
    cases layer.get? key <;> rfl

/-- **All visible variables as one layer** are found there as in the scope. -/
theorem IsStack.get?_flatten (h : s.IsStack) (key : Value) : s.flatten.get? key = s.get? key :=
  h.flatten.2 key

theorem has_eq (s : Scope) (key : Value) : s.has key = (s.get? key).isSome := by
  unfold has get?
  induction s.layers with
  | nil => rfl
  | cons layer rest ih =>
    rw [List.any_cons, ih, Layer.has_eq, List.findSome?_cons]
    cases layer.get? key <;> rfl

theorem layers_push (s : Scope) (layer : Layer) : (s.push layer).layers = layer :: s.layers := rfl

theorem layers_pop (h : s.pop = some (layer, t)) : s.layers = layer :: t.layers := by
  unfold pop at h
  unfold layers
  split at h
  · cases h
  · next hupper =>
    cases h
    rw [hupper]
    rfl
  · next hupper =>
    cases h
    rw [hupper]
    rfl

/-- The highest layer can be taken off if it is not the lowest too. -/
theorem exists_pop {lower : List Layer} (h : s.layers = layer :: lower) (hlower : lower ≠ []) :
    ∃ t, s.pop = some (layer, t) ∧ t.layers = lower := by
  cases hpop : s.pop with
  | some taken =>
    obtain ⟨top, t⟩ := taken
    have hlayers := layers_pop hpop
    rw [h] at hlayers
    obtain ⟨rfl, rfl⟩ := List.cons.inj hlayers
    exact ⟨t, rfl, rfl⟩
  | none =>
    unfold pop at hpop
    split at hpop
    · next hupper =>
      rw [layers, hupper] at h
      exact absurd (List.cons.inj h).2.symm hlower
    · cases hpop
    · cases hpop

/-- A variable is set in the first of the layers that have it. -/
theorem setFirst_eq_some {layers after : List Layer} (h : setFirst key v layers = some after) :
    ∃ higher layer lower, layers = higher ++ layer :: lower ∧
      after = higher ++ layer.set key v :: lower ∧
      (∀ other ∈ higher, other.has key = false) ∧ layer.has key = true := by
  induction layers generalizing after with
  | nil => cases h
  | cons layer rest ih =>
    unfold setFirst at h
    cases hhas : layer.has key with
    | true =>
      rw [if_pos hhas] at h
      cases h
      exact ⟨[], layer, rest, rfl, rfl, List.forall_mem_nil _, hhas⟩
    | false =>
      rw [hhas, if_neg Bool.false_ne_true] at h
      obtain ⟨after, hafter, rfl⟩ := Option.map_eq_some_iff.1 h
      obtain ⟨higher, found, lower, rfl, rfl, hhigher, hfound⟩ := ih hafter
      exact ⟨layer :: higher, found, lower, rfl, rfl, List.forall_mem_cons.2 ⟨hhas, hhigher⟩, hfound⟩

theorem setFirst_eq_none {layers : List Layer} :
    setFirst key v layers = none ↔ ∀ layer ∈ layers, layer.has key = false := by
  induction layers with
  | nil => exact iff_of_true rfl (List.forall_mem_nil _)
  | cons layer rest ih =>
    rw [List.forall_mem_cons, setFirst]
    cases layer.has key <;> simp [ih]

theorem layers_set (s : Scope) (key v : Value) :
    (s.set key v).layers = s.top.set key v :: s.layers.tail := s.layers_modifyTop _

/-- **Setting a variable where it is set** changes the highest layer that has it, or the highest layer
if none has it. -/
theorem layers_setUpward (s : Scope) (key v : Value) :
    ∃ higher layer lower, s.layers = higher ++ layer :: lower ∧
      (s.setUpward key v).layers = higher ++ layer.set key v :: lower ∧
      (∀ other ∈ higher, other.has key = false) ∧
      (layer.has key = true ∨ higher = [] ∧ s.has key = false) := by
  unfold setUpward
  cases hfirst : setFirst key v s.upper with
  | some upper =>
    obtain ⟨higher, layer, lower, hupper, rfl, hhigher, hhas⟩ := setFirst_eq_some hfirst
    refine ⟨higher, layer, lower ++ [s.lowest], ?_, ?_, hhigher, .inl hhas⟩
    · simp [layers, hupper]
    · simp [layers]
  | none =>
    have hupper := setFirst_eq_none.1 hfirst
    dsimp only
    split
    · next hhas => exact ⟨s.upper, s.lowest, [], rfl, rfl, hupper, .inl hhas⟩
    · next hhas =>
      refine ⟨[], s.top, s.layers.tail, s.layers_eq_cons, s.layers_set key v, List.forall_mem_nil _,
        .inr ⟨rfl, ?_⟩⟩
      unfold has layers
      rw [List.any_append, List.any_eq_false.2 fun layer hlayer => by simp [hupper layer hlayer]]
      simp [hhas]

end Scope

end Galley
