import Galley.Proofs.Layers
import Galley.Proofs.Outcome
import Mathlib

/-!
# Sessions and layers

A session works with a scope whose layers are dictionaries, and it leaves such a scope, whatever is done
in it: what is pushed is a dictionary or is made into one, and only what can be a key is set.

* `Value.HoldsDicts`: a dictionary, or a scope, whose entries are such as a dictionary can have.
* `Layer.isDict_ofValue`: the layer that a value is turned into.
* `Session.isStack_perform`, `Session.isStack_performAll`: **the layers stay dictionaries.**
-/

namespace Galley

variable {key v : Value} {layer : Layer}

/-! ## What is turned into a layer -/

namespace Value

theorem checkKey_eq_ok : key.checkKey = .ok () ↔ key.IsKey := by
  unfold checkKey IsKey
  cases key.unhashable? <;> simp

theorem exists_of_not_isKey (h : ¬ key.IsKey) : ∃ e, key.checkKey = .error e := by
  cases hkey : key.checkKey with
  | error e => exact ⟨e, rfl⟩
  | ok => exact absurd (checkKey_eq_ok.1 hkey) h

/-- A value **holds dictionaries** if the entries of a dictionary, and of each layer of a scope, are
such as a dictionary can have. -/
def HoldsDicts : Value → Prop
  | .dict _ entries => Layer.IsDict entries
  | .scope _ layers => ∀ layer ∈ layers, Layer.IsDict layer
  | _ => True

instance : (v : Value) → Decidable v.HoldsDicts
  | .dict _ entries => inferInstanceAs (Decidable (Layer.IsDict entries))
  | .scope _ layers => inferInstanceAs (Decidable (∀ layer ∈ layers, Layer.IsDict layer))
  | .none | .bool _ | .int _ | .float _ | .nan _ | .text .. | .bytes .. | .list .. | .tuple ..
  | .view .. | .range .. | .stream .. | .object .. => inferInstanceAs (Decidable True)

end Value

namespace Layer

theorem isKey_of_entryOf {i : Nat} {entry : Value × Value} (h : entryOf i v = .ok entry) :
    entry.1.IsKey := by
  unfold entryOf at h
  cases hwalk : v.walk? with
  | none =>
    rw [hwalk] at h
    cases h
  | some walk =>
    obtain ⟨items, ending⟩ := walk
    rw [hwalk] at h
    cases ending with
    | some e => cases h
    | none =>
      dsimp only at h
      split at h
      · obtain ⟨⟨⟩, hkey, heq⟩ := bind_eq_ok.1 h
        cases heq
        exact Value.checkKey_eq_ok.1 hkey
      · cases h

theorem isKey_of_entriesFrom {i : Nat} {items : List Value} {entries : List (Value × Value)}
    (h : entriesFrom i items = .ok entries) : ∀ entry ∈ entries, entry.1.IsKey := by
  induction items generalizing i entries with
  | nil =>
    cases h
    exact List.forall_mem_nil _
  | cons v rest ih =>
    rw [entriesFrom] at h
    obtain ⟨entry, hentry, h⟩ := bind_eq_ok.1 h
    obtain ⟨others, hothers, h⟩ := bind_eq_ok.1 h
    cases h
    exact List.forall_mem_cons.2 ⟨isKey_of_entryOf hentry, ih hothers⟩

/-- **The layer that a value is turned into** is a dictionary. -/
theorem isDict_ofValue (h : ofValue v = .ok layer) (hv : v.HoldsDicts) : layer.IsDict := by
  unfold ofValue at h
  split at h
  · cases h
    exact hv
  · split at h
    · cases h
    · obtain ⟨entries, hentries, h⟩ := bind_eq_ok.1 h
      split at h
      · cases h
      · cases h
        exact isDict_ofEntries (isKey_of_entriesFrom hentries)

theorem isDict_ofNamed (named : List (String × Value)) : (ofNamed named).IsDict := by
  refine isDict_ofEntries fun entry hentry => ?_
  obtain ⟨pair, -, rfl⟩ := List.mem_map.1 hentry
  rfl

end Layer

namespace Scope

variable {s t : Scope} {values : List Value} {named : List (String × Value)}

theorem holdsDicts_layerValues (h : v.HoldsDicts) : ∀ w ∈ layerValues v, w.HoldsDicts := by
  cases v with
  | scope number layers =>
    intro w hw
    obtain ⟨layer, hlayer, rfl⟩ := List.mem_map.1 hw
    exact h layer (List.mem_of_mem_tail hlayer)
  | _ => exact List.forall_mem_singleton.2 h

/-- **Pushing** values puts one layer on top if they bring in at most one layer. -/
theorem pushValues_eq (s : Scope) (values : List Value) (named : List (String × Value)) :
    s.pushValues values named =
      if named.any (·.1 = "self") then
        .error (.typeError "BaseContext.push() got multiple values for argument 'self'")
      else if named.any (·.1 = "context") then
        .error (.typeError "ContextDict.__init__() got multiple values for argument 'context'")
      else match values.flatMap layerValues with
        | [] => .ok (s.push (Layer.ofNamed named))
        | [v] => (Layer.ofValue v).map fun layer => s.push (layer.setAll (Layer.ofNamed named))
        | brought =>
          .error (.typeError ("dict expected at most 1 argument, got " ++ toString brought.length)) := by
  unfold pushValues
  generalize named.any (·.1 = "self") = self, named.any (·.1 = "context") = context
  cases self with
  | true =>
    rcases values.flatMap layerValues with _ | ⟨v, _ | ⟨w, rest⟩⟩ <;> rfl
  | false =>
    cases context with
    | true => rcases values.flatMap layerValues with _ | ⟨v, _ | ⟨w, rest⟩⟩ <;> rfl
    | false =>
      rcases values.flatMap layerValues with _ | ⟨v, _ | ⟨w, rest⟩⟩
      · rfl
      · dsimp only
        cases Layer.ofValue v <;> rfl
      · rfl

theorem exists_of_pushValues (h : s.pushValues values named = .ok t) :
    ∃ layer : Layer, t = s.push layer ∧ ((∀ v ∈ values, v.HoldsDicts) → layer.IsDict) := by
  rw [pushValues_eq] at h
  split at h
  · cases h
  split at h
  · cases h
  split at h
  · cases h
    exact ⟨_, rfl, fun _ => Layer.isDict_ofNamed named⟩
  · next v hbrought =>
    obtain ⟨layer, hlayer, rfl⟩ := map_eq_ok h
    refine ⟨_, rfl, fun hvalues => ?_⟩
    have hv : v.HoldsDicts := by
      have hmem : v ∈ values.flatMap layerValues := hbrought ▸ List.mem_singleton_self v
      obtain ⟨value, hvalue, hv⟩ := List.mem_flatMap.1 hmem
      exact holdsDicts_layerValues (hvalues value hvalue) v hv
    exact (Layer.isDict_ofValue hlayer hv).setAll (Layer.isDict_ofNamed named).keys
  · cases h

theorem isDict_updateLayer (h : updateLayer v = .ok layer) (hv : v.HoldsDicts) : layer.IsDict := by
  unfold updateLayer at h
  split at h
  · next number layers =>
    split at h
    · next found hfound =>
      cases h
      exact hv _ (List.mem_of_mem_tail (List.mem_of_getLast? hfound))
    · cases h
  · split at h
    · exact Layer.isDict_ofValue h hv
    · cases h

/-! ## What is done to the layers -/

theorem IsStack.push (h : s.IsStack) (hlayer : layer.IsDict) : (s.push layer).IsStack :=
  List.forall_mem_cons.2 ⟨hlayer, h⟩

theorem IsStack.pop (h : s.IsStack) (hpop : s.pop = some (layer, t)) : t.IsStack := by
  unfold IsStack at h
  rw [layers_pop hpop] at h
  exact (List.forall_mem_cons.1 h).2

theorem IsStack.modifyTop (h : s.IsStack) {f : Layer → Layer}
    (hf : ∀ layer : Layer, layer.IsDict → (f layer).IsDict) : (s.modifyTop f).IsStack := by
  unfold IsStack at h ⊢
  rw [s.layers_eq_cons] at h
  rw [s.layers_modifyTop]
  obtain ⟨htop, hrest⟩ := List.forall_mem_cons.1 h
  exact List.forall_mem_cons.2 ⟨hf _ htop, hrest⟩

theorem IsStack.set (h : s.IsStack) (hkey : key.IsKey) (v : Value) : (s.set key v).IsStack :=
  h.modifyTop fun _ hlayer => hlayer.set hkey v

theorem IsStack.setUpward (h : s.IsStack) (hkey : key.IsKey) (v : Value) :
    (s.setUpward key v).IsStack := by
  obtain ⟨higher, layer, lower, hbefore, hafter, -, -⟩ := s.layers_setUpward key v
  unfold IsStack at h ⊢
  rw [hbefore, List.forall_mem_append, List.forall_mem_cons] at h
  rw [hafter, List.forall_mem_append, List.forall_mem_cons]
  exact ⟨h.1, h.2.1.set hkey v, h.2.2⟩

theorem IsStack.setDefault (h : s.IsStack) (hkey : key.IsKey) (v : Value) :
    (s.setDefault key v).2.IsStack := by
  unfold Scope.setDefault
  split
  · exact h
  · exact h.set hkey v

theorem IsStack.leave (h : s.IsStack) (entered : Entered) : (s.leave entered).2.IsStack := by
  cases entered with
  | layer =>
    unfold Scope.leave
    dsimp only
    split
    · next hpop => exact h.pop hpop
    · exact h
  | loop =>
    unfold Scope.leave leaveLoop
    dsimp only
    split
    · next hpop =>
      have hrest := h.pop hpop
      exact hrest
    · exact h
  | template => exact h

end Scope

/-! ## Operations -/

/-- An operation **brings dictionaries** if what it pushes holds such. -/
def Operation.BringsDicts : Operation → Prop
  | .push values _ => ∀ v ∈ values, v.HoldsDicts
  | .update v => v.HoldsDicts
  | _ => True

namespace Session

variable {s : Session}

theorem isStack_change (h : s.scope.IsStack) {outcome : Except HostError Scope}
    {entered : Option Entered} (houtcome : ∀ t, outcome = .ok t → t.IsStack) :
    (s.change outcome entered).2.scope.IsStack := by
  cases outcome with
  | ok t => exact houtcome t rfl
  | error e => exact h

theorem withKey_eq_ok {α : Type} {a b : α} : withKey key a = .ok b ↔ key.IsKey ∧ a = b := by
  unfold withKey
  rw [bind_eq_ok, ← Value.checkKey_eq_ok]
  constructor
  · rintro ⟨⟨⟩, hkey, heq⟩
    exact ⟨hkey, Except.ok.inj heq⟩
  · rintro ⟨hkey, rfl⟩
    exact ⟨(), hkey, rfl⟩

theorem withKey_of_isKey {α : Type} (hkey : key.IsKey) (a : α) : withKey key a = .ok a :=
  withKey_eq_ok.2 ⟨hkey, rfl⟩

theorem perform_set (hkey : key.IsKey) (v : Value) :
    s.perform (.set key v) = (.ok .nothing, { s with scope := s.scope.set key v }) := by
  rw [perform, withKey_of_isKey hkey]
  rfl

theorem perform_setUpward (hkey : key.IsKey) (v : Value) :
    s.perform (.setUpward key v) = (.ok .nothing, { s with scope := s.scope.setUpward key v }) := by
  rw [perform, withKey_of_isKey hkey]
  rfl

/-- What cannot be a key is **refused** by all readers and writers. -/
theorem perform_of_not_isKey {e : HostError} (he : key.checkKey = .error e) (v : Value) :
    ∀ operation ∈ [Operation.get key, .getOr key v, .has key, .set key v, .setDefault key v,
      .setUpward key v, .delete key], s.perform operation = (.error e, s) := by
  have hwith {α : Type} (a : α) : withKey key a = .error e := by
    unfold withKey
    rw [he]
    rfl
  intro operation hoperation
  simp only [List.mem_cons, List.not_mem_nil, or_false] at hoperation
  rcases hoperation with rfl | rfl | rfl | rfl | rfl | rfl | rfl
  · rw [perform, he]
    rfl
  · rw [perform, hwith]
    rfl
  · rw [perform, hwith]
    rfl
  · rw [perform, hwith]
    rfl
  · rw [perform, hwith]
    rfl
  · rw [perform, hwith]
    rfl
  · rw [perform, Scope.deleteSet, he]
    rfl

/-- **An operation** leaves a scope whose layers are dictionaries. -/
theorem isStack_perform (h : s.scope.IsStack) {operation : Operation} (hop : operation.BringsDicts) :
    (s.perform operation).2.scope.IsStack := by
  -- the layers are changed by what pushes, sets, removes or takes off; all else leaves them alone
  cases operation with
  | push values named =>
    refine isStack_change h fun t ht => ?_
    obtain ⟨layer, rfl, hlayer⟩ := Scope.exists_of_pushValues ht
    exact h.push (hlayer hop)
  | update v =>
    refine isStack_change h fun t ht => ?_
    obtain ⟨layer, hlayer, heq⟩ := bind_eq_ok.1 ht
    cases heq
    exact h.push (Scope.isDict_updateLayer hlayer hop)
  | enterLoop length => exact h.push Layer.isDict_nil
  | set key v =>
    refine isStack_change h fun t ht => ?_
    obtain ⟨hkey, rfl⟩ := withKey_eq_ok.1 ht
    exact h.set hkey v
  | setUpward key v =>
    refine isStack_change h fun t ht => ?_
    obtain ⟨hkey, rfl⟩ := withKey_eq_ok.1 ht
    exact h.setUpward hkey v
  | delete key =>
    refine isStack_change h fun t ht => ?_
    obtain ⟨⟨⟩, -, hset⟩ := bind_eq_ok.1 ht
    split at hset
    · cases hset
      exact h.modifyTop fun _ hlayer => hlayer.erase key
    · cases hset
  | setDefault key v =>
    unfold perform
    dsimp only
    split
    · next ht =>
      obtain ⟨hkey, heq⟩ := withKey_eq_ok.1 ht
      have hset := h.setDefault hkey v
      rw [heq] at hset
      exact hset
    · exact h
  | pop =>
    unfold perform
    dsimp only
    split
    · next hpop => exact h.pop hpop
    · exact h
  | exit =>
    unfold perform
    dsimp only
    split
    · exact h
    · exact h.leave _
  | bindTemplate name =>
    unfold perform
    dsimp only
    split <;> exact h
  | setCount count =>
    unfold perform
    dsimp only
    split
    · exact h
    · refine isStack_change h fun t ht => ?_
      cases ht
      unfold Scope.setCount
      split <;> exact h
  | autoescape enabled => exact h
  | _ => exact h

/-- **Operations one after the other** leave a scope whose layers are dictionaries. -/
theorem isStack_performAll {operations : List Operation} (h : s.scope.IsStack)
    (hops : ∀ operation ∈ operations, operation.BringsDicts) :
    (s.performAll operations).2.scope.IsStack := by
  induction operations generalizing s with
  | nil => exact h
  | cons operation rest ih =>
    obtain ⟨hop, hrest⟩ := List.forall_mem_cons.1 hops
    exact ih (isStack_perform h hop) hrest

end Session

end Galley
