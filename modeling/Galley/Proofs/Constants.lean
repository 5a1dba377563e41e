import Galley.Proofs.Sessions
import Mathlib

/-!
# The layer of the constants

The lowest layer of a scope is never taken off. It is written to, though, by an assignment and a removal
when there is no other layer, and by an assignment to a variable where it is set if that is one of the
constants. Nothing but such an operation changes the constants.

* `Layer.HoldsConstants`: a layer with the constants and nothing else.
* `Scope.Grounded`: a scope whose lowest layer is such a layer.
* `Operation.Spares`: an operation that leaves the constants as they are.
* `Session.sameIf_perform`: what one operation does to the constants.
* `Session.grounded_throughout_iff`: **the constants stay as long as all operations spare them.**
-/

namespace Galley

variable {layer : Layer} {key v : Value} {s : Scope}

/-! ## The constants -/

namespace Layer

/-- A layer **holds the constants** if these are its only variables. -/
structure HoldsConstants (layer : Layer) : Prop where
  length : layer.length = constants.length
  values : ∀ entry ∈ constants, layer.get? entry.1 = some entry.2

theorem holdsConstants_constants : constants.HoldsConstants where
  length := rfl
  values := by
    unfold constants
    simp [get?_cons, Value.alike_str]

theorem get?_constants_of_alike {entry : Value × Value} (hentry : entry ∈ constants)
    (h : Value.alike entry.1 key = true) : constants.get? key = some entry.2 := by
  rw [get?_congr isDict_constants.keys (isDict_constants.keys entry hentry) h]
  exact holdsConstants_constants.values entry hentry

/-- Setting a constant to its own value changes nothing. -/
theorem constants_set (h : constants.get? key = some v) : constants.set key v = constants := by
  have hhas : constants.has key = true := by rw [has_eq, h, Option.isSome_some]
  rw [set, if_pos hhas]
  have hsame : ∀ entry ∈ constants,
      (if Value.alike entry.1 key then (entry.1, v) else entry) = entry := by
    intro entry hentry
    split
    · next halike =>
      have hvalue := get?_constants_of_alike hentry halike
      rw [h] at hvalue
      rw [Option.some.inj hvalue]
    · rfl
  rw [List.map_congr_left hsame, List.map_id']

/-- Setting a variable in the layer of the constants keeps them only if it is set to its own value. -/
theorem holdsConstants_set_iff (hkey : key.IsKey) :
    (constants.set key v).HoldsConstants ↔ constants.get? key = some v := by
  constructor
  · intro h
    cases hhas : constants.has key with
    | false =>
      have hlength := h.length
      rw [set, hhas, if_neg Bool.false_ne_true, List.length_append, List.length_singleton] at hlength
      omega
    | true =>
      obtain ⟨entry, hentry, halike⟩ := List.any_eq_true.1 hhas
      have hvalue := h.values entry hentry
      have hcomm := Value.alike_comm (isDict_constants.keys entry hentry) hkey
      rw [get?_set isDict_constants.keys hkey, ← hcomm, if_pos halike] at hvalue
      rw [get?_constants_of_alike hentry halike, hvalue]
  · intro h
    rw [constants_set h]
    exact holdsConstants_constants

/-- Removing a variable that is no constant changes nothing. -/
theorem constants_erase (h : constants.get? key = none) : constants.erase key = constants := by
  refine List.filter_eq_self.2 fun entry hentry => ?_
  cases halike : Value.alike entry.1 key with
  | false => rfl
  | true =>
    rw [get?_constants_of_alike hentry halike] at h
    cases h

/-- Removing a variable keeps the constants only if it is none of them. -/
theorem holdsConstants_erase_iff (hkey : key.IsKey) :
    (constants.erase key).HoldsConstants ↔ constants.get? key = none := by
  constructor
  · intro h
    rw [← Option.not_isSome_iff_eq_none, ← has_eq]
    intro hhas
    obtain ⟨entry, hentry, halike⟩ := List.any_eq_true.1 hhas
    have hvalue := h.values entry hentry
    have hcomm := Value.alike_comm (isDict_constants.keys entry hentry) hkey
    rw [get?_erase isDict_constants.keys hkey, ← hcomm, if_pos halike] at hvalue
    cases hvalue
  · intro h
    rw [constants_erase h]
    exact holdsConstants_constants

end Layer

/-! ## What is written to the lowest layer -/

namespace Scope

variable {t : Scope}

/-- A scope is **grounded** if it has a lowest layer, and this layer holds the constants. -/
def Grounded (s : Scope) : Prop := ∃ layer, s.layers.getLast? = some layer ∧ layer.HoldsConstants

theorem grounded_iff : s.Grounded ↔ s.lowest.HoldsConstants := by
  unfold Grounded layers
  simp

theorem grounded_of_lowest (h : s.lowest = .constants) : s.Grounded := by
  rw [grounded_iff, h]
  exact Layer.holdsConstants_constants

theorem top_of_upper_nil (h : s.upper = []) : s.top = s.lowest := by
  rw [top, h]
  rfl

theorem get?_of_upper_nil (h : s.upper = []) (key : Value) : s.get? key = s.lowest.get? key := by
  rw [get?, layers, h, List.nil_append, List.findSome?_singleton]

theorem lowest_pop (h : s.pop = some (layer, t)) : t.lowest = s.lowest := by
  unfold pop at h
  split at h <;> cases h <;> rfl

theorem lowest_leave (s : Scope) (entered : Entered) : (s.leave entered).2.lowest = s.lowest := by
  cases entered with
  | layer =>
    unfold leave
    dsimp only
    split
    · next hpop => exact lowest_pop hpop
    · rfl
  | loop =>
    unfold leave leaveLoop
    dsimp only
    split
    · next hpop =>
      have hlowest := lowest_pop hpop
      exact hlowest
    · rfl
  | template => rfl

theorem lowest_modifyTop (s : Scope) (f : Layer → Layer) :
    (s.modifyTop f).lowest = if s.upper = [] then f s.lowest else s.lowest := by
  unfold modifyTop
  split
  · next h => rw [if_pos h]
  · next h => rw [if_neg (h ▸ List.cons_ne_nil _ _)]

/-- A variable is set in the lowest layer if no other layer has it and there is either no other layer
or it is set there. -/
theorem lowest_setUpward (s : Scope) (key v : Value) :
    (s.setUpward key v).lowest =
      if (∀ layer ∈ s.upper, layer.has key = false) ∧ (s.upper = [] ∨ s.lowest.has key = true) then
        s.lowest.set key v
      else s.lowest := by
  unfold setUpward
  cases hfirst : setFirst key v s.upper with
  | some upper =>
    have hhas : ¬ ∀ layer ∈ s.upper, layer.has key = false := by
      rw [← setFirst_eq_none (v := v), hfirst]
      exact Option.some_ne_none upper
    exact (if_neg fun h => hhas h.1).symm
  | none =>
    have hupper := setFirst_eq_none.1 hfirst
    dsimp only
    cases hhas : s.lowest.has key with
    | true => rw [if_pos rfl, if_pos ⟨hupper, .inr rfl⟩]
    | false =>
      rw [if_neg Bool.false_ne_true, set, lowest_modifyTop]
      simp only [Bool.false_eq_true, or_false]
      by_cases hempty : s.upper = []
      · rw [if_pos hempty, if_pos ⟨hupper, hempty⟩]
      · rw [if_neg hempty, if_neg fun h => hempty h.2]

end Scope

/-- An operation **spares** the constants of a scope if it sets and removes nothing in their layer, or
sets a constant to its own value. -/
def Operation.Spares (s : Scope) : Operation → Prop
  | .set key v => s.upper = [] → key.IsKey → Layer.constants.get? key = some v
  | .setDefault key _ => s.upper = [] → key.IsKey → (Layer.constants.get? key).isSome
  | .delete key => s.upper = [] → key.IsKey → Layer.constants.get? key = none
  | .setUpward key v =>
    (∀ layer ∈ s.upper, layer.has key = false) ∧ (s.upper = [] ∨ Layer.constants.has key = true) →
      key.IsKey → Layer.constants.get? key = some v
  | _ => True

/-- A layer that is made of the constants is **the same under a condition** if it is theirs if this
holds, and holds the constants only then. -/
structure Layer.SameIf (layer : Layer) (P : Prop) : Prop where
  same : P → layer = constants
  only : layer.HoldsConstants → P

namespace Layer.SameIf

theorem always : SameIf constants True := ⟨fun _ => rfl, fun _ => trivial⟩

theorem of_set (hkey : key.IsKey) : SameIf (constants.set key v) (constants.get? key = some v) :=
  ⟨constants_set, (holdsConstants_set_iff hkey).1⟩

theorem of_erase (hkey : key.IsKey) : SameIf (constants.erase key) (constants.get? key = none) :=
  ⟨constants_erase, (holdsConstants_erase_iff hkey).1⟩

theorem of_ite {C P : Prop} [Decidable C] (h : layer.SameIf P) :
    SameIf (if C then layer else constants) (C → P) := by
  by_cases hC : C
  · rw [if_pos hC]
    exact ⟨fun hP => h.same (hP hC), fun hlayer _ => h.only hlayer⟩
  · rw [if_neg hC]
    exact ⟨fun _ => rfl, fun _ hyes => absurd hyes hC⟩

theorem of_eq (h : layer = constants) : layer.SameIf True := by
  rw [h]
  exact always

theorem congr {P Q : Prop} (h : layer.SameIf P) (hiff : P ↔ Q) : layer.SameIf Q :=
  ⟨fun hQ => h.same (hiff.2 hQ), fun hlayer => hiff.1 (h.only hlayer)⟩

end Layer.SameIf

namespace Session

variable {s : Session}

theorem sameIf_delete (h : s.scope.lowest = .constants) (hkey : key.IsKey) :
    (s.perform (.delete key)).2.scope.lowest.SameIf (Operation.Spares s.scope (.delete key)) := by
  rw [perform, Scope.deleteSet, Value.checkKey_eq_ok.2 hkey]
  cases hhas : s.scope.top.has key with
  | true =>
    change (s.scope.modifyTop (·.erase key)).lowest.SameIf _
    rw [Scope.lowest_modifyTop, h]
    exact (Layer.SameIf.of_erase hkey).of_ite.congr (by simp [Operation.Spares, hkey])
  | false =>
    refine (Layer.SameIf.of_eq h).congr (iff_of_true trivial fun hupper _ => ?_)
    rw [Scope.top_of_upper_nil hupper, h, Layer.has_eq] at hhas
    exact Option.isNone_iff_eq_none.1 (Option.isSome_eq_false_iff.1 hhas)

theorem sameIf_setDefault (h : s.scope.lowest = .constants) (hkey : key.IsKey) (v : Value) :
    (s.perform (.setDefault key v)).2.scope.lowest.SameIf
      (Operation.Spares s.scope (.setDefault key v)) := by
  have hget (hupper : s.scope.upper = []) : s.scope.get? key = Layer.constants.get? key := by
    rw [Scope.get?_of_upper_nil hupper, h]
  rw [perform, withKey_of_isKey hkey, Scope.setDefault]
  cases hfound : s.scope.get? key with
  | some w =>
    refine (Layer.SameIf.of_eq h).congr (iff_of_true trivial fun hupper _ => ?_)
    rw [← hget hupper, hfound, Option.isSome_some]
  | none =>
    -- a key that is not found is no constant if the constants are the only layer
    change (s.scope.modifyTop (·.set key v)).lowest.SameIf _
    rw [Scope.lowest_modifyTop, h]
    refine (Layer.SameIf.of_set hkey).of_ite.congr (forall_congr' fun hupper => ?_)
    rw [← hget hupper, hfound]
    simp [hkey]

/-- **One operation** leaves the constants as they are exactly if it spares them. -/
theorem sameIf_perform (h : s.scope.lowest = .constants) (operation : Operation) :
    (s.perform operation).2.scope.lowest.SameIf (operation.Spares s.scope) := by
  -- an operation with a key that cannot be one does nothing
  have hrefused {key v : Value} (hkey : ¬ key.IsKey) {operation : Operation}
      (hmem : operation ∈ [Operation.get key, .getOr key v, .has key, .set key v, .setDefault key v,
        .setUpward key v, .delete key]) {P Q : Prop} :
      (s.perform operation).2.scope.lowest.SameIf (P → key.IsKey → Q) := by
    obtain ⟨e, he⟩ := Value.exists_of_not_isKey hkey
    rw [perform_of_not_isKey he v operation hmem]
    exact (Layer.SameIf.of_eq h).congr (iff_of_true trivial fun _ hyes => absurd hyes hkey)
  have hkept {t : Scope} (ht : t.lowest = s.scope.lowest) : t.lowest.SameIf True :=
    .of_eq (ht.trans h)
  cases operation with
  | set key v =>
    by_cases hkey : key.IsKey
    · rw [perform_set hkey, Scope.set, Scope.lowest_modifyTop, h]
      exact (Layer.SameIf.of_set hkey).of_ite.congr (by simp [Operation.Spares, hkey])
    · exact hrefused hkey (v := v) (by simp)
  | setUpward key v =>
    by_cases hkey : key.IsKey
    · rw [perform_setUpward hkey, Scope.lowest_setUpward, h]
      exact (Layer.SameIf.of_set hkey).of_ite.congr (by simp [Operation.Spares, hkey])
    · exact hrefused hkey (v := v) (by simp)
  | delete key =>
    by_cases hkey : key.IsKey
    · exact sameIf_delete h hkey
    · exact hrefused hkey (v := .none) (by simp)
  | setDefault key v =>
    by_cases hkey : key.IsKey
    · exact sameIf_setDefault h hkey v
    · exact hrefused hkey (v := v) (by simp)
  | push values named =>
    rw [perform]
    cases hvalues : s.scope.pushValues values named with
    | error e => exact hkept rfl
    | ok t =>
      obtain ⟨layer, rfl, -⟩ := Scope.exists_of_pushValues hvalues
      exact hkept rfl
  | update v =>
    rw [perform]
    cases Scope.updateLayer v <;> exact hkept rfl
  | pop =>
    rw [perform]
    split
    · next hpop => exact hkept (Scope.lowest_pop hpop)
    · exact hkept rfl
  | exit =>
    rw [perform]
    split
    · exact hkept rfl
    · exact hkept (Scope.lowest_leave _ _)
  | bindTemplate name =>
    unfold perform
    dsimp only
    split <;> exact hkept rfl
  | setCount count =>
    rw [perform]
    split
    · exact hkept rfl
    · refine hkept ?_
      unfold Scope.setCount
      split <;> rfl
  | _ => exact hkept rfl

/-- **Operations one after the other** leave the constants as they are at each step exactly if each of
them spares them in the scope that it is performed in. -/
theorem forall_grounded_iff (h : s.scope.lowest = .constants) (operations : List Operation) :
    (∀ performed, performed <+: operations → (s.performAll performed).2.scope.Grounded) ↔
      ∀ performed operation, performed ++ [operation] <+: operations →
        operation.Spares (s.performAll performed).2.scope := by
  induction operations generalizing s with
  | nil =>
    refine iff_of_true (fun performed hperformed => ?_) fun performed operation hperformed => ?_
    · rw [List.prefix_nil.1 hperformed]
      exact Scope.grounded_of_lowest h
    · cases List.append_ne_nil_of_right_ne_nil performed (List.cons_ne_nil operation [])
        (List.prefix_nil.1 hperformed)
  | cons first rest ih =>
    -- the step keeps the hypothesis of the induction: the constants are not only held but untouched
    have hstep := sameIf_perform h first
    constructor
    · intro hgrounded performed operation hperformed
      have hfirst : first.Spares s.scope :=
        hstep.only (Scope.grounded_iff.1 (hgrounded [first] (List.prefix_append [first] rest)))
      cases performed with
      | nil =>
        obtain ⟨rfl, -⟩ := List.cons_prefix_cons.1 hperformed
        exact hfirst
      | cons before performed =>
        obtain ⟨rfl, htail⟩ := List.cons_prefix_cons.1 hperformed
        refine (ih (hstep.same hfirst)).1 (fun done hdone => ?_) performed operation htail
        exact hgrounded (before :: done) (List.cons_prefix_cons.2 ⟨rfl, hdone⟩)
    · intro hspares performed hperformed
      have hfirst : first.Spares s.scope := hspares [] first (List.prefix_append [first] rest)
      cases performed with
      | nil => exact Scope.grounded_of_lowest h
      | cons before performed =>
        obtain ⟨rfl, htail⟩ := List.cons_prefix_cons.1 hperformed
        refine (ih (hstep.same hfirst)).2 (fun done operation hdone => ?_) performed htail
        exact hspares (before :: done) operation (List.cons_prefix_cons.2 ⟨rfl, hdone⟩)

/-- **The constants** of a new scope stay as they are at each step of a session exactly if each
operation spares them. -/
theorem grounded_throughout_iff (layer : Option Layer) (autoescape : Bool) (request : Option Request)
    (operations : List Operation) :
    let s : Session := ⟨.create layer autoescape request, []⟩
    (∀ performed, performed <+: operations → (s.performAll performed).2.scope.Grounded) ↔
      ∀ performed operation, performed ++ [operation] <+: operations →
        operation.Spares (s.performAll performed).2.scope := by
  refine forall_grounded_iff ?_ operations
  cases layer <;> rfl

/-- Without a layer of its own, a scope has its variables among the constants. In any scope a constant
can be set where it is set. -/
theorem not_grounded_set :
    (¬ ((⟨.create none true none, []⟩ : Session).performAll
      [.set (.str "x") (.int 1)]).2.scope.Grounded) ∧
    (¬ ((⟨.create none true none, []⟩ : Session).performAll
      [.delete (.str "True")]).2.scope.Grounded) ∧
    ¬ ((⟨.create (some []) true none, []⟩ : Session).performAll
      [.setUpward (.str "True") (.int 5)]).2.scope.Grounded := by
  refine ⟨fun h => ?_, fun h => ?_, fun h => ?_⟩
  · exact absurd (Scope.grounded_iff.1 h).length (by decide)
  · exact absurd (Scope.grounded_iff.1 h).length (by decide)
  · have htrue := (Scope.grounded_iff.1 h).values (.str "True", .bool true) (List.mem_cons_self ..)
    cases htrue

end Session

end Galley
