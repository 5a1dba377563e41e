import Galley.Filter
import Galley.Proofs.Effects
import Mathlib

/-!
# Sums

The filter that adds is to come to a sum whatever it is given: to that of two integers if both values
convert to one, else to what the two values come to together, else to nothing. An infinity is neither
an integer nor a text that is none, and there the filter fails.

* `Value.Sum`: **what the sum of two values is.**
* `Value.Infinite`: an infinity.
* `Value.kind_of_toInteger`: why a value converts to no integer.
* `FilterUse.apply_add`: the filter comes to the sum, but for infinities.
-/

namespace Galley

open Rendering

variable {a b v : Value} {e : HostError} {s s' : Scope}

namespace Value

/-- A value **converts** to an integer. -/
def Converts (v : Value) : Prop := ∃ n, v.toInteger = .ok n

/-- **The sum of two values:** of the integers that they convert to, or of the values themselves if one
of them does not convert. Values that do not go together have none. -/
inductive Sum (a b : Value) : Option Value → Prop
  | integers {m n : Int} (ha : a.toInteger = .ok m) (hb : b.toInteger = .ok n) :
      Sum a b (some (.int (m + n)))
  | together {v : Value} (h : ¬ (a.Converts ∧ b.Converts)) (hv : a.add b = .ok v) : Sum a b (some v)
  | missing {e : HostError} (h : ¬ (a.Converts ∧ b.Converts)) (he : a.add b = .error e) :
      Sum a b Option.none

/-- A floating point number that is an **infinity**. -/
def Infinite (v : Value) : Prop :=
  ∃ x negative, v = .float x ∧ Binary.decode x = .infinite negative

/-- The error of converting an infinity to an integer. -/
def noInteger : HostError := .overflowError "cannot convert float infinity to integer"

/-! ## Why there is no integer -/

theorem toInteger_of_infinite (h : v.Infinite) : v.toInteger = .error noInteger := by
  obtain ⟨x, negative, rfl, hx⟩ := h
  rw [toInteger, hx]
  rfl

/-- **A value that converts to no integer** is an infinity, or its error is not one of size. -/
theorem kind_of_toInteger (h : v.toInteger = .error e) (hv : ¬ v.Infinite) :
    e.kind ≠ "OverflowError" := by
  have hvalue (text : String) : (HostError.valueError text).kind ≠ "OverflowError" := by
    change "ValueError" ≠ "OverflowError"
    decide
  have htype (text : String) : (HostError.typeError text).kind ≠ "OverflowError" := by
    change "TypeError" ≠ "OverflowError"
    decide
  cases v with
  | bool b => cases h
  | int n => cases h
  | float x =>
    rw [toInteger] at h
    cases hx : Binary.decode x with
    | nan =>
      rw [hx] at h
      cases h
      exact hvalue _
    | infinite negative => exact absurd ⟨x, negative, rfl, hx⟩ hv
    | finite negative mantissa exponent =>
      rw [hx] at h
      cases h
  | text kind s =>
    rw [toInteger] at h
    cases hs : Integer.read? s.toList with
    | some n =>
      rw [hs] at h
      cases h
    | none =>
      rw [hs] at h
      cases h
      exact hvalue _
  | bytes number data =>
    rw [toInteger] at h
    split at h
    · split at h
      · cases h
      · cases h
        exact hvalue _
    · cases h
      exact hvalue _
  | nan number =>
    cases h
    exact hvalue _
  | _ =>
    cases h
    exact htype _

/-! ## The sum -/

/-- There is an infinity in the way of a sum: the first value is one, or the second is and the first
converts to an integer. -/
def NoSum (a b : Value) : Prop := a.Infinite ∨ a.Converts ∧ b.Infinite

theorem sumOrMissing_of_noSum (h : a.NoSum b) : a.sumOrMissing b = .error noInteger := by
  unfold sumOrMissing
  rcases h with ha | ⟨⟨m, ha⟩, hb⟩
  · rw [toInteger_of_infinite ha]
    rfl
  · rw [ha, toInteger_of_infinite hb]
    rfl

/-- **There is a sum** unless an infinity is in its way. -/
theorem exists_sum (h : ¬ a.NoSum b) : ∃ r, a.sumOrMissing b = .ok r ∧ Sum a b r := by
  obtain ⟨ha, hb⟩ := not_or.1 h
  -- without two integers the values themselves are added
  have hrest (hconverts : ¬ (a.Converts ∧ b.Converts)) : Sum a b (a.add b).toOption := by
    cases hadd : a.add b with
    | ok v => exact .together hconverts hadd
    | error e => exact .missing hconverts hadd
  unfold sumOrMissing
  cases hm : a.toInteger with
  | error e =>
    refine ⟨_, ?_, hrest fun ⟨⟨m, hok⟩, _⟩ => by rw [hm] at hok; cases hok⟩
    exact if_neg (kind_of_toInteger hm ha)
  | ok m =>
    cases hn : b.toInteger with
    | ok n => exact ⟨_, rfl, .integers hm hn⟩
    | error e =>
      refine ⟨_, ?_, hrest fun ⟨_, ⟨n, hok⟩⟩ => by rw [hn] at hok; cases hok⟩
      exact if_neg (kind_of_toInteger hn fun hinfinite => hb ⟨⟨m, hm⟩, hinfinite⟩)

end Value

/-! ## The filter -/

theorem FilterUse.run_apply_add (span : Span) {argument : Atom} (value : Value) {other : Value}
    (h : argument.resolvePresent.run.run s = (.ok other, s')) :
    (FilterUse.apply ⟨span, .builtin .add, some argument⟩ (some value)).run.run s =
      (ofHost ((s'.current value).sumOrMissing other), s') := by
  have hgiven : (FilterUse.given ⟨span, .builtin .add, some argument⟩ (some value)).run.run s =
      (.ok (some ⟨argument, other⟩), s') := by
    change (argument.resolvePresent >>= fun v => pure (some (Argument.mk argument v))).run.run s = _
    rw [run_bind, h]
    rfl
  unfold apply
  rw [run_bind, hgiven]
  change (Rendering.ofExcept (BuiltinFilter.add.apply _ (some (s'.current value)))).run.run s' = _
  rw [run_ofExcept]
  rfl

/-- **The filter that adds** comes to the sum of a value and an argument that exists exactly if there is
no infinity in its way, and else to an error. It comes to nothing for a missing value, whatever its
argument is. -/
theorem FilterUse.apply_add (span : Span) (argument : Atom) (value : Value) {other : Value}
    (h : argument.resolvePresent.run.run s = (.ok other, s')) :
    ((∃ r, (FilterUse.apply ⟨span, .builtin .add, some argument⟩ (some value)).run.run s = (.ok r, s') ∧
        Value.Sum (s'.current value) other r) ↔
      ¬ (s'.current value).NoSum other) ∧
    ((s'.current value).NoSum other →
      (FilterUse.apply ⟨span, .builtin .add, some argument⟩ (some value)).run.run s =
        (.error (.host Value.noInteger), s')) ∧
    (FilterUse.apply ⟨span, .builtin .add, some argument⟩ none).run.run s = (.ok none, s) := by
  rw [run_apply_add span value h]
  refine ⟨⟨?_, fun hsum => ?_⟩, fun hsum => ?_, rfl⟩
  · rintro ⟨r, hrun, -⟩ hsum
    rw [Value.sumOrMissing_of_noSum hsum] at hrun
    cases hrun
  · obtain ⟨r, hr, hsum⟩ := Value.exists_sum hsum
    refine ⟨r, ?_, hsum⟩
    rw [hr]
    rfl
  · rw [Value.sumOrMissing_of_noSum hsum]
    rfl

/-- Three, written as a text, and two. -/
theorem FilterUse.apply_add_text :
    (Atom.int ⟨8, 1⟩ 2).resolvePresent.run.run {} = (.ok (.int 2), {}) ∧
    ∃ r, (FilterUse.apply ⟨⟨4, 5⟩, .builtin .add, some (.int ⟨8, 1⟩ 2)⟩ (some (.str "3"))).run.run {} =
        (.ok r, {}) ∧
      Value.Sum (.str "3") (.int 2) r := by
  refine ⟨rfl, (FilterUse.apply_add ⟨4, 5⟩ (.int ⟨8, 1⟩ 2) (.str "3") rfl).1.2 ?_⟩
  rintro (⟨x, negative, hx, -⟩ | ⟨-, x, negative, hx, -⟩)
  · cases hx
  · cases hx

/-- An infinity and one. -/
theorem FilterUse.apply_add_infinity :
    ¬ ∃ r, (FilterUse.apply ⟨⟨4, 5⟩, .builtin .add, some (.int ⟨8, 1⟩ 1)⟩
      (some (.float (1.0 / 0.0)))).run.run {} = (.ok r, {}) := by
  have hinfinite : Value.Infinite (.float (1.0 / 0.0)) := ⟨_, false, rfl, by decide +kernel⟩
  rintro ⟨r, hrun⟩
  have hargument : (Atom.int ⟨8, 1⟩ 1).resolvePresent.run.run {} = (.ok (.int 1), {}) := rfl
  rw [FilterUse.run_apply_add _ _ hargument] at hrun
  change (ofHost (Value.sumOrMissing (.float (1.0 / 0.0)) (.int 1)), _) = _ at hrun
  rw [Value.sumOrMissing_of_noSum (.inl hinfinite)] at hrun
  cases hrun

end Galley
