import Galley.Proofs.Widths
import Galley.Value.Compare
import Mathlib

/-!
# Numbers by their exact values

Integers and floating point numbers compare without rounding: two numbers are equal exactly if they have
one exact value, whatever their kinds are. So equality of numbers is symmetric and transitive, and what is
not a number is equal to nothing.

* `Binary.decode_eq_ofUnpacked`: a floating point number taken apart is what its arithmetic works on.
* `Binary.IsNormal.unique`: one exact value has one mantissa and one exponent.
* `Value.Number.eq_iff`: **numbers are equal if their exact values are.**
-/

namespace Galley

open Float.Model Float.Model.UnpackedFloat

namespace Binary

/-! ## Floating point numbers taken apart -/

/-- A floating point number in the form that the arithmetic of floating point numbers works on. -/
def ofUnpacked : UnpackedFloat → Binary
  | .notANumber => nan
  | .infinity sign => infinite (sign == .negative)
  | .zero sign => finite (sign == .negative) 0 lowestExponent
  | .finite sign mantissa exponent _ => finite (sign == .negative) mantissa exponent

theorem toNat_unpackExponent (b : BitVec Format.binary64.numBits) :
    (unpackExponent b).toNat = b.toNat / 2 ^ 52 % 2048 := by
  simp [unpackExponent, BitVec.extractLsb, BitVec.extractLsb'_toNat, Nat.shiftRight_eq_div_pow]

theorem toNat_unpackMantissa (b : BitVec Format.binary64.numBits) :
    (unpackMantissa b).toNat = b.toNat % 2 ^ 52 := by
  simp [unpackMantissa, BitVec.extractLsb, BitVec.extractLsb'_toNat]

theorem unpackSign_negative (b : BitVec Format.binary64.numBits) :
    (Sign.ofBitVec (unpackSign b) == .negative) = (b.toNat / 2 ^ 63 == 1) := by
  have hlt : b.toNat < 2 ^ 64 := b.isLt
  have hsign : (unpackSign b).toNat = b.toNat / 2 ^ 63 := by
    simp [unpackSign, BitVec.extractLsb, BitVec.extractLsb'_toNat, Nat.shiftRight_eq_div_pow]
    omega
  unfold Sign.ofBitVec
  by_cases hzero : unpackSign b = 0#1
  · have h0 : b.toNat / 2 ^ 63 = 0 := by rw [← hsign, hzero]; rfl
    rw [if_pos hzero, h0]
    rfl
  · have h1 : b.toNat / 2 ^ 63 = 1 := by
      have hne : b.toNat / 2 ^ 63 ≠ 0 := by
        rw [← hsign]
        exact fun h => hzero (BitVec.eq_of_toNat_eq h)
      omega
    rw [if_neg hzero, h1]
    rfl

theorem decode_eq_ofUnpacked (x : Float) : decode x = ofUnpacked x.toModel.unpack := by
  set b : BitVec Format.binary64.numBits := x.toModel.toBits.toBitVec with hb
  have hbits : x.toBits.toNat = b.toNat := rfl
  have hexponent := toNat_unpackExponent b
  have hmantissa := toNat_unpackMantissa b
  have hsign := unpackSign_negative b
  have hall : unpackExponent b = -1#_ ↔ b.toNat / 2 ^ 52 % 2048 = 2047 := by
    rw [← BitVec.toNat_inj, hexponent]; rfl
  have hnone : unpackExponent b = 0#_ ↔ b.toNat / 2 ^ 52 % 2048 = 0 := by
    rw [← BitVec.toNat_inj, hexponent]; rfl
  have hzero : unpackMantissa b = 0#_ ↔ b.toNat % 2 ^ 52 = 0 := by
    rw [← BitVec.toNat_inj, hmantissa]; rfl
  have hone : (1#1 ++ unpackMantissa b).toNat = b.toNat % 2 ^ 52 + 2 ^ 52 := by
    have hlt : (unpackMantissa b).toNat < 2 ^ 52 := (unpackMantissa b).isLt
    rw [BitVec.toNat_append, ← hmantissa, Nat.add_comm]
    exact (Nat.two_pow_add_eq_or_of_lt hlt 1).symm
  have hstored : Nat.pow 2 storedBits = 2 ^ 52 := rfl
  have htop : Nat.pow 2 63 = 2 ^ 63 := rfl
  -- both sides ask the same questions: all bits of the exponent set, or none of them, or some
  unfold decode Float.Model.unpack UnpackedFloat.unpack
  rw [← hb]
  simp only [hall, hnone, hzero, hbits, hstored, htop, ← hsign]
  split
  · split <;> rfl
  · split
    · split
      · next h => rw [h]; rfl
      · next hsubnormal _ =>
        rw [ofUnpacked, hmantissa, hexponent, hsubnormal]
        rfl
    · have hbias : (Format.binary64.exponentBias : Int) = 1023 := by decide
      rw [ofUnpacked, hone, hexponent, hbias, lowestExponent]
      congr 1
      push_cast
      omega

/-! ## Exact values -/

/-- **The exact value** of a number: the side on which it is infinite, or a fraction. What is not a
number has none. -/
def quantity? : Binary → Option (Bool ⊕ ℚ)
  | nan => none
  | infinite negative => some (.inl negative)
  | finite negative mantissa exponent => ((finite negative mantissa exponent).value?).map .inr

/-- A mantissa and an exponent as a floating point number has them: as many digits as are stored, unless
the exponent is the lowest. -/
structure IsNormal (mantissa : Nat) (exponent : Int) : Prop where
  lt : mantissa < 2 ^ 53
  lowest_le : lowestExponent ≤ exponent
  full : exponent = lowestExponent ∨ 2 ^ 52 ≤ mantissa

theorem isNormal_of_decode {x : Float} {negative : Bool} {mantissa : Nat} {exponent : Int}
    (h : decode x = finite negative mantissa exponent) : IsNormal mantissa exponent := by
  have hstored : Nat.pow 2 storedBits = 2 ^ 52 := rfl
  have hfraction : x.toBits.toNat % 2 ^ 52 < 2 ^ 52 := Nat.mod_lt _ (by decide)
  unfold decode at h
  simp only [hstored] at h
  split at h
  · split at h <;> cases h
  · split at h
    · cases h
      exact ⟨by omega, le_rfl, .inl rfl⟩
    · cases h
      exact ⟨by omega, by omega, .inr (by omega)⟩

/-- Two such numbers of one size have one mantissa and one exponent. -/
theorem IsNormal.unique {m n : Nat} {e f : Int} (hm : IsNormal m e) (hn : IsNormal n f)
    (h : (m * 2 ^ e : ℚ) = n * 2 ^ f) : m = n ∧ e = f := by
  wlog hle : e ≤ f generalizing m n e f
  · obtain ⟨hmantissa, hexponent⟩ := this hn hm h.symm (by omega)
    exact ⟨hmantissa.symm, hexponent.symm⟩
  obtain ⟨k, rfl⟩ : ∃ k : Nat, f = e + k := ⟨(f - e).toNat, by omega⟩
  have hpow : (0 : ℚ) < 2 ^ e := by positivity
  have hscaled : m = n * 2 ^ k := by
    rw [zpow_add₀ (by decide), zpow_natCast, mul_comm ((2 : ℚ) ^ e), ← mul_assoc] at h
    exact_mod_cast mul_right_cancel₀ hpow.ne' h
  -- with a larger exponent the mantissa of the first number would need more digits than are stored
  cases k with
  | zero => exact ⟨by simpa using hscaled, by simp⟩
  | succ k =>
    have hfull : 2 ^ 52 ≤ n := by
      rcases hn.full with hlowest | hfull
      · have := hm.lowest_le
        push_cast at hlowest
        omega
      · exact hfull
    have hlarge : 2 ^ 53 ≤ m := by
      calc 2 ^ 53 = 2 ^ 52 * 2 := by norm_num
        _ ≤ n * 2 ^ (k + 1) := Nat.mul_le_mul hfull (Nat.le_self_pow (by omega) 2)
        _ = m := hscaled.symm
    exact absurd hm.lt (by omega)

/-- Floating point numbers are equal if their exact values are. -/
theorem compare_eq_iff {u v : UnpackedFloat}
    (hu : ∀ s m e hm, u = .finite s m e hm → IsNormal m e)
    (hv : ∀ s m e hm, v = .finite s m e hm → IsNormal m e) :
    u.compare v = some .eq ↔
      ∃ q, (ofUnpacked u).quantity? = some q ∧ (ofUnpacked v).quantity? = some q := by
  have hpos {m : Nat} (e : Int) (hm : 0 < m) : (0 : ℚ) < m * 2 ^ e := by positivity
  have hsize {m n : Nat} {e f : Int} (hm : IsNormal m e) (hn : IsNormal n f) :
      e = f ∧ m = n ↔ (n * 2 ^ f : ℚ) = m * 2 ^ e := by
    constructor
    · rintro ⟨rfl, rfl⟩
      rfl
    · intro h
      obtain ⟨rfl, rfl⟩ := hm.unique hn h.symm
      exact ⟨rfl, rfl⟩
  cases u with
  | notANumber => simp [UnpackedFloat.compare, ofUnpacked, quantity?]
  | infinity s =>
    cases v with
    | infinity t =>
      cases s <;> cases t <;> simp [UnpackedFloat.compare, ofUnpacked, quantity?] <;> rfl
    | notANumber | zero t | finite t n f hn =>
      cases s <;> simp [UnpackedFloat.compare, ofUnpacked, quantity?, value?]
  | zero s =>
    cases v with
    | notANumber | zero t => simp [UnpackedFloat.compare, ofUnpacked, quantity?, value?]
    | infinity t => cases t <;> simp [UnpackedFloat.compare, ofUnpacked, quantity?, value?]
    | finite t n f hn =>
      have := (hpos f hn).ne'
      cases t <;> simpa [UnpackedFloat.compare, ofUnpacked, quantity?, value?] using this
  | finite s m e hm =>
    cases v with
    | notANumber => simp [UnpackedFloat.compare, ofUnpacked, quantity?]
    | infinity t => cases t <;> simp [UnpackedFloat.compare, ofUnpacked, quantity?, value?]
    | zero t =>
      have := (hpos e hm).ne'
      cases s <;> simpa [UnpackedFloat.compare, ofUnpacked, quantity?, value?] using this
    | finite t n f hn =>
      have hm' := hpos e hm
      have hn' := hpos f hn
      have hsame := hsize (hu s m e hm rfl) (hv t n f hn rfl)
      cases s with
      | negative =>
        cases t with
        | negative => simpa [UnpackedFloat.compare, ofUnpacked, quantity?, value?] using hsame
        | positive =>
          have hne : ¬(n * 2 ^ f : ℚ) = -(m * 2 ^ e) := by linarith
          simpa [UnpackedFloat.compare, ofUnpacked, quantity?, value?] using hne
      | positive =>
        cases t with
        | negative =>
          have hne : ¬-(n * 2 ^ f : ℚ) = m * 2 ^ e := by linarith
          simpa [UnpackedFloat.compare, ofUnpacked, quantity?, value?] using hne
        | positive => simpa [UnpackedFloat.compare, ofUnpacked, quantity?, value?] using hsame

theorem beq_iff_quantity? (x y : Float) :
    (x == y) ↔ ∃ q, (decode x).quantity? = some q ∧ (decode y).quantity? = some q := by
  have hnormal (x : Float) : ∀ s m e hm, x.toModel.unpack = .finite s m e hm → IsNormal m e := by
    intro s m e hm h
    have hdecode : decode x = finite (s == .negative) m e := by
      rw [decode_eq_ofUnpacked, h, ofUnpacked]
    exact isNormal_of_decode hdecode
  rw [decode_eq_ofUnpacked, decode_eq_ofUnpacked, ← compare_eq_iff (hnormal x) (hnormal y)]
  change (x.toModel.unpack.compare y.toModel.unpack == some .eq) = true ↔ _
  rw [beq_iff_eq]

theorem not_lt_of_beq {x y : Float} (h : x == y) : ¬x < y := by
  intro hlt
  have heq : x.toModel.unpack.compare y.toModel.unpack = some .eq := beq_iff_eq.1 h
  have hless : (x.toModel.unpack.compare y.toModel.unpack == some .lt) = true :=
    of_decide_eq_true hlt
  rw [heq] at hless
  cases hless

/-- An integer is equal to the number with its value. -/
theorem compareInt?_eq_iff (n : Int) (b : Binary) :
    b.compareInt? n = some .eq ↔ b.quantity? = some (.inr n) := by
  cases b with
  | nan => simp [compareInt?, quantity?]
  | infinite negative => cases negative <;> simp [compareInt?, quantity?]
  | finite negative m e =>
    set signed : Int := if negative then -(m : Int) else m with hsigned
    have hvalue : (finite negative m e).value? = some ((signed : ℚ) * 2 ^ e) := by
      cases negative <;> simp [value?, hsigned]
    rw [quantity?, hvalue, compareInt?]
    simp only [← hsigned, Option.map_some, Option.some.injEq, Sum.inr.injEq]
    split
    · next hneg =>
      obtain ⟨k, rfl⟩ : ∃ k : Nat, e = -k := ⟨(-e).toNat, by omega⟩
      have hpow : (0 : ℚ) < 2 ^ k := by positivity
      rw [Int.compare_eq_eq, neg_neg, Int.toNat_natCast, zpow_neg, zpow_natCast,
        ← div_eq_mul_inv, div_eq_iff hpow.ne']
      constructor <;> intro h <;> exact_mod_cast h.symm
    · next hpos =>
      obtain ⟨k, rfl⟩ : ∃ k : Nat, e = k := ⟨e.toNat, by omega⟩
      rw [Int.compare_eq_eq, Int.toNat_natCast, zpow_natCast]
      constructor <;> intro h <;> exact_mod_cast h.symm

end Binary

namespace Value.Number

/-- The exact value of a number. -/
def quantity? : Number → Option (Bool ⊕ ℚ)
  | int n => some (.inr n)
  | float x => (Binary.decode x).quantity?

/-- **Numbers are equal if their exact values are**, whatever their kinds are. -/
theorem eq_iff (a b : Number) : a.eq b ↔ ∃ q, a.quantity? = some q ∧ b.quantity? = some q := by
  unfold Number.eq
  rw [beq_iff_eq]
  cases a with
  | int m =>
    cases b with
    | int n =>
      rw [compare?, Option.some.injEq, Int.compare_eq_eq]
      simp [quantity?, eq_comm]
    | float y => simp [compare?, quantity?, Binary.compareInt?_eq_iff]
  | float x =>
    cases b with
    | int n =>
      have hswap (o : Option Ordering) : o.map Ordering.swap = some .eq ↔ o = some .eq := by
        rcases o with _ | _ | _ | _ <;> simp
      rw [compare?, hswap, Binary.compareInt?_eq_iff]
      simp [quantity?]
    | float y =>
      have hlt := Binary.not_lt_of_beq (x := x) (y := y)
      rw [quantity?, quantity?, ← Binary.beq_iff_quantity?, compare?]
      by_cases h : x == y
      · rw [if_neg (hlt h), if_pos h]
        exact iff_of_true rfl h
      · rw [if_neg h]
        refine iff_of_false ?_ h
        split
        · exact nofun
        · split <;> exact nofun

end Value.Number

end Galley
