import Galley.Filter
import Galley.Proofs.Numerals
import Mathlib

/-!
# The widths that arguments ask for

A width is an integer of a machine word. A number asks for itself without its fraction, and any other
value for the integer that its text spells. Everything else is an error at the place of the argument.
There is no room for the decimal text of a very large integer, neither in an error nor to read it from.

* `Binary.truncate?_eq`, `Binary.natAbs_lt_of_truncate?`: a floating point number without its fraction,
  by its exact value.
* `Value.Width`: **the width that a value asks for**, or the error if there is none.
* `Value.HasRoom`: the values in which no integer is too long.
* `Value.width_toWidth_iff`: these values come to the width that they ask for, and no others do.
-/

namespace Galley

variable {v : Value} {a : Atom} {n : Int} {x : Float} {s : String} {outcome : Except Fault Int}

/-! ## Numbers without their fractions -/

namespace Binary

/-- The exact value of a finite number. -/
def value? : Binary → Option ℚ
  | finite negative mantissa exponent =>
    some (if negative then -(mantissa * 2 ^ exponent) else mantissa * 2 ^ exponent)
  | _ => none

/-- The integer next to a fraction on the side of zero. -/
def towardZero (q : ℚ) : Int := if 0 ≤ q then ⌊q⌋ else ⌈q⌉

theorem towardZero_neg {q : ℚ} (h : 0 ≤ q) : towardZero (-q) = -⌊q⌋ := by
  rcases h.eq_or_lt with rfl | hpos
  · simp [towardZero]
  · rw [towardZero, if_neg (by linarith), Int.ceil_neg]

/-- The digits of a number with its binary exponent, without those behind the point. -/
theorem floor_scaled (mantissa : Nat) (exponent : Int) : ⌊(mantissa * 2 ^ exponent : ℚ)⌋ =
    ((if exponent < 0 then mantissa / Nat.pow 2 (-exponent).toNat
      else mantissa * Nat.pow 2 exponent.toNat : Nat) : Int) := by
  split
  · next hneg =>
    have hexp : exponent = -((-exponent).toNat : Int) := by omega
    rw [hexp, zpow_neg, zpow_natCast, ← div_eq_mul_inv, neg_neg, Int.toNat_natCast]
    exact_mod_cast Rat.floor_natCast_div_natCast mantissa (2 ^ (-exponent).toNat)
  · next hpos =>
    have hexp : exponent = (exponent.toNat : Int) := by omega
    rw [hexp, zpow_natCast, Int.toNat_natCast]
    exact_mod_cast Int.floor_natCast (R := ℚ) (mantissa * 2 ^ exponent.toNat)

/-- **Truncation** goes by the exact value. -/
theorem truncate?_eq (b : Binary) : b.truncate? = b.value?.map towardZero := by
  cases b with
  | nan => rfl
  | infinite negative => rfl
  | finite negative mantissa exponent =>
    have hnonneg : (0 : ℚ) ≤ mantissa * 2 ^ exponent := by positivity
    cases negative with
    | false => simp [truncate?, value?, towardZero, hnonneg, floor_scaled]
    | true => simp [truncate?, value?, towardZero_neg hnonneg, floor_scaled]

/-- The parts of a finite number are bounded. -/
theorem bounds_of_decode {negative : Bool} {mantissa : Nat} {exponent : Int}
    (h : decode x = finite negative mantissa exponent) : mantissa < 2 ^ 53 ∧ exponent ≤ 971 := by
  have hfraction : x.toBits.toNat % Nat.pow 2 storedBits < 2 ^ 52 := Nat.mod_lt _ (by decide)
  have hexponent : x.toBits.toNat / Nat.pow 2 storedBits % 2048 < 2048 := Nat.mod_lt _ (by decide)
  have hstored : Nat.pow 2 storedBits = 2 ^ 52 := rfl
  unfold decode lowestExponent at h
  dsimp only at h
  split at h
  · split at h <;> cases h
  · split at h
    · cases h
      omega
    · cases h
      omega

/-- The number of binary digits that finite numbers can have in front of the point. -/
def digitLimit : Nat := 1024

/-- The integer next to a floating point number is not long. -/
theorem natAbs_lt_of_truncate? (h : (decode x).truncate? = some n) : n.natAbs < 2 ^ digitLimit := by
  cases hb : decode x with
  | nan => rw [hb] at h; cases h
  | infinite negative => rw [hb] at h; cases h
  | finite negative mantissa exponent =>
    obtain ⟨hmantissa, hexponent⟩ := bounds_of_decode hb
    rw [hb, truncate?] at h
    have hsize : (if exponent < 0 then mantissa / Nat.pow 2 (-exponent).toNat
        else mantissa * Nat.pow 2 exponent.toNat) < 2 ^ digitLimit := by
      by_cases hneg : exponent < 0
      · rw [if_pos hneg]
        calc mantissa / Nat.pow 2 (-exponent).toNat ≤ mantissa := Nat.div_le_self _ _
          _ < 2 ^ 53 := hmantissa
          _ ≤ 2 ^ digitLimit := Nat.pow_le_pow_right (by decide) (by decide)
      · rw [if_neg hneg]
        calc mantissa * 2 ^ exponent.toNat < 2 ^ 53 * 2 ^ exponent.toNat :=
            Nat.mul_lt_mul_of_pos_right hmantissa (Nat.two_pow_pos _)
          _ = 2 ^ (53 + exponent.toNat) := (Nat.pow_add 2 53 _).symm
          _ ≤ 2 ^ digitLimit := Nat.pow_le_pow_right (by decide) (by rw [digitLimit]; omega)
    rw [← Option.some.inj h]
    cases negative with
    | false =>
      rw [if_neg Bool.false_ne_true, Int.natAbs_natCast]
      exact hsize
    | true =>
      rw [if_pos rfl, Int.natAbs_neg, Int.natAbs_natCast]
      exact hsize

end Binary

/-! ## Widths -/

/-- Whether a value is a number. -/
def Value.isNumber : Value → Bool
  | .bool _ | .int _ | .float _ | .nan _ => true
  | _ => false

/-- The error of a width, at the place of the argument. -/
def badWidth (a : Atom) (cause : Cause) : Except Fault Int :=
  .error (.template (.here cause a.span))

/-- **What an integer comes to** as a width: itself if it fits into a machine word. -/
def widthOf (a : Atom) (n : Int) : Except Fault Int :=
  if -2 ^ 63 ≤ n ∧ n < 2 ^ 63 then .ok n else badWidth a (.integerOverflow n)

/-- How a value is shown in an error: between quotes if it was written as a text. -/
def Value.shownFor (v : Value) (a : Atom) : Except HostError String :=
  if a.isText then v.substitute "'" "'" else v.toText

/-- **The width that a value asks for** as an argument, or the error that there is none. The size of an
integer does not matter, nor does the number of its digits. -/
inductive Value.Width (a : Atom) : Value → Except Fault Int → Prop
  | bool (b : Bool) : Width a (.bool b) (.ok (if b then 1 else 0))
  | int (n : Int) : Width a (.int n) (widthOf a n)
  | float {x : Float} {q : ℚ} (h : (Binary.decode x).value? = some q) :
    Width a (.float x) (widthOf a (Binary.towardZero q))
  | notFinite {x : Float} (h : (Binary.decode x).value? = Option.none) :
    Width a (.float x) (badWidth a (.notFinite (floatText x)))
  | nan (number : Nat) : Width a (.nan number) (badWidth a (.notFinite "nan"))
  | spelled {v : Value} {s : String} {n : Int} {digits : List Nat} (hv : v.isNumber = false)
    (hs : v.text? = some s) (h : Integer.Spells s.toList n digits) : Width a v (widthOf a n)
  | notAnInteger {v : Value} {s shown : String} (hv : v.isNumber = false) (hs : v.text? = some s)
    (h : ∀ n digits, ¬Integer.Spells s.toList n digits) (hshown : v.shownFor a = .ok shown) :
    Width a v (badWidth a (.notAnInteger shown))

/-- **There is room for the integers of a value**: an integer has a decimal text, and any other value
has a text that spells no long integer, and can be shown if it spells none. -/
def Value.HasRoom (a : Atom) (v : Value) : Prop :=
  (∀ n, v = .int n → Integer.hasText n) ∧
  (v.isNumber = false → ∃ s, v.text? = some s ∧
    (∀ n digits, Integer.Spells s.toList n digits → digits.length ≤ Integer.digitLimit) ∧
    ((∀ n digits, ¬Integer.Spells s.toList n digits) → ∃ shown, v.shownFor a = .ok shown))

/-! ## Bounds -/

theorem decimalValue?_lt {c : Char} {d : Nat} (h : Text.decimalValue? c = some d) : d < 10 := by
  unfold Text.decimalValue? at h
  split at h
  · split at h
    · next hdigit =>
      cases h
      have : c.toNat ≤ '9'.toNat := (Char.isDigit_iff_toNat.1 hdigit).2
      have h9 : '9'.toNat = 57 := rfl
      have h0 : '0'.toNat = 48 := rfl
      omega
    · cases h
  · obtain ⟨low, -, rfl⟩ := Option.map_eq_some_iff.1 h
    exact Nat.mod_lt _ (by decide)

theorem hasText_of_natAbs_lt {k : Nat} (h : n.natAbs < 10 ^ k) (hk : k ≤ Integer.digitLimit) :
    Integer.hasText n := by
  rw [Integer.hasText, decide_eq_true_eq, Nat.pow_eq]
  refine h.trans_le ?_
  gcongr
  decide

theorem fitsWord_iff : Integer.fitsWord n ↔ -2 ^ 63 ≤ n ∧ n < 2 ^ 63 := by
  simp only [Integer.fitsWord, Bool.and_eq_true, decide_eq_true_eq]
  exact Iff.rfl

/-- What fits into a machine word is far from having no text. -/
theorem hasText_of_fitsWord (h : Integer.fitsWord n) : Integer.hasText n := by
  obtain ⟨hlow, hhigh⟩ := fitsWord_iff.1 h
  exact hasText_of_natAbs_lt (k := 19) (by omega) (by decide)

/-- So is a floating point number. -/
theorem hasText_of_truncate? (h : (Binary.decode x).truncate? = some n) : Integer.hasText n := by
  have hsize : n.natAbs < 10 ^ Binary.digitLimit :=
    (Binary.natAbs_lt_of_truncate? h).trans_le (Nat.pow_le_pow_left (by decide) _)
  exact hasText_of_natAbs_lt hsize (by decide)

theorem Integer.DigitRun.lt {text : List Char} {digits : List Nat}
    (h : Integer.DigitRun text digits) : ∀ d ∈ digits, d < 10 := by
  induction h with
  | last h => exact List.forall_mem_singleton.2 (decimalValue?_lt h)
  | next h _ ih => exact List.forall_mem_cons.2 ⟨decimalValue?_lt h, ih⟩
  | underscore h _ ih => exact List.forall_mem_cons.2 ⟨decimalValue?_lt h, ih⟩

/-- An integer of few digits has a text. -/
theorem Integer.Spells.hasText {text : List Char} {digits : List Nat}
    (h : Integer.Spells text n digits) (hlength : digits.length ≤ Integer.digitLimit) :
    Integer.hasText n := by
  obtain ⟨negative, -, -, hbody, -⟩ := h
  have hsize : Nat.ofDigits 10 digits.reverse < 10 ^ digits.reverse.length :=
    Nat.ofDigits_lt_base_pow_length (by decide) fun d hd => hbody.lt d (List.mem_reverse.1 hd)
  rw [List.length_reverse] at hsize
  have hnatAbs : (Integer.ofSign negative digits).natAbs = Nat.ofDigits 10 digits.reverse := by
    unfold Integer.ofSign
    cases negative <;> simp
  exact hasText_of_natAbs_lt (hnatAbs ▸ hsize) hlength

/-! ## What is come to -/

/-- What an integer comes to. -/
def bounded (a : Atom) (n : Int) : Except Fault Int :=
  if Integer.fitsWord n then .ok n
  else if Integer.hasText n then badWidth a (.integerOverflow n)
  else .error (.host .tooManyDigits)

theorem bounded_eq_widthOf_iff : bounded a n = widthOf a n ↔ Integer.hasText n := by
  unfold bounded widthOf
  by_cases h : Integer.fitsWord n
  · rw [if_pos h, if_pos (fitsWord_iff.1 h)]
    exact iff_of_true rfl (hasText_of_fitsWord h)
  · rw [if_neg h, if_neg (mt fitsWord_iff.2 h)]
    by_cases htext : Integer.hasText n
    · rw [if_pos htext]
      exact iff_of_true rfl htext
    · rw [if_neg htext]
      exact iff_of_false (by simp [badWidth]) htext

/-- What a value comes to that is not a number. -/
def readWidth (a : Atom) (v : Value) : Except Fault Int :=
  match v.text?.bind fun text => Integer.read? text.toList with
  | some n => bounded a n
  | none =>
    match v.shownFor a with
    | .ok shown => badWidth a (.notAnInteger shown)
    | .error e => .error (.host e)

theorem Value.toWidth_eq_readWidth (h : v.isNumber = false) : v.toWidth a = readWidth a v := by
  unfold Value.toWidth
  dsimp only
  split
  · cases h
  · cases h
  · cases h
  · cases h
  · rfl

/-! ## What is asked for -/

namespace Value

theorem toWidth_int (n : Int) (a : Atom) : (Value.int n).toWidth a = bounded a n := rfl

theorem toWidth_float (x : Float) (a : Atom) : (Value.float x).toWidth a =
    match (Binary.decode x).truncate? with
    | some n => bounded a n
    | Option.none => badWidth a (.notFinite (floatText x)) := rfl

theorem ne_int (h : v.isNumber = false) (n : Int) : v ≠ .int n := by
  rintro rfl
  cases h

theorem HasRoom.of_isNumber (h : v.isNumber) (hint : ∀ n, v = .int n → Integer.hasText n) :
    v.HasRoom a :=
  ⟨hint, fun hnot => absurd h (by rw [hnot]; exact Bool.false_ne_true)⟩

/-- A value that spells an integer is read as it if the integer is not too long. -/
theorem readWidth_of_spells {digits : List Nat} (hs : v.text? = some s)
    (h : Integer.Spells s.toList n digits) (hlength : digits.length ≤ Integer.digitLimit) :
    readWidth a v = widthOf a n := by
  have hread : Integer.read? s.toList = some n := Integer.read?_eq_some_iff.2 ⟨digits, h, hlength⟩
  rw [readWidth, hs, Option.bind_some, hread]
  exact bounded_eq_widthOf_iff.2 (h.hasText hlength)

/-- Otherwise it is an error that does not say how large the integer is. -/
theorem readWidth_of_unread (hs : v.text? = some s) (h : Integer.read? s.toList = Option.none) :
    readWidth a v = match v.shownFor a with
      | .ok shown => badWidth a (.notAnInteger shown)
      | .error e => .error (.host e) := by
  rw [readWidth, hs, Option.bind_some, h]

theorem read?_of_not_spells {text : List Char} (h : ∀ n digits, ¬Integer.Spells text n digits) :
    Integer.read? text = Option.none :=
  Integer.read?_eq_none_iff.2 fun n digits hspells => absurd hspells (h n digits)

/-- **A value in which no integer is too long** comes to the width that it asks for. -/
theorem HasRoom.width_toWidth (h : v.HasRoom a) : v.Width a (v.toWidth a) := by
  by_cases hnumber : v.isNumber
  · cases v with
    | bool b => exact .bool b
    | int n =>
      rw [toWidth_int, bounded_eq_widthOf_iff.2 (h.1 n rfl)]
      exact .int n
    | float x =>
      rw [toWidth_float]
      cases hvalue : (Binary.decode x).value? with
      | none =>
        rw [Binary.truncate?_eq, hvalue]
        exact .notFinite hvalue
      | some q =>
        have htruncate : (Binary.decode x).truncate? = some (Binary.towardZero q) := by
          rw [Binary.truncate?_eq, hvalue, Option.map_some]
        have hwidth : bounded a (Binary.towardZero q) = widthOf a (Binary.towardZero q) :=
          bounded_eq_widthOf_iff.2 (hasText_of_truncate? htruncate)
        rw [htruncate]
        dsimp only
        rw [hwidth]
        exact .float hvalue
    | nan number => exact .nan number
    | _ => cases hnumber
  · have hv : v.isNumber = false := Bool.eq_false_iff.2 hnumber
    rw [toWidth_eq_readWidth hv]
    obtain ⟨s, hs, hshort, hshown⟩ := h.2 hv
    by_cases hspells : ∃ n digits, Integer.Spells s.toList n digits
    · obtain ⟨n, digits, hspells⟩ := hspells
      rw [readWidth_of_spells hs hspells (hshort n digits hspells)]
      exact .spelled hv hs hspells
    · have hnone : ∀ n digits, ¬Integer.Spells s.toList n digits :=
        fun n digits h => hspells ⟨n, digits, h⟩
      obtain ⟨shown, hshown⟩ := hshown hnone
      rw [readWidth_of_unread hs (read?_of_not_spells hnone), hshown]
      exact .notAnInteger hv hs hnone hshown

/-- No other value does. -/
theorem Width.hasRoom (h : v.Width a outcome) (heq : v.toWidth a = outcome) : v.HasRoom a := by
  cases h with
  | bool b => exact .of_isNumber rfl nofun
  | int n =>
    refine .of_isNumber rfl fun m hm => ?_
    cases hm
    exact bounded_eq_widthOf_iff.1 heq
  | float h => exact .of_isNumber rfl nofun
  | notFinite h => exact .of_isNumber rfl nofun
  | nan number => exact .of_isNumber rfl nofun
  | @spelled _ s n digits hv hs hspells =>
    refine ⟨fun m hm => absurd hm (ne_int hv m), fun _ => ⟨s, hs, fun m others hother => ?_, ?_⟩⟩
    · obtain ⟨rfl, rfl⟩ := hspells.unique hother
      by_contra hlong
      -- a text that is not read does not come to the width of an integer
      have hnone : Integer.read? s.toList = Option.none :=
        Integer.read?_eq_none_iff.2 fun m others h' =>
          (hspells.unique h').2 ▸ Nat.lt_of_not_le hlong
      rw [toWidth_eq_readWidth hv, readWidth_of_unread hs hnone, widthOf] at heq
      split at heq <;> split at heq <;> simp [badWidth, TemplateError.here] at heq
    · exact fun hnot => absurd hspells (hnot n digits)
  | @notAnInteger _ s shown hv hs hnot hshown =>
    exact ⟨fun m hm => absurd hm (ne_int hv m), fun _ => ⟨s, hs,
      fun m others hother => absurd hother (hnot m others), fun _ => ⟨shown, hshown⟩⟩⟩

/-- **Widths are exact.** A value comes to the width that it asks for, whatever the argument is, unless
an integer is too long for a decimal text. -/
theorem width_toWidth_iff (v : Value) (a : Atom) : v.Width a (v.toWidth a) ↔ v.HasRoom a :=
  ⟨fun h => h.hasRoom rfl, HasRoom.width_toWidth⟩

/-- An integer without a text does not fit, but there is no room for the error that says so. -/
theorem int_of_not_hasText (a : Atom) (h : ¬Integer.hasText n) :
    Width a (.int n) (badWidth a (.integerOverflow n)) ∧
      (Value.int n).toWidth a = .error (.host .tooManyDigits) := by
  have hwide : ¬Integer.fitsWord n := mt hasText_of_fitsWord h
  have hwidth := Width.int (a := a) n
  rw [widthOf, if_neg (mt fitsWord_iff.2 hwide)] at hwidth
  rw [toWidth_int, bounded, if_neg hwide, if_neg h]
  exact ⟨hwidth, rfl⟩

/-- Zeros in front of a digit are too long for a width, and so is a large integer for its error. -/
theorem not_width_long :
    let a : Atom := .path ⟨2, 1⟩ "w" []
    let zeros := String.ofList (List.replicate 4300 '0' ++ ['5'])
    (Width a (.str zeros) (.ok 5) ∧ (Value.str zeros).toWidth a = badWidth a (.notAnInteger zeros) ∧
      ¬Width a (.str zeros) ((Value.str zeros).toWidth a)) ∧
    Width a (.int (10 ^ 4300)) (badWidth a (.integerOverflow (10 ^ 4300))) ∧
      (Value.int (10 ^ 4300)).toWidth a = .error (.host .tooManyDigits) := by
  intro a zeros
  have hliteral : IntegerLiteral zeros.toList 5 4301 := by
    rw [String.toList_ofList]
    exact integerLiteral_zeros 4300
  obtain ⟨digits, hspells, hlength⟩ := hliteral.spells
  have hlimit : Integer.digitLimit < digits.length := by
    rw [hlength]
    decide
  have hnone : Integer.read? zeros.toList = Option.none :=
    Integer.read?_eq_none_iff.2 fun m others hother => (hspells.unique hother).2 ▸ hlimit
  have hfive : Width a (.str zeros) (.ok 5) := by
    have hwidth : Width a (.str zeros) (widthOf a 5) := .spelled rfl rfl hspells
    rwa [widthOf, if_pos (by decide)] at hwidth
  have hread : (Value.str zeros).toWidth a = badWidth a (.notAnInteger zeros) := by
    rw [toWidth_eq_readWidth rfl, readWidth_of_unread rfl hnone]
    rfl
  refine ⟨⟨hfive, hread, fun hwidth => ?_⟩, ?_⟩
  · obtain ⟨s, hs, hshort, -⟩ := (hwidth.hasRoom rfl).2 rfl
    rw [← Option.some.inj hs] at hshort
    exact absurd (hshort 5 digits hspells) (Nat.not_le.2 hlimit)
  · exact int_of_not_hasText a (by decide +kernel)

end Value

end Galley
