import Galley.Proofs.Integers

/-!
# Numbers as they are written

A number is cut out of a tag as a run of digits, points, dashes and the letter `e`, in which a dash can
stand in front only. Such a run is an integer if it consists of digits behind a dash or none, and a
decimal if it has a point or an exponent besides. An integer with too many digits is not read as one,
and then it is taken for a decimal.

* `IntegerLiteral`, `IsDecimal`: the two forms, and what an integer denotes.
* `Cursor.slice_numeral`: the runs that are cut out.
* `IsNumeral.integer_read?_iff`, `IsNumeral.isSome_read?_iff`: which of them are read as integers, and
  which as decimals.
* `Reader.KeepsValue`: a run whose value is kept.
* `Reader.keepsValue_iff`: **the value of every number is kept, unless it is an integer with too many
  digits.**
-/

namespace Galley

open Text

variable {text rest digits whole places exponent : List Char} {c : Char} {n : Int} {length : Nat}
  {span : Span} {r : Reader}

/-! ## Two forms of numbers -/

/-- **An integer as it is written**, with its value and the number of its digits: digits, at least one
of them, behind a dash or none. -/
inductive IntegerLiteral : List Char → Int → Nat → Prop
  | plain {digits : List Char} (hne : digits ≠ []) (h : ∀ c ∈ digits, c.isDigit) :
    IntegerLiteral digits (Nat.ofDigitChars 10 digits 0 : Nat) digits.length
  | negative {digits : List Char} (hne : digits ≠ []) (h : ∀ c ∈ digits, c.isDigit) :
    IntegerLiteral ('-' :: digits) (-(Nat.ofDigitChars 10 digits 0 : Nat)) digits.length

/-- The letter `e` with digits behind it, at least one of them, or nothing. -/
inductive IsExponent : List Char → Prop
  | nil : IsExponent []
  | mk {digits : List Char} (hne : digits ≠ []) (h : ∀ c ∈ digits, c.isDigit) :
    IsExponent ('e' :: digits)

/-- **Digits with a point or an exponent**: the digits before and behind the point are at least one. -/
inductive IsFraction : List Char → Prop
  | point {whole places exponent : List Char} (hwhole : ∀ c ∈ whole, c.isDigit)
    (hplaces : ∀ c ∈ places, c.isDigit) (hne : whole ≠ [] ∨ places ≠ []) (hexp : IsExponent exponent) :
    IsFraction (whole ++ '.' :: (places ++ exponent))
  | exponent {whole exponent : List Char} (hwhole : ∀ c ∈ whole, c.isDigit) (hne : whole ≠ [])
    (hexp : IsExponent exponent) (hmark : exponent ≠ []) : IsFraction (whole ++ exponent)

/-- **A decimal**: digits with a point or an exponent, behind a dash or none. -/
inductive IsDecimal : List Char → Prop
  | plain {text : List Char} (h : IsFraction text) : IsDecimal text
  | negative {text : List Char} (h : IsFraction text) : IsDecimal ('-' :: text)

/-- A run of the characters of numbers, in which a dash stands in front only. -/
structure IsNumeral (text : List Char) : Prop where
  numeric : ∀ c ∈ text, Cursor.isNumeric c
  dash : ∀ c ∈ text.tail, c ≠ '-'

/-- **What is cut out** at a cursor is such a run. -/
theorem Cursor.slice_numeral {cursor : Cursor} {source : List Char} (h : cursor.Reads source) :
    IsNumeral (cursor.numeral.1.slice source) := by
  obtain ⟨text, hwritten, hbehind, hspan⟩ := cursor.readAs_numeral
  have hle : text.length ≤ cursor.rest.length := by
    rw [hbehind.1, List.length_append]
    exact Nat.le_add_right _ _
  have hslice : cursor.numeral.1.slice source = text := by
    rw [hspan, h.slice_ahead hle, hbehind.1, List.take_left]
  rw [hslice]
  exact ⟨hwritten.1, hwritten.2⟩

/-- Digits are cut out up to where no number goes on. -/
theorem Cursor.numeral_of_isDigit {start : Nat} (h : ∀ c ∈ digits, c.isDigit)
    (hrest : ∀ c ∈ rest.head?, Cursor.isNumeric c = false) :
    (⟨start, digits ++ rest⟩ : Cursor).numeral.1 = ⟨start, digits.length⟩ := by
  have hlength : Cursor.numeralLength (digits ++ rest) = digits.length := by
    cases digits with
    | nil =>
      cases rest with
      | nil => rfl
      | cons c rest => exact if_neg (by simp [hrest c rfl])
    | cons first digits =>
      obtain ⟨hfirst, htail⟩ := List.forall_mem_cons.1 h
      rw [List.cons_append, Cursor.numeralLength, if_pos (isNumeric_of_isDigit hfirst), takeWhile_ended]
      · rfl
      · intro c hc
        have hdash : c ≠ '-' := by
          rintro rfl
          exact absurd (htail _ hc) (by decide)
        simp [isNumeric_of_isDigit (htail c hc), hdash]
      · intro c hc
        simp [hrest c hc]
  rw [Cursor.numeral, hlength]
  rfl

/-! ## Characters -/

/-- What may stand behind the first character. -/
def IsTail (text : List Char) : Prop := ∀ c ∈ text, Cursor.isNumeric c ∧ c ≠ '-'

theorem cases_of_isNumeric (h : Cursor.isNumeric c) (hdash : c ≠ '-') :
    c.isDigit ∨ c = '.' ∨ c = 'e' := by
  simpa [Cursor.isNumeric, hdash, or_assoc] using h

theorem isNumberBlank_of_isNumeric (h : Cursor.isNumeric c) : Integer.isNumberBlank c = false := by
  by_cases hdash : c = '-'
  · rw [hdash]
    rfl
  · rcases cases_of_isNumeric h hdash with hdigit | rfl | rfl
    · exact Integer.not_isNumberBlank (.inr hdigit)
    · rfl
    · rfl

/-- A run without a dash in front has none at all. -/
theorem IsNumeral.isTail_tail (h : IsNumeral text) : IsTail text.tail :=
  fun c hc => ⟨h.numeric c (List.mem_of_mem_tail hc), h.dash c hc⟩

theorem IsNumeral.isTail (h : IsNumeral text) (hhead : ∀ c ∈ text.head?, c ≠ '-') : IsTail text := by
  cases text with
  | nil => exact fun c hc => absurd hc List.not_mem_nil
  | cons first rest =>
    exact List.forall_mem_cons.2 ⟨⟨h.numeric first List.mem_cons_self, hhead first rfl⟩, h.isTail_tail⟩

/-! ## Integers -/

theorem Integer.digitRun_of_isDigit (hne : digits ≠ []) (h : ∀ c ∈ digits, c.isDigit) :
    Integer.DigitRun digits (digits.map fun c => c.toNat - '0'.toNat) :=
  Integer.digits?_eq_some_iff.1 (Integer.digits?_of_isDigit hne h)

theorem Integer.ofDigits_values (digits : List Char) :
    Nat.ofDigits 10 (digits.map fun c => c.toNat - '0'.toNat).reverse = Nat.ofDigitChars 10 digits 0 := by
  rw [← Integer.ofDigits_eq, Integer.ofDigits, List.foldl_map]
  rfl

/-- The digits of a number are the digits that every number is written with. -/
theorem Integer.DigitRun.isDigit {values : List Nat} (h : Integer.DigitRun text values)
    (hnumeric : ∀ c ∈ text, Cursor.isNumeric c) : text ≠ [] ∧ ∀ c ∈ text, c.isDigit := by
  have hdigit {c : Char} {d : Nat} (hvalue : decimalValue? c = some d) (hc : Cursor.isNumeric c) :
      c.isDigit := by
    have hdash : c ≠ '-' := by rintro rfl; cases hvalue
    rcases cases_of_isNumeric hc hdash with hdigit | rfl | rfl
    · exact hdigit
    · cases hvalue
    · cases hvalue
  induction h with
  | last h => simpa using hdigit h (hnumeric _ List.mem_cons_self)
  | next h hrest ih =>
    obtain ⟨hfirst, hlater⟩ := List.forall_mem_cons.1 hnumeric
    exact ⟨List.cons_ne_nil _ _, List.forall_mem_cons.2 ⟨hdigit h hfirst, (ih hlater).2⟩⟩
  | underscore h hrest ih => exact absurd (hnumeric '_' (by simp)) (by decide)

theorem IntegerLiteral.spells (h : IntegerLiteral text n length) :
    ∃ values, Integer.Spells text n values ∧ values.length = length := by
  have hnone : ∀ c ∈ ([] : List Char), Integer.isNumberBlank c := fun c hc => absurd hc List.not_mem_nil
  cases h with
  | plain hne hall =>
    refine ⟨text.map fun c => c.toNat - '0'.toNat, ?_, List.length_map _⟩
    have hspells : Integer.Spells ([] ++ ([] ++ (text ++ []))) _ _ :=
      .mk false hnone (.inr ⟨.inl rfl, rfl⟩) (Integer.digitRun_of_isDigit hne hall) hnone
    rw [List.append_nil, Integer.ofSign, Integer.ofDigits_values] at hspells
    exact hspells
  | @negative digits hne hall =>
    refine ⟨digits.map fun c => c.toNat - '0'.toNat, ?_, List.length_map _⟩
    have hspells : Integer.Spells ([] ++ (['-'] ++ (digits ++ []))) _ _ :=
      .mk true hnone (.inl ⟨rfl, rfl⟩) (Integer.digitRun_of_isDigit hne hall) hnone
    rw [List.append_nil, Integer.ofSign, Integer.ofDigits_values] at hspells
    exact hspells

/-- A run that spells an integer is written as one. -/
theorem IsNumeral.integerLiteral (h : IsNumeral text) {values : List Nat}
    (hspells : Integer.Spells text n values) : IntegerLiteral text n values.length := by
  have hempty {part : List Char} (hpart : ∀ c ∈ part, Integer.isNumberBlank c)
      (hsub : ∀ c ∈ part, Cursor.isNumeric c) : part = [] := by
    refine List.eq_nil_iff_forall_not_mem.2 fun c hc => ?_
    have hblank := hpart c hc
    rw [isNumberBlank_of_isNumeric (hsub c hc)] at hblank
    cases hblank
  obtain ⟨negative, hbefore, hsign, hbody, hbehind⟩ := hspells
  rename_i before sign body behind
  have hnumeric := h.numeric
  simp only [List.mem_append] at hnumeric
  rw [hempty hbefore fun c hc => hnumeric c (.inl hc), List.nil_append,
    hempty hbehind fun c hc => hnumeric c (.inr (.inr (.inr hc))), List.append_nil]
  obtain ⟨hne, hall⟩ := hbody.isDigit fun c hc => hnumeric c (.inr (.inr (.inl hc)))
  -- the values of these digits are the ones that are read
  have hvalues : values = body.map fun c => c.toNat - '0'.toNat :=
    Option.some.inj
      ((Integer.digits?_eq_some_iff.2 hbody).symm.trans (Integer.digits?_of_isDigit hne hall))
  have hlength : values.length = body.length := by rw [hvalues, List.length_map]
  rw [hlength, hvalues, Integer.ofSign, Integer.ofDigits_values]
  rcases hsign with ⟨rfl, rfl⟩ | ⟨rfl | rfl, rfl⟩
  · exact .negative hne hall
  · exact .plain hne hall
  · exact absurd (hnumeric '+' (by simp)) (by decide)

/-- **An integer is read** if it does not have too many digits. -/
theorem IsNumeral.integer_read?_iff (h : IsNumeral text) : Integer.read? text = some n ↔
    ∃ length, IntegerLiteral text n length ∧ length ≤ Integer.digitLimit := by
  rw [Integer.read?_eq_some_iff]
  constructor
  · rintro ⟨values, hspells, hle⟩
    exact ⟨_, h.integerLiteral hspells, hle⟩
  · rintro ⟨length, hliteral, hle⟩
    obtain ⟨values, hspells, rfl⟩ := hliteral.spells
    exact ⟨values, hspells, hle⟩

theorem IntegerLiteral.unique {m : Int} {other : Nat} (h : IntegerLiteral text n length)
    (h' : IntegerLiteral text m other) : n = m ∧ length = other := by
  obtain ⟨values, hspells, rfl⟩ := h.spells
  obtain ⟨others, hspells', rfl⟩ := h'.spells
  obtain ⟨rfl, rfl⟩ := hspells.unique hspells'
  exact ⟨rfl, rfl⟩

theorem isDigit_zeros (count : Nat) : ∀ c ∈ List.replicate count '0' ++ ['5'], c.isDigit := by
  intro c hc
  rcases List.mem_append.1 hc with hzero | hfive
  · rw [List.eq_of_mem_replicate hzero]
    decide
  · rw [List.mem_singleton.1 hfive]
    decide

/-- Zeros in front of a digit do not change it. -/
theorem integerLiteral_zeros (count : Nat) :
    IntegerLiteral (List.replicate count '0' ++ ['5']) 5 (count + 1) := by
  have hvalue : Nat.ofDigitChars 10 (List.replicate count '0' ++ ['5']) 0 = 5 := by
    rw [Nat.ofDigitChars_append, Nat.ofDigitChars_replicate_zero, Nat.mul_zero]
    rfl
  have hliteral := IntegerLiteral.plain (List.append_ne_nil_of_right_ne_nil _ (by simp))
    (isDigit_zeros count)
  rwa [hvalue, List.length_append, List.length_replicate] at hliteral

/-! ## Decimals -/

theorem dropWhile_ended {p : Char → Bool} (htext : ∀ d ∈ text, p d)
    (hrest : ∀ d ∈ rest.head?, p d = false) : (text ++ rest).dropWhile p = rest := by
  rw [List.dropWhile_append_of_pos htext]
  cases rest with
  | nil => rfl
  | cons d rest => exact List.dropWhile_cons_of_neg (by simp [hrest d rfl])

theorem IsExponent.head? (h : IsExponent exponent) :
    ∀ c ∈ exponent.head?, c.isDigit = false ∧ c ≠ '.' := by
  cases h with
  | nil => exact fun c hc => nomatch hc
  | mk _ _ =>
    rintro _ ⟨⟩
    exact ⟨by decide, by decide⟩

/-- **Exponents** are read. -/
theorem IsTail.isSome_exponent?_iff (h : IsTail text) :
    (DecimalLiteral.exponent? text).isSome ↔ IsExponent text := by
  cases text with
  | nil => exact ⟨fun _ => .nil, fun _ => rfl⟩
  | cons mark rest =>
    obtain ⟨⟨hmark, -⟩, hrest⟩ := List.forall_mem_cons.1 h
    have hupper : mark ≠ 'E' := by rintro rfl; exact absurd hmark (by decide)
    -- neither sign is among the characters that are left
    have hminus (digits : List Char) (heq : rest = '-' :: digits) : False :=
      (hrest '-' (by simp [heq])).2 rfl
    have hplus (digits : List Char) (heq : rest = '+' :: digits) : False :=
      absurd (hrest '+' (by simp [heq])).1 (by decide)
    rw [DecimalLiteral.exponent?]
    case x_1 => exact hminus
    case x_2 => exact hplus
    simp only [hupper, decide_false, Bool.or_false, decide_eq_true_eq]
    by_cases he : mark = 'e'
    · subst he
      rw [if_pos rfl]
      by_cases hdigits : rest ≠ [] ∧ ∀ c ∈ rest, c.isDigit
      · have hsome : (rest.isEmpty || !rest.all Char.isDigit) = false := by
          simpa using hdigits
        rw [if_neg (by rw [hsome]; exact Bool.false_ne_true)]
        exact ⟨fun _ => .mk hdigits.1 hdigits.2, fun _ => rfl⟩
      · have hnone : (rest.isEmpty || !rest.all Char.isDigit) = true := by
          rw [not_and_or, not_not] at hdigits
          simpa using hdigits
        rw [if_pos hnone]
        refine ⟨fun hsome => absurd hsome Bool.false_ne_true, fun hexp => ?_⟩
        cases hexp with
        | mk hne hall => exact absurd ⟨hne, hall⟩ hdigits
    · rw [if_neg he]
      refine ⟨fun hsome => absurd hsome Bool.false_ne_true, fun hexp => ?_⟩
      cases hexp with
      | mk _ _ => exact absurd rfl he

/-- Digits with a point are read if there is one before or behind it, and an exponent follows. -/
theorem isSome_readUnsigned?_point (negative : Bool) (hwhole : ∀ c ∈ whole, c.isDigit)
    (hplaces : ∀ c ∈ places, c.isDigit) (hrest : ∀ c ∈ rest.head?, c.isDigit = false) :
    (DecimalLiteral.readUnsigned? negative (whole ++ '.' :: (places ++ rest))).isSome ↔
      (whole ≠ [] ∨ places ≠ []) ∧ (DecimalLiteral.exponent? rest).isSome := by
  have hpoint : ∀ c ∈ ('.' :: (places ++ rest)).head?, c.isDigit = false := by
    rintro _ ⟨⟩
    decide
  have hread : DecimalLiteral.readUnsigned? negative (whole ++ '.' :: (places ++ rest)) =
      if whole.isEmpty && places.isEmpty then none
      else do
        let exponent ← DecimalLiteral.exponent? rest
        return ⟨negative, DecimalLiteral.ofAscii (whole ++ places), exponent - places.length⟩ := by
    simp only [DecimalLiteral.readUnsigned?, takeWhile_ended hwhole hpoint,
      dropWhile_ended hwhole hpoint, takeWhile_ended hplaces hrest, dropWhile_ended hplaces hrest]
  rw [hread]
  cases DecimalLiteral.exponent? rest <;> cases whole <;> cases places <;> simp

/-- Digits without a point are read if there is one, and an exponent follows. -/
theorem isSome_readUnsigned?_whole (negative : Bool) (hwhole : ∀ c ∈ whole, c.isDigit)
    (hrest : ∀ c ∈ rest.head?, c.isDigit = false ∧ c ≠ '.') :
    (DecimalLiteral.readUnsigned? negative (whole ++ rest)).isSome ↔
      whole ≠ [] ∧ (DecimalLiteral.exponent? rest).isSome := by
  have hpoint (places : List Char) (heq : rest = '.' :: places) : False :=
    (hrest '.' (by simp [heq])).2 rfl
  have hread : DecimalLiteral.readUnsigned? negative (whole ++ rest) =
      if whole.isEmpty then none
      else do
        let exponent ← DecimalLiteral.exponent? rest
        return ⟨negative, DecimalLiteral.ofAscii (whole ++ []), exponent - ([] : List Char).length⟩ := by
    rw [DecimalLiteral.readUnsigned?, takeWhile_ended hwhole fun c hc => (hrest c hc).1,
      dropWhile_ended hwhole fun c hc => (hrest c hc).1]
    dsimp only
    split
    · next heq => exact absurd rfl (hpoint _)
    · simp only [List.isEmpty_nil, Bool.and_true]
  rw [hread]
  cases DecimalLiteral.exponent? rest <;> cases whole <;> simp

/-- A text is some digits, and the rest begins with a point or with neither a point nor a digit. -/
theorem exists_whole (text : List Char) : ∃ whole rest, text = whole ++ rest ∧
    (∀ c ∈ whole, c.isDigit) ∧ ∀ c ∈ rest.head?, c.isDigit = false := by
  refine ⟨text.takeWhile Char.isDigit, text.dropWhile Char.isDigit,
    List.takeWhile_append_dropWhile.symm, fun c => of_mem_takeWhile, fun c hc => ?_⟩
  have := List.head?_dropWhile_not Char.isDigit text
  rw [Option.mem_def.1 hc] at this
  simpa using this

/-- **What is read without its sign**: digits alone, or with a point or an exponent. -/
theorem IsTail.isSome_readUnsigned?_iff (h : IsTail text) (negative : Bool) :
    (DecimalLiteral.readUnsigned? negative text).isSome ↔
      IsFraction text ∨ text ≠ [] ∧ ∀ c ∈ text, c.isDigit := by
  constructor
  · intro hsome
    obtain ⟨whole, rest, rfl, hwhole, hrest⟩ := exists_whole text
    have htail : IsTail rest := fun c hc => h c (List.mem_append_right whole hc)
    by_cases hpoint : ∃ behind, rest = '.' :: behind
    · obtain ⟨behind, rfl⟩ := hpoint
      obtain ⟨places, exponent, rfl, hplaces, hbehind⟩ := exists_whole behind
      obtain ⟨hne, hexp⟩ := (isSome_readUnsigned?_point negative hwhole hplaces hbehind).1 hsome
      have hexponent : IsTail exponent := fun c hc => htail c (by simp [hc])
      exact .inl (.point hwhole hplaces hne (hexponent.isSome_exponent?_iff.1 hexp))
    · have hhead : ∀ c ∈ rest.head?, c.isDigit = false ∧ c ≠ '.' := by
        refine fun c hc => ⟨hrest c hc, ?_⟩
        rintro rfl
        exact hpoint ⟨rest.tail, (List.cons_head?_tail hc).symm⟩
      obtain ⟨hne, hexp⟩ := (isSome_readUnsigned?_whole negative hwhole hhead).1 hsome
      by_cases hmark : rest = []
      · rw [hmark, List.append_nil]
        exact .inr ⟨hne, hwhole⟩
      · exact .inl (.exponent hwhole hne (htail.isSome_exponent?_iff.1 hexp) hmark)
  · rintro (hfraction | ⟨hne, hall⟩)
    · cases hfraction with
      | @point whole places exponent hwhole hplaces hne hexp =>
        have hexponent : IsTail exponent := fun c hc => h c (by simp [hc])
        exact (isSome_readUnsigned?_point negative hwhole hplaces fun c hc => (hexp.head? c hc).1).2
          ⟨hne, hexponent.isSome_exponent?_iff.2 hexp⟩
      | @exponent whole exponent hwhole hne hexp hmark =>
        have hexponent : IsTail exponent := fun c hc => h c (by simp [hc])
        exact (isSome_readUnsigned?_whole negative hwhole hexp.head?).2
          ⟨hne, hexponent.isSome_exponent?_iff.2 hexp⟩
    · rw [← List.append_nil text]
      exact (isSome_readUnsigned?_whole negative hall (by simp)).2 ⟨hne, rfl⟩

/-! ## Signs -/

/-- Decimals begin with a digit or a point, and have a character that is not a digit. -/
theorem IsFraction.marks (h : IsFraction text) :
    (∀ c ∈ text.head?, c ≠ '-') ∧ ∃ c ∈ text, c.isDigit = false := by
  have hne_dash {c : Char} (hc : c.isDigit) : c ≠ '-' := by
    rintro rfl
    cases hc
  cases h with
  | @point whole places exponent hwhole hplaces hne hexp =>
    refine ⟨?_, '.', by simp, by decide⟩
    cases whole with
    | nil =>
      rintro _ ⟨⟩
      decide
    | cons first whole =>
      rintro _ ⟨⟩
      exact hne_dash (hwhole first List.mem_cons_self)
  | @exponent whole exponent hwhole hne hexp hmark =>
    cases hexp with
    | nil => exact absurd rfl hmark
    | mk _ _ =>
      refine ⟨?_, 'e', by simp, by decide⟩
      obtain ⟨first, whole, rfl⟩ := List.exists_cons_of_ne_nil hne
      rintro _ ⟨⟩
      exact hne_dash (hwhole first List.mem_cons_self)

theorem isDecimal_negative : IsDecimal ('-' :: rest) ↔ IsFraction rest := by
  refine ⟨fun h => ?_, .negative⟩
  cases h with
  | plain h => exact absurd rfl (h.marks.1 '-' rfl)
  | negative h => exact h

theorem isDecimal_plain (hhead : ∀ c ∈ text.head?, c ≠ '-') : IsDecimal text ↔ IsFraction text := by
  refine ⟨fun h => ?_, .plain⟩
  cases h with
  | plain h => exact h
  | negative h => exact absurd rfl (hhead '-' rfl)

theorem integerLiteral_negative :
    (∃ n length, IntegerLiteral ('-' :: rest) n length) ↔ rest ≠ [] ∧ ∀ c ∈ rest, c.isDigit := by
  refine ⟨fun ⟨n, length, h⟩ => ?_, fun ⟨hne, hall⟩ => ⟨_, _, .negative hne hall⟩⟩
  cases h with
  | plain _ hall => exact absurd (hall '-' List.mem_cons_self) (by decide)
  | negative hne hall => exact ⟨hne, hall⟩

theorem integerLiteral_plain (hhead : ∀ c ∈ text.head?, c ≠ '-') :
    (∃ n length, IntegerLiteral text n length) ↔ text ≠ [] ∧ ∀ c ∈ text, c.isDigit := by
  refine ⟨fun ⟨n, length, h⟩ => ?_, fun ⟨hne, hall⟩ => ⟨_, _, .plain hne hall⟩⟩
  cases h with
  | plain hne hall => exact ⟨hne, hall⟩
  | negative _ _ => exact absurd rfl (hhead '-' rfl)

/-- A decimal is not an integer. -/
theorem IsDecimal.not_integerLiteral (h : IsDecimal text) : ¬IntegerLiteral text n length := by
  intro hliteral
  have habsurd {digits : List Char} (hfraction : IsFraction digits) (hall : ∀ c ∈ digits, c.isDigit) :
      False := by
    obtain ⟨-, c, hmem, hc⟩ := hfraction.marks
    rw [hall c hmem] at hc
    cases hc
  cases hliteral with
  | plain hne hall =>
    have hhead : ∀ c ∈ text.head?, c ≠ '-' := by
      rintro c hc rfl
      exact absurd (hall '-' (List.mem_of_mem_head? hc)) (by decide)
    exact habsurd ((isDecimal_plain hhead).1 h) hall
  | negative hne hall => exact habsurd (isDecimal_negative.1 h) hall

/-- **What is read as a decimal**: a decimal, and an integer too. -/
theorem IsNumeral.isSome_read?_iff (h : IsNumeral text) :
    (DecimalLiteral.read? text).isSome ↔ IsDecimal text ∨ ∃ n length, IntegerLiteral text n length := by
  by_cases hdash : text.head? = some '-'
  · obtain ⟨rest, rfl⟩ : ∃ rest, text = '-' :: rest := ⟨text.tail, (List.cons_head?_tail hdash).symm⟩
    have htail : IsTail rest := h.isTail_tail
    rw [DecimalLiteral.read?, htail.isSome_readUnsigned?_iff, isDecimal_negative,
      integerLiteral_negative]
  · have hhead : ∀ c ∈ text.head?, c ≠ '-' := by
      rintro c hc rfl
      exact hdash hc
    have hread : DecimalLiteral.read? text = DecimalLiteral.readUnsigned? false text := by
      unfold DecimalLiteral.read?
      split
      · exact absurd rfl hdash
      · exact absurd (h.numeric '+' List.mem_cons_self) (by decide)
      · rfl
    rw [hread, (h.isTail hhead).isSome_readUnsigned?_iff, isDecimal_plain hhead,
      integerLiteral_plain hhead]

/-! ## The number that is made -/

namespace Reader

/-- **A number is made** of a run: the integer that is read, or else the decimal, or else an error. -/
theorem number_cases (hnumeral : IsNumeral (span.slice r.source)) :
    (∃ n length, IntegerLiteral (span.slice r.source) n length ∧ length ≤ Integer.digitLimit ∧
      r.number span = .ok (.int span n)) ∨
    (∃ x, (IsDecimal (span.slice r.source) ∨
        ∃ n length, IntegerLiteral (span.slice r.source) n length ∧ Integer.digitLimit < length) ∧
      r.number span = .ok (.float span x)) ∨
    ¬IsDecimal (span.slice r.source) ∧ (∀ n length, ¬IntegerLiteral (span.slice r.source) n length) ∧
      r.number span = .error (.here .invalidNumber span) := by
  rw [number]
  cases hread : Integer.read? (span.slice r.source) with
  | some n =>
    obtain ⟨length, hliteral, hle⟩ := hnumeral.integer_read?_iff.1 hread
    exact .inl ⟨n, length, hliteral, hle, rfl⟩
  | none =>
    have hlong {n : Int} {length : Nat} (hliteral : IntegerLiteral (span.slice r.source) n length) :
        Integer.digitLimit < length := by
      refine Nat.lt_of_not_le fun hle => ?_
      have hsome := hnumeral.integer_read?_iff.2 ⟨length, hliteral, hle⟩
      rw [hread] at hsome
      cases hsome
    have hiff := hnumeral.isSome_read?_iff
    cases hdecimal : DecimalLiteral.read? (span.slice r.source) with
    | some d =>
      rw [hdecimal] at hiff
      refine .inr (.inl ⟨d.toFloat, ?_, rfl⟩)
      obtain hdecimal | ⟨n, length, hliteral⟩ := hiff.1 rfl
      · exact .inl hdecimal
      · exact .inr ⟨n, length, hliteral, hlong hliteral⟩
    | none =>
      rw [hdecimal] at hiff
      obtain ⟨hnone, hnot⟩ := not_or.1 (mt hiff.2 Bool.false_ne_true)
      exact .inr (.inr ⟨hnone, fun n length hliteral => hnot ⟨n, length, hliteral⟩, rfl⟩)

/-- **The value of a number is kept**: it is made into the integer that its text denotes if it is
written as one, into a decimal if it is written as a decimal, and refused otherwise. -/
structure KeepsValue (r : Reader) (span : Span) : Prop where
  int : ∀ n, r.number span = .ok (.int span n) ↔ ∃ length, IntegerLiteral (span.slice r.source) n length
  float : (∃ x, r.number span = .ok (.float span x)) ↔ IsDecimal (span.slice r.source)
  invalid : r.number span = .error (.here .invalidNumber span) ↔
    ¬IsDecimal (span.slice r.source) ∧ ∀ n length, ¬IntegerLiteral (span.slice r.source) n length

theorem keepsValue_of_int (hliteral : IntegerLiteral (span.slice r.source) n length)
    (heq : r.number span = .ok (.int span n)) : r.KeepsValue span where
  int m := by
    rw [heq]
    constructor
    · rintro ⟨⟩
      exact ⟨length, hliteral⟩
    · rintro ⟨other, hother⟩
      rw [(hliteral.unique hother).1]
  float := iff_of_false (by simp [heq]) fun hdecimal => hdecimal.not_integerLiteral hliteral
  invalid := iff_of_false (by simp [heq]) fun hnot => hnot.2 n length hliteral

theorem keepsValue_of_float {x : Float} (hdecimal : IsDecimal (span.slice r.source))
    (heq : r.number span = .ok (.float span x)) : r.KeepsValue span where
  int _ := iff_of_false (by simp [heq]) fun ⟨_, hliteral⟩ => hdecimal.not_integerLiteral hliteral
  float := iff_of_true ⟨x, heq⟩ hdecimal
  invalid := iff_of_false (by simp [heq]) fun hnot => hnot.1 hdecimal

theorem keepsValue_of_invalid (hdecimal : ¬IsDecimal (span.slice r.source))
    (hliteral : ∀ n length, ¬IntegerLiteral (span.slice r.source) n length)
    (heq : r.number span = .error (.here .invalidNumber span)) : r.KeepsValue span where
  int n := iff_of_false (by simp [heq]) fun ⟨length, h⟩ => hliteral n length h
  float := iff_of_false (by simp [heq]) hdecimal
  invalid := iff_of_true heq ⟨hdecimal, hliteral⟩

/-- An integer with too many digits becomes a decimal. -/
theorem number_long (hnumeral : IsNumeral (span.slice r.source))
    (hliteral : IntegerLiteral (span.slice r.source) n length) (hlong : Integer.digitLimit < length) :
    ∃ x, r.number span = .ok (.float span x) := by
  obtain ⟨m, other, hother, hle, -⟩ | ⟨x, -, heq⟩ | ⟨-, hnot, -⟩ := r.number_cases hnumeral
  · exact absurd ((hliteral.unique hother).2 ▸ hle) (Nat.not_le.2 hlong)
  · exact ⟨x, heq⟩
  · exact absurd hliteral (hnot n length)

/-- Its value is not kept then. -/
theorem KeepsValue.length_le (h : r.KeepsValue span) (hnumeral : IsNumeral (span.slice r.source))
    (hliteral : IntegerLiteral (span.slice r.source) n length) : length ≤ Integer.digitLimit := by
  by_contra hlong
  have hfloat := number_long hnumeral hliteral (Nat.lt_of_not_le hlong)
  exact (h.float.1 hfloat).not_integerLiteral hliteral

/-- **The value of a number that is cut out is kept** unless it is an integer with more digits than an
integer is read with. Such an integer becomes a decimal. -/
theorem keepsValue_iff {cursor : Cursor} (h : cursor.Reads r.source) :
    let span := cursor.numeral.1
    IsNumeral (span.slice r.source) ∧
      (r.KeepsValue span ↔ ∀ n length, IntegerLiteral (span.slice r.source) n length →
        length ≤ Integer.digitLimit) ∧
      ∀ n length, IntegerLiteral (span.slice r.source) n length → Integer.digitLimit < length →
        ∃ x, r.number span = .ok (.float span x) := by
  intro span
  have hnumeral : IsNumeral (span.slice r.source) := Cursor.slice_numeral h
  refine ⟨hnumeral, ⟨fun hkeeps n length => hkeeps.length_le hnumeral, fun hbound => ?_⟩,
    fun n length => number_long hnumeral⟩
  obtain ⟨n, length, hliteral, -, heq⟩ | ⟨x, hread, heq⟩ | ⟨hdecimal, hliteral, heq⟩ :=
    r.number_cases hnumeral
  · exact keepsValue_of_int hliteral heq
  · refine keepsValue_of_float (hread.resolve_right ?_) heq
    rintro ⟨n, length, hliteral, hlong⟩
    exact absurd (hbound n length hliteral) (Nat.not_le.2 hlong)
  · exact keepsValue_of_invalid hdecimal hliteral heq

theorem keepsValue_negative :
    let r : Reader := ⟨"\x7b\x7b -12 \x7d\x7d".toList, [], 0⟩
    let cursor : Cursor := ⟨3, "-12 ".toList⟩
    cursor.Reads r.source ∧ cursor.numeral.1 = ⟨3, 3⟩ ∧
      r.number ⟨3, 3⟩ = .ok (.int ⟨3, 3⟩ (-12)) ∧ r.KeepsValue ⟨3, 3⟩ := by
  intro r cursor
  have hreads : cursor.Reads r.source :=
    ⟨by decide +kernel, List.prefix_append "-12 ".toList "\x7d\x7d".toList⟩
  have hread : IntegerLiteral ['-', '1', '2'] (-12) 2 :=
    .negative (List.cons_ne_nil _ _) (by simp)
  have hkeeps : r.KeepsValue ⟨3, 3⟩ := by
    refine (keepsValue_iff hreads).2.1.2 fun n length hliteral => ?_
    rw [← (hread.unique hliteral).2]
    decide
  exact ⟨hreads, rfl, (hkeeps.int (-12)).2 ⟨2, hread⟩, hkeeps⟩

/-- Zeros in front of a digit do not change an integer, but too many of them do not leave it one. -/
theorem not_keepsValue_zeros :
    let zeros := List.replicate 4300 '0'
    let r : Reader := ⟨"\x7b\x7b ".toList ++ (zeros ++ '5' :: " \x7d\x7d".toList), [], 0⟩
    let cursor : Cursor := ⟨3, zeros ++ '5' :: [' ']⟩
    cursor.Reads r.source ∧ cursor.numeral.1 = ⟨3, 4301⟩ ∧
      IntegerLiteral (Span.slice ⟨3, 4301⟩ r.source) 5 4301 ∧
      (∃ x, r.number ⟨3, 4301⟩ = .ok (.float ⟨3, 4301⟩ x)) ∧ ¬r.KeepsValue ⟨3, 4301⟩ := by
  intro zeros r cursor
  have hliteral : IntegerLiteral (zeros ++ ['5']) 5 4301 := integerLiteral_zeros 4300
  have hlength : (zeros ++ ['5']).length = 4301 := by
    rw [List.length_append, List.length_replicate]
    rfl
  have hbehind : (⟨3, (zeros ++ ['5']) ++ " \x7d\x7d".toList⟩ : Cursor).Reads r.source := by
    rw [List.append_assoc]
    exact ⟨List.length_append ▸ Nat.le_add_right 3 _, List.prefix_rfl⟩
  have hreads : cursor.Reads r.source := by
    refine hbehind.shorten ?_
    rw [List.append_assoc]
    exact (List.prefix_append_right_inj zeros).2 (List.prefix_append ['5', ' '] ['}', '}'])
  have hslice : Span.slice ⟨3, 4301⟩ r.source = zeros ++ ['5'] := hlength ▸ hbehind.append.1.slice_eq
  have hspan : cursor.numeral.1 = ⟨3, 4301⟩ := by
    have hbehind : ∀ c ∈ [' '].head?, Cursor.isNumeric c = false := by
      rintro _ ⟨⟩
      rfl
    have hcut : (⟨3, (zeros ++ ['5']) ++ [' ']⟩ : Cursor).numeral.1 = _ :=
      Cursor.numeral_of_isDigit (isDigit_zeros 4300) hbehind
    rw [List.append_assoc, hlength] at hcut
    exact hcut
  have hnumeral : IsNumeral (cursor.numeral.1.slice r.source) := Cursor.slice_numeral hreads
  rw [hspan] at hnumeral
  rw [← hslice] at hliteral
  have hlimit : Integer.digitLimit < 4301 := by decide
  exact ⟨hreads, hspan, hliteral, number_long hnumeral hliteral hlimit,
    fun h => absurd (h.length_le hnumeral hliteral) (Nat.not_le.2 hlimit)⟩

end Reader

end Galley
