import Galley.Proofs.Literals
import Mathlib

/-!
# How integers are spelled

A text spells an integer if it is a sign or none before digits of any script, between which single
underscores may stand, with blanks around. There is no bound on the number of digits in this. A text
is read as the integer that it spells, unless it has more digits than the limit.

* `Integer.DigitRun`, `Integer.Spells`: the texts, with the values of their digits.
* `Integer.spells_iff`, `Integer.Spells.unique`: a text spells one integer with one row of digits.
* `Integer.read?_eq_some_iff`: **what is read.**
-/

namespace Galley.Integer

open Text

variable {text rest : List Char} {c : Char} {digits : List Nat} {n : Int}

/-! ## Digits -/

/-- **Digits in a row** with their values: decimal digits of any script, with at most one underscore
between two of them. -/
inductive DigitRun : List Char → List Nat → Prop
  | last {c : Char} {d : Nat} (h : decimalValue? c = some d) : DigitRun [c] [d]
  | next {c : Char} {d : Nat} {text : List Char} {digits : List Nat}
    (h : decimalValue? c = some d) (hrest : DigitRun text digits) : DigitRun (c :: text) (d :: digits)
  | underscore {c : Char} {d : Nat} {text : List Char} {digits : List Nat}
    (h : decimalValue? c = some d) (hrest : DigitRun text digits) :
    DigitRun (c :: '_' :: text) (d :: digits)

theorem DigitRun.exists_cons (h : DigitRun text digits) :
    ∃ c d rest, text = c :: rest ∧ decimalValue? c = some d := by
  cases h with
  | last h => exact ⟨_, _, _, rfl, h⟩
  | next h _ => exact ⟨_, _, _, rfl, h⟩
  | underscore h _ => exact ⟨_, _, _, rfl, h⟩

/-- **The values of digits** are those of the digits in a row. -/
theorem digits?_eq_some_iff : digits? text = some digits ↔ DigitRun text digits := by
  constructor
  · intro h
    fun_induction digits? text generalizing digits with
    | case1 => cases h
    | case2 c =>
      obtain ⟨d, hd, rfl⟩ := Option.map_eq_some_iff.1 h
      exact .last hd
    | case3 c rest ih =>
      simp only [bind, Option.bind_eq_some_iff] at h
      obtain ⟨d, hd, ds, hds, h⟩ := h
      cases h
      exact .underscore hd (ih hds)
    | case4 c next rest _ ih =>
      simp only [bind, Option.bind_eq_some_iff] at h
      obtain ⟨d, hd, ds, hds, h⟩ := h
      cases h
      exact .next hd (ih hds)
  · intro h
    induction h with
    | last h => rw [digits?, h]; rfl
    | @next c d text digits h hrest ih =>
      -- an underscore is no digit, so the digits go on with this one
      obtain ⟨first, value, rest, rfl, hfirst⟩ := hrest.exists_cons
      have hunderscore : first ≠ '_' := by
        rintro rfl
        cases hfirst
      rw [digits?]
      · simp only [bind, Option.bind, h, ih]
        rfl
      · exact hunderscore
    | underscore h _ ih =>
      rw [digits?]
      simp only [bind, Option.bind, h, ih]
      rfl

/-- The number of digits, the highest first. -/
theorem ofDigits_eq (digits : List Nat) : ofDigits digits = Nat.ofDigits 10 digits.reverse := by
  rw [ofDigits, Nat.ofDigits_eq_foldr, List.foldr_reverse]
  congr 1
  funext n d
  simp [Nat.add_comm]

/-! ## Texts -/

/-- The integer of some digits with a sign. -/
def ofSign (negative : Bool) (digits : List Nat) : Int :=
  let size : Nat := Nat.ofDigits 10 digits.reverse
  if negative then -size else size

/-- **A text spells an integer** with some digits: blanks, a sign or none, the digits, and blanks. -/
inductive Spells : List Char → Int → List Nat → Prop
  | mk {before sign body behind : List Char} {digits : List Nat} (negative : Bool)
    (hbefore : ∀ c ∈ before, isNumberBlank c)
    (hsign : sign = ['-'] ∧ negative = true ∨ (sign = [] ∨ sign = ['+']) ∧ negative = false)
    (hbody : DigitRun body digits) (hbehind : ∀ c ∈ behind, isNumberBlank c) :
    Spells (before ++ (sign ++ (body ++ behind))) (ofSign negative digits) digits

/-- The sign and the digits of a text. -/
def parts? (text : List Char) : Option (Bool × List Nat) :=
  match ((text.dropWhile isNumberBlank).reverse.dropWhile isNumberBlank).reverse with
  | '-' :: rest => (digits? rest).map (true, ·)
  | '+' :: rest => (digits? rest).map (false, ·)
  | rest => (digits? rest).map (false, ·)

/-- Without the characters of a class at its ends a text is what stands between them. -/
theorem stripped_append {p : Char → Bool} {before core behind : List Char}
    (hbefore : ∀ c ∈ before, p c) (hbehind : ∀ c ∈ behind, p c) (hhead : ∀ c ∈ core.head?, p c = false)
    (hlast : ∀ c ∈ core.getLast?, p c = false) (hne : core ≠ []) :
    (((before ++ (core ++ behind)).dropWhile p).reverse.dropWhile p).reverse = core := by
  obtain ⟨first, tail, rfl⟩ := List.exists_cons_of_ne_nil hne
  have hstart : (first :: tail ++ behind).dropWhile p = first :: tail ++ behind :=
    List.dropWhile_cons_of_neg (by simp [hhead first rfl])
  obtain ⟨last, init, hreverse⟩ := List.exists_cons_of_ne_nil (List.reverse_ne_nil_iff.2 hne)
  have hend : (first :: tail).reverse.dropWhile p = (first :: tail).reverse := by
    rw [hreverse]
    refine List.dropWhile_cons_of_neg ?_
    rw [hlast last (by rw [← List.head?_reverse, hreverse]; rfl)]
    exact Bool.false_ne_true
  rw [List.dropWhile_append_of_pos hbefore, hstart, List.reverse_append,
    List.dropWhile_append_of_pos fun c hc => hbehind c (List.mem_reverse.1 hc), hend,
    List.reverse_reverse]

/-- A text is what is left of it between the characters of a class at its ends. -/
theorem exists_stripped (p : Char → Bool) (text : List Char) :
    ∃ before behind, (∀ c ∈ before, p c) ∧ (∀ c ∈ behind, p c) ∧
      text = before ++ (((text.dropWhile p).reverse.dropWhile p).reverse ++ behind) := by
  refine ⟨text.takeWhile p, ((text.dropWhile p).reverse.takeWhile p).reverse,
    fun c => of_mem_takeWhile, fun c hc => of_mem_takeWhile (List.mem_reverse.1 hc), ?_⟩
  rw [← List.reverse_append, List.takeWhile_append_dropWhile, List.reverse_reverse,
    List.takeWhile_append_dropWhile]

theorem isNumberBlank_of_decimalValue? {d : Nat} (h : decimalValue? c = some d) :
    isNumberBlank c = false := by
  cases hblank : isBlank c with
  | false => rw [isNumberBlank, hblank, Bool.false_and]
  | true =>
    have hall : ∀ code ∈ blankCodes, decimalValue? (Char.ofNat code) = none := by decide +kernel
    have hnone := hall c.toNat (mem_blankCodes hblank)
    rw [Char.ofNat_toNat, h] at hnone
    cases hnone

theorem DigitRun.getLast? (h : DigitRun text digits) :
    ∀ c ∈ text.getLast?, isNumberBlank c = false := by
  induction h with
  | last h =>
    rintro _ ⟨⟩
    exact isNumberBlank_of_decimalValue? h
  | next _ hrest ih =>
    obtain ⟨first, _, rest, rfl, -⟩ := hrest.exists_cons
    exact ih
  | underscore _ hrest ih =>
    obtain ⟨first, _, rest, rfl, -⟩ := hrest.exists_cons
    exact ih

/-- The sign and the digits of a text that spells an integer. -/
theorem Spells.exists_parts (h : Spells text n digits) :
    ∃ negative, parts? text = some (negative, digits) ∧ n = ofSign negative digits := by
  obtain ⟨negative, hbefore, hsign, hbody, hbehind⟩ := h
  rename_i before sign body behind
  obtain ⟨first, d, rest, rfl, hfirst⟩ := hbody.exists_cons
  have hdigits := digits?_eq_some_iff.2 hbody
  have hmarks : first ≠ '-' ∧ first ≠ '+' := by
    constructor <;> (rintro rfl; cases hfirst)
  have hhead : ∀ c ∈ (sign ++ first :: rest).head?, isNumberBlank c = false := by
    rcases hsign with ⟨rfl, -⟩ | ⟨rfl | rfl, -⟩ <;> rintro _ ⟨⟩
    · decide
    · exact isNumberBlank_of_decimalValue? hfirst
    · decide
  have hlast : ∀ c ∈ (sign ++ first :: rest).getLast?, isNumberBlank c = false := by
    rw [List.getLast?_append_of_ne_nil _ (List.cons_ne_nil _ _)]
    exact hbody.getLast?
  have hbare := stripped_append hbefore hbehind hhead hlast (by simp)
  refine ⟨negative, ?_, rfl⟩
  rw [parts?, ← List.append_assoc sign, hbare]
  rcases hsign with ⟨rfl, rfl⟩ | ⟨rfl | rfl, rfl⟩
  · simp [hdigits]
  · rw [List.nil_append]
    split
    · next heq => exact absurd (List.cons.inj heq).1 hmarks.1
    · next heq => exact absurd (List.cons.inj heq).1 hmarks.2
    · rw [hdigits]
      rfl
  · simp [hdigits]

/-- A text spells the integer that its sign and its digits make. -/
theorem spells_of_parts? {negative : Bool} (h : parts? text = some (negative, digits)) :
    Spells text (ofSign negative digits) digits := by
  obtain ⟨before, behind, hbefore, hbehind, htext⟩ := exists_stripped isNumberBlank text
  have hspells (sign : List Char) {body : List Char}
      (hbare : ((text.dropWhile isNumberBlank).reverse.dropWhile isNumberBlank).reverse = sign ++ body)
      (hsign : sign = ['-'] ∧ negative = true ∨ (sign = [] ∨ sign = ['+']) ∧ negative = false)
      (hbody : digits? body = some digits) : Spells text (ofSign negative digits) digits := by
    rw [htext, hbare, List.append_assoc]
    exact .mk negative hbefore hsign (digits?_eq_some_iff.1 hbody) hbehind
  unfold parts? at h
  split at h
  · next rest hbare =>
    obtain ⟨ds, hds, heq⟩ := Option.map_eq_some_iff.1 h
    cases heq
    exact hspells ['-'] hbare (.inl ⟨rfl, rfl⟩) hds
  · next rest hbare =>
    obtain ⟨ds, hds, heq⟩ := Option.map_eq_some_iff.1 h
    cases heq
    exact hspells ['+'] hbare (.inr ⟨.inr rfl, rfl⟩) hds
  · obtain ⟨ds, hds, heq⟩ := Option.map_eq_some_iff.1 h
    cases heq
    exact hspells [] rfl (.inr ⟨.inl rfl, rfl⟩) hds

/-- **A text spells an integer** if its sign and its digits are those of the integer. -/
theorem spells_iff : Spells text n digits ↔
    ∃ negative, parts? text = some (negative, digits) ∧ n = ofSign negative digits := by
  refine ⟨Spells.exists_parts, ?_⟩
  rintro ⟨negative, hparts, rfl⟩
  exact spells_of_parts? hparts

/-- A text spells one integer, with one row of digits. -/
theorem Spells.unique {m : Int} {others : List Nat} (h : Spells text n digits)
    (h' : Spells text m others) : n = m ∧ digits = others := by
  obtain ⟨negative, hparts, rfl⟩ := spells_iff.1 h
  obtain ⟨negative', hparts', rfl⟩ := spells_iff.1 h'
  obtain ⟨rfl, rfl⟩ := Prod.mk.inj (Option.some.inj (hparts.symm.trans hparts'))
  exact ⟨rfl, rfl⟩

theorem magnitude?_eq_bind (text : List Char) : magnitude? text = (digits? text).bind fun digits =>
    if digits.length ≤ digitLimit then some (Nat.ofDigits 10 digits.reverse) else none := by
  simp only [magnitude?, bind, ofDigits_eq]

theorem signed_magnitude? (negative : Bool) (text : List Char) :
    (((magnitude? text) >>= fun n => pure (n : Int)).map fun n => if negative then -n else n) =
      ((digits? text).map (negative, ·)).bind fun (negative, digits) =>
        if digits.length ≤ digitLimit then some (ofSign negative digits) else none := by
  rw [magnitude?_eq_bind]
  cases digits? text with
  | none => rfl
  | some digits =>
    by_cases hlength : digits.length ≤ digitLimit <;> simp [hlength, ofSign]

theorem read?_eq_bind (text : List Char) : read? text = (parts? text).bind fun (negative, digits) =>
    if digits.length ≤ digitLimit then some (ofSign negative digits) else none := by
  -- the text is read in the form in which it is taken apart
  generalize hparts : parts? text = parts
  unfold parts? at hparts
  split at hparts
  · next rest hbare =>
    unfold read?
    rw [hbare, ← hparts]
    exact signed_magnitude? true rest
  · next rest hbare =>
    unfold read?
    rw [hbare, ← hparts]
    exact signed_magnitude? false rest
  · next hminus hplus =>
    unfold read?
    dsimp only
    rw [← hparts]
    split
    · exact absurd ‹_› (hminus _)
    · exact absurd ‹_› (hplus _)
    · exact signed_magnitude? false _

/-- **A text is read** as the integer that it spells if its digits are not too many. -/
theorem read?_eq_some_iff :
    read? text = some n ↔ ∃ digits, Spells text n digits ∧ digits.length ≤ digitLimit := by
  rw [read?_eq_bind, Option.bind_eq_some_iff]
  constructor
  · rintro ⟨⟨negative, digits⟩, hparts, h⟩
    dsimp only at h
    split at h
    · next hlength =>
      cases h
      exact ⟨digits, spells_iff.2 ⟨negative, hparts, rfl⟩, hlength⟩
    · cases h
  · rintro ⟨digits, hspells, hlength⟩
    obtain ⟨negative, hparts, rfl⟩ := spells_iff.1 hspells
    exact ⟨(negative, digits), hparts, if_pos hlength⟩

/-- It is not read if it has too many, or spells nothing. -/
theorem read?_eq_none_iff :
    read? text = none ↔ ∀ n digits, Spells text n digits → digitLimit < digits.length := by
  rw [Option.eq_none_iff_forall_not_mem]
  simp only [Option.mem_def, read?_eq_some_iff, not_exists, not_and, Nat.not_le]

end Galley.Integer
