import Galley.Proofs.Layout
import Galley.Proofs.Plain
import Galley.Proofs.Shift

/-!
# Literals and paths as they are written

Every value that can be written in a template is read back from its text: integers from their
decimal text, texts from between quotes of either kind with a backslash before each quote and each
backslash, and paths from their segments with dots between them.

* `escaped`, `dropEscapes_escaped`: backslashes put into a text are dropped again.
* `Integer.read?_toString`: an integer is read from its decimal text.
* `splitOn_dotted`: a path falls into its segments.
* `Literal`, `Literal.written`, `Literal.atom`: a value, its text, and the atom that it is.
* `Literal.head_written`, `Literal.argument_written`: it is found at the start of a chain and behind
  the colon of a filter.
* `Reader.atom_written`: the atom that is made of it.
-/

namespace Galley

open Text

variable {c quote : Char} {text rest behind : List Char} {start n : Nat}

/-! ## Classes of characters -/

/-- Where a class of characters ends, so does the longest beginning of it. -/
theorem takeWhile_ended {p : Char → Bool} (htext : ∀ d ∈ text, p d)
    (hrest : ∀ d ∈ rest.head?, p d = false) : (text ++ rest).takeWhile p = text := by
  have hnil : rest.takeWhile p = [] := by
    cases rest with
    | nil => rfl
    | cons d rest => rw [List.takeWhile_cons_of_neg (by simp [hrest d rfl])]
  rw [List.takeWhile_append_of_pos htext, hnil, List.append_nil]

theorem lengthBefore_append_cons (h : c ∉ text) (behind : List Char) :
    lengthBefore c (text ++ c :: behind) = text.length := by
  rw [lengthBefore, takeWhile_ended]
  · intro d hd
    have : d ≠ c := fun heq => h (heq ▸ hd)
    simpa using this
  · simp

theorem lengthBefore_of_not_mem (h : c ∉ text) : lengthBefore c text = text.length :=
  Nat.le_antisymm (lengthBefore_le c text)
    (Nat.not_lt.1 fun hlt => h ((lengthBefore_lt_iff c text).1 hlt))

theorem not_mem_of_allBlank (h : allBlank text) (hc : isBlank c = false) : c ∉ text := by
  intro hmem
  rw [List.all_eq_true.1 h c hmem] at hc
  cases hc

namespace Text.Boundaries

/-- What is left of intervals behind those that lie between `low` and `high`. -/
def dropWithin (low high : Nat) : List Nat → List Nat
  | start :: stop :: rest =>
    if low ≤ start && stop ≤ high then dropWithin low high rest else start :: stop :: rest
  | rest => rest

theorem holds_dropWithin {low high : Nat} {bounds : List Nat} (h : holds bounds n) :
    (low ≤ n ∧ n < high) ∨ holds (dropWithin low high bounds) n := by
  fun_induction dropWithin low high bounds with
  | case1 start stop rest hwithin ih =>
    simp only [Bool.and_eq_true, decide_eq_true_eq] at hwithin
    unfold holds at h
    split at h
    · cases h
    · simp only [Bool.or_eq_true, decide_eq_true_eq] at h
      rcases h with hlt | hlater
      · exact .inl (by omega)
      · exact ih hlater
  | case2 start stop rest hbeyond => exact .inr h
  | case3 rest hshort => exact .inr h

/-- Whether the intervals of the first list, in their order, hold those of the second. -/
def covers : List Nat → List Nat → Bool
  | low :: high :: rest, inner =>
    rest.head?.all (low ≤ ·) && covers rest (dropWithin low high inner)
  | _, inner => inner.isEmpty

theorem le_of_holds {low : Nat} {bounds : List Nat} (h : bounds.head?.all (low ≤ ·))
    (hn : holds bounds n) : low ≤ n := by
  unfold holds at hn
  split at hn <;> simp_all <;> omega

theorem holds_of_covers {outer inner : List Nat} (h : covers outer inner) (hn : holds inner n) :
    holds outer n := by
  fun_induction covers outer inner with
  | case1 low high rest inner ih =>
    obtain ⟨hordered, hrest⟩ := Bool.and_eq_true_iff.1 h
    have hsplit : (low ≤ n ∧ n < high) ∨ holds (dropWithin low high inner) n := holds_dropWithin hn
    rcases hsplit with ⟨hlow, hhigh⟩ | hlater
    · simp [holds, Nat.not_lt.2 hlow, hhigh]
    · have hholds := ih hrest hlater
      simp [holds, Nat.not_lt.2 (le_of_holds hordered hholds), hholds]
  | case2 inner outer hshort =>
    rw [List.isEmpty_iff.1 h] at hn
    cases hn

end Text.Boundaries

/-- What a name may begin with it may go on with. -/
theorem isNameChar_of_isNameStart (h : isNameStart c) : isNameChar c := by
  have hcovers : Boundaries.covers Identifier.continueBounds Identifier.startBounds := by
    decide +kernel
  unfold isNameStart at h
  unfold isNameChar
  split at h
  · next hascii => simp [hascii, Char.isAlphanum, h]
  · next hwide =>
    rw [if_neg hwide]
    exact Boundaries.holds_of_covers hcovers h

/-- A name is made of the characters of names. -/
theorem of_isIdentifier (h : isIdentifier text) : text ≠ [] ∧ ∀ d ∈ text, isNameChar d := by
  cases text with
  | nil => cases h
  | cons first tail =>
    simp only [isIdentifier, Bool.and_eq_true, Bool.or_eq_true, beq_iff_eq, List.all_eq_true] at h
    obtain ⟨hfirst, htail⟩ := h
    refine ⟨List.cons_ne_nil _ _, List.forall_mem_cons.2 ⟨?_, htail⟩⟩
    rcases hfirst with rfl | hfirst
    · decide +kernel
    · exact isNameChar_of_isNameStart hfirst

theorem toNat_lt_of_isDigit (h : c.isDigit) : c.toNat < 0x80 := by
  simp only [Char.isDigit, Bool.and_eq_true, decide_eq_true_eq] at h
  have : c.val ≤ '9'.val := h.2
  exact Nat.lt_of_le_of_lt this (by decide)

theorem isNameChar_of_isDigit (h : c.isDigit) : isNameChar c := by
  simp [isNameChar, toNat_lt_of_isDigit h, Char.isAlphanum, h]

theorem not_isBlank_of_isNameChar (h : isNameChar c) : isBlank c = false :=
  not_isBlank_of_isPlain (isPlain_of_isNameChar h)

theorem startsNumber_of_isDigit (h : c.isDigit) : Cursor.startsNumber c := by
  simp [Cursor.startsNumber, isDigit, toNat_lt_of_isDigit h, h]

/-! ## Where a value ends -/

/-- What may stand behind a value: blanks to the end, or blanks and a bar. -/
inductive Ends : List Char → Prop
  | blank {rest : List Char} (h : allBlank rest) : Ends rest
  | bar {blanks : List Char} (h : allBlank blanks) (behind : List Char) :
    Ends (blanks ++ '|' :: behind)

/-- Whether a character may stand behind a value. -/
def isEnd (c : Char) : Bool := c = '|' || isBlank c

theorem Ends.isEnd_head? (h : Ends rest) : ∀ d ∈ rest.head?, isEnd d := by
  have hblank {blanks : List Char} (h : allBlank blanks) (d : Char) (hd : d ∈ blanks) :
      isEnd d := by
    rw [isEnd, List.all_eq_true.1 h d hd, Bool.or_true]
  intro d hd
  cases h with
  | blank h => exact hblank h d (List.mem_of_mem_head? hd)
  | @bar blanks h behind =>
    cases blanks with
    | nil =>
      cases hd
      rfl
    | cons e blanks =>
      cases hd
      exact hblank h d List.mem_cons_self

/-- **No value goes on** with what may stand behind it. -/
theorem of_isEnd (h : isEnd c) :
    isNameChar c = false ∧ c ≠ '.' ∧ Cursor.isNumeric c = false := by
  simp only [isEnd, Bool.or_eq_true, decide_eq_true_eq] at h
  rcases h with rfl | h
  · decide +kernel
  · obtain ⟨hplain, -, hnumber⟩ := of_isBlank h
    have hname : isNameChar c = false := by
      cases hname : isNameChar c with
      | false => rfl
      | true => rw [not_isBlank_of_isNameChar hname] at h; cases h
    have hdot : c ≠ '.' := by
      rintro rfl
      exact absurd hplain (by decide +kernel)
    refine ⟨hname, hdot, ?_⟩
    have hdigit : c.isDigit = false := by
      cases hdigit : c.isDigit with
      | false => rfl
      | true => rw [isNameChar_of_isDigit hdigit] at hname; cases hname
    have hdash : c ≠ '-' := by
      rintro rfl
      exact absurd hnumber (by decide +kernel)
    have hexp : c ≠ 'e' := by
      rintro rfl
      exact absurd hname (by decide +kernel)
    simp [Cursor.isNumeric, hdigit, hdash, hdot, hexp]

/-! ## Texts between quotes -/

/-- A text with a backslash before each `quote` and each backslash. -/
def escaped (quote : Char) (text : List Char) : List Char :=
  text.flatMap fun c => if c = quote ∨ c = '\\' then ['\\', c] else [c]

/-- A text between quotes. -/
def quotedBetween (quote : Char) (text : String) : List Char :=
  quote :: (escaped quote text.toList ++ [quote])

theorem ne_backslash_of_isQuote (h : Cursor.isQuote quote) : quote ≠ '\\' := by
  rintro rfl
  exact absurd h (by decide)

theorem escaped_cons_marked (h : c = quote ∨ c = '\\') (text : List Char) :
    escaped quote (c :: text) = '\\' :: c :: escaped quote text := by
  simp [escaped, h]

theorem escaped_cons_plain (hquote : c ≠ quote) (hslash : c ≠ '\\') (text : List Char) :
    escaped quote (c :: text) = c :: escaped quote text := by
  simp [escaped, hquote, hslash]

theorem literalBody_escaped (quote : Char) (text : List Char) :
    LiteralBody quote (escaped quote text) := by
  induction text with
  | nil => exact .nil
  | cons c text ih =>
    by_cases hmarked : c = quote ∨ c = '\\'
    · rw [escaped_cons_marked hmarked]
      exact .escaped c ih
    · obtain ⟨hquote, hslash⟩ := not_or.1 hmarked
      rw [escaped_cons_plain hquote hslash]
      exact .plain hslash hquote ih

theorem head?_escaped (hq : quote ≠ '\\') (text : List Char) :
    ∀ d ∈ (escaped quote text).head?, d ≠ quote := by
  intro d hd
  cases text with
  | nil => cases hd
  | cons c text =>
    by_cases hmarked : c = quote ∨ c = '\\'
    · rw [escaped_cons_marked hmarked] at hd
      cases hd
      exact hq.symm
    · obtain ⟨hquote, hslash⟩ := not_or.1 hmarked
      rw [escaped_cons_plain hquote hslash] at hd
      cases hd
      exact hquote

/-- Only a backslash with the escaped character behind it is dropped. -/
theorem dropEscapes_cons {d : Char} (h : d ≠ '\\' ∨ ∀ e ∈ rest.head?, e ≠ c) :
    dropEscapes c (d :: rest) = d :: dropEscapes c rest := by
  cases rest with
  | nil => rfl
  | cons e rest =>
    have hkept : ¬(d = '\\' ∧ e = c) := by
      rintro ⟨hd, he⟩
      exact h.elim (fun h => h hd) fun h => h e rfl he
    simp [dropEscapes, hkept]

/-- Without the backslashes before quotes those before backslashes are left. -/
theorem dropEscapes_quote_escaped (hq : quote ≠ '\\') (text : List Char) :
    dropEscapes quote (escaped quote text) = escaped '\\' text := by
  induction text with
  | nil => rfl
  | cons c text ih =>
    by_cases hquote : c = quote
    · rw [escaped_cons_marked (.inl hquote), hquote, escaped_cons_plain hq hq, ← ih]
      simp [dropEscapes]
    · by_cases hslash : c = '\\'
      · rw [escaped_cons_marked (.inr hslash), escaped_cons_marked (.inr hslash), hslash, ← ih]
        have hnext := head?_escaped hq text
        rw [dropEscapes_cons (.inr (by simpa using hq.symm)), dropEscapes_cons (.inr hnext)]
      · rw [escaped_cons_plain hquote hslash, escaped_cons_plain hslash hslash, ← ih,
          dropEscapes_cons (.inl hslash)]

theorem dropEscapes_escaped (text : List Char) :
    dropEscapes '\\' (escaped '\\' text) = text := by
  induction text with
  | nil => rfl
  | cons c text ih =>
    by_cases hslash : c = '\\'
    · rw [escaped_cons_marked (.inl hslash), hslash]
      simp [dropEscapes, ih]
    · rw [escaped_cons_plain hslash hslash, dropEscapes_cons (.inl hslash), ih]

/-- **A text comes back** from between its quotes. -/
theorem literalText_quotedBetween (hq : Cursor.isQuote quote) (text : String) :
    literalText (quotedBetween quote text) = .ok text := by
  have hslash := ne_backslash_of_isQuote hq
  rw [literalText, quotedBetween, if_pos (Cursor.isLiteral_of_quotes hq), unescape,
    List.dropLast_concat, dropEscapes_quote_escaped hslash, dropEscapes_escaped,
    String.ofList_toList]

namespace Cursor

/-- Behind a text that is read the rest of it is. -/
theorem Reads.append {source : List Char} (h : (⟨start, text ++ rest⟩ : Cursor).Reads source) :
    (⟨start, text⟩ : Cursor).Reads source ∧ (⟨start + text.length, rest⟩ : Cursor).Reads source := by
  refine ⟨h.shorten (List.prefix_append text rest), ?_⟩
  have := h.advance (n := text.length) (by simp)
  rwa [Cursor.advance, List.drop_left] at this

/-- What is read is what stands there. -/
theorem Reads.slice_eq {source : List Char} (h : (⟨start, text⟩ : Cursor).Reads source) :
    Span.slice ⟨start, text.length⟩ source = text := by
  have := h.slice_ahead (Nat.le_refl text.length)
  rwa [List.take_length] at this

theorem closingQuote?_cons (hc : c ≠ '\\') (rest : List Char) :
    closingQuote? quote (c :: rest) =
      if c = quote then some 1 else (closingQuote? quote rest).map (· + 1) := by
  conv => lhs; unfold closingQuote?
  split
  · next h => cases h
  · next h => exact absurd (List.cons.inj h).1 hc
  · next h => exact absurd (List.cons.inj h).1 hc
  · next h => obtain ⟨rfl, rfl⟩ := List.cons.inj h; rfl

theorem closingQuote?_of_literalBody (hq : quote ≠ '\\') (h : LiteralBody quote text)
    (rest : List Char) : closingQuote? quote (text ++ quote :: rest) = some (text.length + 1) := by
  induction h with
  | nil => rw [List.nil_append, closingQuote?_cons hq, if_pos rfl]; rfl
  | escaped c h ih => simp [closingQuote?, ih]
  | plain hc hquote h ih =>
    rw [List.cons_append, closingQuote?_cons hc, if_neg hquote, ih]
    rfl

/-- **A text between quotes** is taken up to its last quote. -/
theorem quotedText_quotedBetween (hq : isQuote quote) (text : String) (start : Nat)
    (rest : List Char) :
    (⟨start, quotedBetween quote text ++ rest⟩ : Cursor).quotedText quote =
      .ok (⟨start, (quotedBetween quote text).length⟩,
        ⟨start + (quotedBetween quote text).length, rest⟩) := by
  have hclosing := closingQuote?_of_literalBody (ne_backslash_of_isQuote hq)
    (literalBody_escaped quote text.toList) rest
  have hlength : (escaped quote text.toList).length + 1 + 1 =
      (quotedBetween quote text).length := by
    simp [quotedBetween]
  have hdrop : (quotedBetween quote text ++ rest).drop 1 =
      escaped quote text.toList ++ quote :: rest := by
    simp [quotedBetween]
  simp only [quotedText, hdrop, hclosing, hlength, take, ahead, advance, List.drop_left]

/-- **A text to be translated** is taken up to its bracket. -/
theorem translated_quotedBetween (hq : isQuote quote) (text : String) (start : Nat)
    (rest : List Char) :
    (⟨start, '_' :: '(' :: (quotedBetween quote text ++ ')' :: rest)⟩ : Cursor).translated =
      .ok (⟨start, (quotedBetween quote text).length + 3⟩,
        ⟨start + ((quotedBetween quote text).length + 3), rest⟩) := by
  have hinner := quotedText_quotedBetween hq text (start + 2) (')' :: rest)
  have hdrop : ('_' :: '(' :: (quotedBetween quote text ++ ')' :: rest)).drop
      ((quotedBetween quote text).length + 3) = rest := by
    rw [List.drop_succ_cons, List.drop_succ_cons, ← List.drop_drop, List.drop_left]
    rfl
  simp only [translated, advance, List.drop_succ_cons, List.drop_zero]
  split
  · next h => simp [quotedBetween] at h
  · next first tail h =>
    obtain rfl : quote = first := by
      simp only [quotedBetween, List.cons_append, List.cons.injEq] at h
      exact h.1
    rw [if_neg (by simp [hq]), hinner]
    simp only [bind, Except.bind, take, ahead, advance, hdrop]
    rfl

end Cursor

/-! ## Integers -/

namespace Integer

theorem toList_toString (n : Int) : (toString n).toList =
    if n < 0 then '-' :: Nat.toDigits 10 n.natAbs else Nat.toDigits 10 n.natAbs := by
  rw [Int.toString_eq_repr, Int.repr_eq_if]
  by_cases hneg : n < 0
  · rw [if_neg (Int.not_le.2 hneg), if_pos hneg, String.toList_append, Nat.toList_repr,
      show (-n).toNat = n.natAbs by omega]
    rfl
  · rw [if_pos (Int.not_lt.1 hneg), if_neg hneg, Nat.toList_repr, show n.toNat = n.natAbs by omega]

theorem isDigit_of_mem {n : Nat} {d : Char} (h : d ∈ Nat.toDigits 10 n) : d.isDigit :=
  Nat.isDigit_of_mem_toDigits (by decide) (by decide) h

/-- The text of an integer begins like a number, and its other characters are digits. -/
theorem exists_toString (n : Int) : ∃ first tail, (toString n).toList = first :: tail ∧
    (first = '-' ∨ first.isDigit) ∧ ∀ d ∈ tail, d.isDigit := by
  rw [toList_toString]
  split
  · exact ⟨'-', _, rfl, .inl rfl, fun d => isDigit_of_mem⟩
  · cases hdigits : Nat.toDigits 10 n.natAbs with
    | nil => exact absurd hdigits Nat.toDigits_ne_nil
    | cons first tail =>
      have hall : ∀ d ∈ first :: tail, d.isDigit := by
        rw [← hdigits]
        exact fun d => isDigit_of_mem
      obtain ⟨hfirst, htail⟩ := List.forall_mem_cons.1 hall
      exact ⟨first, tail, rfl, .inr hfirst, htail⟩

theorem decimalValue?_of_isDigit (h : c.isDigit) :
    decimalValue? c = some (c.toNat - '0'.toNat) := by
  simp [decimalValue?, toNat_lt_of_isDigit h, h]

theorem digits?_of_isDigit (hne : text ≠ []) (h : ∀ d ∈ text, d.isDigit) :
    digits? text = some (text.map fun d => d.toNat - '0'.toNat) := by
  fun_induction digits? text with
  | case1 => exact absurd rfl hne
  | case2 d => rw [decimalValue?_of_isDigit (h d List.mem_cons_self)]; rfl
  | case3 d rest ih =>
    have hunderscore := h '_' (by simp)
    exact absurd hunderscore (by decide)
  | case4 d next rest hnext ih =>
    obtain ⟨hd, hrest⟩ := List.forall_mem_cons.1 h
    rw [decimalValue?_of_isDigit hd, ih (List.cons_ne_nil _ _) hrest]
    rfl

theorem length_toDigits_le {n limit : Nat} (hlimit : 0 < limit) (h : n < Nat.pow 10 limit) :
    (Nat.toDigits 10 n).length ≤ limit :=
  (Nat.length_toDigits_le_iff (by decide) hlimit).2 h

theorem magnitude?_toDigits {n : Nat} (h : n < Nat.pow 10 digitLimit) :
    magnitude? (Nat.toDigits 10 n) = some n := by
  have hlength := length_toDigits_le (by decide) h
  have hvalue : ofDigits ((Nat.toDigits 10 n).map fun d => d.toNat - '0'.toNat) = n := by
    rw [ofDigits, List.foldl_map]
    exact Nat.ofDigitChars_toDigits (by decide) (by decide)
  rw [magnitude?, digits?_of_isDigit Nat.toDigits_ne_nil fun d => isDigit_of_mem]
  simp only [bind, Option.bind, List.length_map, hlength, if_true, hvalue]

theorem not_isNumberBlank (h : c = '-' ∨ c.isDigit) : isNumberBlank c = false := by
  rcases h with rfl | h
  · decide
  · rw [isNumberBlank, not_isBlank_of_isNameChar (isNameChar_of_isDigit h), Bool.false_and]

theorem dropWhile_of_forall {p : Char → Bool} (h : ∀ d ∈ text, p d = false) :
    text.dropWhile p = text := by
  cases text with
  | nil => rfl
  | cons d rest => rw [List.dropWhile_cons_of_neg (by simp [h d List.mem_cons_self])]

/-- **An integer comes back** from its decimal text. -/
theorem read?_toString {n : Int} (h : hasText n) : read? (toString n).toList = some n := by
  have hbound : n.natAbs < Nat.pow 10 digitLimit := by simpa only [hasText, decide_eq_true_eq] using h
  have hall : ∀ d ∈ (toString n).toList, isNumberBlank d = false := by
    obtain ⟨first, tail, heq, hfirst, htail⟩ := exists_toString n
    rw [heq]
    refine List.forall_mem_cons.2 ⟨not_isNumberBlank hfirst, fun d hd => ?_⟩
    exact not_isNumberBlank (.inr (htail d hd))
  have hbare : (((toString n).toList.dropWhile isNumberBlank).reverse.dropWhile
      isNumberBlank).reverse = (toString n).toList := by
    rw [dropWhile_of_forall hall, dropWhile_of_forall, List.reverse_reverse]
    exact fun d hd => hall d (List.mem_reverse.1 hd)
  have hmagnitude := magnitude?_toDigits hbound
  rw [read?, hbare, toList_toString]
  by_cases hneg : n < 0
  · rw [if_pos hneg]
    have hvalue : -(n.natAbs : Int) = n := by omega
    simp only [hmagnitude]
    exact congrArg some hvalue
  · rw [if_neg hneg]
    have hdigit : ∀ d ∈ (Nat.toDigits 10 n.natAbs).head?, d.isDigit :=
      fun d hd => isDigit_of_mem (List.mem_of_mem_head? hd)
    split
    · next heq => rw [heq] at hdigit; exact absurd (hdigit _ rfl) (by decide)
    · next heq => rw [heq] at hdigit; exact absurd (hdigit _ rfl) (by decide)
    · rw [hmagnitude]
      exact congrArg some (Int.natAbs_of_nonneg (Int.not_lt.1 hneg))

end Integer

theorem isNumeric_of_isDigit (h : c.isDigit) : Cursor.isNumeric c := by
  simp [Cursor.isNumeric, h]

/-- **An integer** is taken up to where values end. -/
theorem Cursor.numeral_toString (n : Int) (start : Nat) (hrest : ∀ d ∈ rest.head?, isEnd d) :
    (⟨start, (toString n).toList ++ rest⟩ : Cursor).numeral =
      (⟨start, (toString n).toList.length⟩, ⟨start + (toString n).toList.length, rest⟩) := by
  have hlength : numeralLength ((toString n).toList ++ rest) = (toString n).toList.length := by
    obtain ⟨first, tail, heq, hfirst, htail⟩ := Integer.exists_toString n
    have hnumeric : isNumeric first := by
      rcases hfirst with rfl | hfirst
      · rfl
      · exact isNumeric_of_isDigit hfirst
    rw [heq, List.cons_append, numeralLength, if_pos hnumeric, takeWhile_ended]
    · rfl
    · intro d hd
      have hdash : d ≠ '-' := by
        rintro rfl
        exact absurd (htail _ hd) (by decide)
      simp [isNumeric_of_isDigit (htail d hd), hdash]
    · intro d hd
      simp [(of_isEnd (hrest d hd)).2.2]
  simp only [numeral, hlength, take, ahead, advance, List.drop_left]

/-! ## Paths -/

/-- Names with dots between them. -/
def dotted : String → List String → List Char
  | root, [] => root.toList
  | root, name :: names => root.toList ++ '.' :: dotted name names

/-- A segment of a path: characters of names, the first of them not an underscore. -/
structure IsSegment (name : String) : Prop where
  ne_nil : name.toList ≠ []
  chars : ∀ d ∈ name.toList, isNameChar d
  unmarked : name.toList.head? ≠ some '_'

instance (name : String) : Decidable (IsSegment name) :=
  decidable_of_iff
    (name.toList ≠ [] ∧ name.toList.all isNameChar ∧ name.toList.head? ≠ some '_')
    ⟨fun ⟨hne, hall, hmark⟩ => ⟨hne, List.all_eq_true.1 hall, hmark⟩,
      fun h => ⟨h.ne_nil, List.all_eq_true.2 h.chars, h.unmarked⟩⟩

variable {root name : String} {names : List String}

theorem IsSegment.not_mem (h : IsSegment name) (hc : isNameChar c = false) : c ∉ name.toList := by
  intro hmem
  rw [h.chars c hmem] at hc
  cases hc

theorem splitOn_of_not_mem (h : c ∉ text) : splitOn c text = [text] := by
  induction text with
  | nil => rfl
  | cons d text ih =>
    obtain ⟨hd, htext⟩ := not_or.1 (mt List.mem_cons.2 h)
    rw [splitOn, if_neg (Ne.symm hd), ih htext]

theorem splitOn_append_cons (h : c ∉ text) (rest : List Char) :
    splitOn c (text ++ c :: rest) = text :: splitOn c rest := by
  induction text with
  | nil => rw [List.nil_append, splitOn, if_pos rfl]
  | cons d text ih =>
    obtain ⟨hd, htext⟩ := not_or.1 (mt List.mem_cons.2 h)
    rw [List.cons_append, splitOn, if_neg (Ne.symm hd), ih htext]

/-- **A path falls into its segments.** -/
theorem splitOn_dotted (hroot : IsSegment root) (hnames : ∀ name ∈ names, IsSegment name) :
    splitOn '.' (dotted root names) = root.toList :: names.map String.toList := by
  induction names generalizing root with
  | nil => exact splitOn_of_not_mem (hroot.not_mem (by decide +kernel))
  | cons name names ih =>
    obtain ⟨hname, hnames⟩ := List.forall_mem_cons.1 hnames
    rw [dotted, splitOn_append_cons (hroot.not_mem (by decide +kernel)), ih hname hnames,
      List.map_cons]

theorem of_mem_dotted (hroot : IsSegment root) (hnames : ∀ name ∈ names, IsSegment name) :
    ∀ d ∈ dotted root names, isNameChar d ∨ d = '.' := by
  induction names generalizing root with
  | nil => exact fun d hd => .inl (hroot.chars d hd)
  | cons name names ih =>
    obtain ⟨hname, hnames⟩ := List.forall_mem_cons.1 hnames
    intro d hd
    rw [dotted, List.mem_append, List.mem_cons] at hd
    rcases hd with hd | rfl | hd
    · exact .inl (hroot.chars d hd)
    · exact .inr rfl
    · exact ih hname hnames d hd

theorem dotted_ne_nil (hroot : IsSegment root) (names : List String) : dotted root names ≠ [] := by
  cases names with
  | nil => exact hroot.ne_nil
  | cons name names => simp [dotted]

theorem head?_dotted (hroot : IsSegment root) (names : List String) :
    (dotted root names).head? = root.toList.head? := by
  cases names with
  | nil => rfl
  | cons name names =>
    rw [dotted, List.head?_append, List.head?_eq_some_head hroot.ne_nil]
    rfl

theorem getLast?_dotted (hroot : IsSegment root) (hnames : ∀ name ∈ names, IsSegment name) :
    ∀ d ∈ (dotted root names).getLast?, isNameChar d := by
  induction names generalizing root with
  | nil => exact fun d hd => hroot.chars d (List.mem_of_getLast? hd)
  | cons name names ih =>
    obtain ⟨hname, hnames⟩ := List.forall_mem_cons.1 hnames
    intro d hd
    refine ih hname hnames d ?_
    rw [dotted, List.getLast?_append, List.getLast?_cons_of_ne_nil (dotted_ne_nil hname names)] at hd
    cases hlast : (dotted name names).getLast? with
    | none => exact absurd (List.getLast?_eq_none_iff.1 hlast) (dotted_ne_nil hname names)
    | some e => rwa [hlast] at hd

namespace Cursor

theorem badSegment?_eq_none {segments : List String} (h : ∀ name ∈ segments, IsSegment name)
    (start : Nat) : badSegment? start (segments.map String.toList) = none := by
  induction segments generalizing start with
  | nil => rfl
  | cons name segments ih =>
    obtain ⟨hname, hsegments⟩ := List.forall_mem_cons.1 h
    rw [List.map_cons, badSegment?]
    · exact ih hsegments _
    · exact hname.ne_nil
    · intro tail heq
      exact hname.unmarked (by rw [heq]; rfl)

theorem checkPath_dotted (hroot : IsSegment root) (hnames : ∀ name ∈ names, IsSegment name)
    (start : Nat) : checkPath (dotted root names) start = .ok () := by
  have hnone := badSegment?_eq_none (List.forall_mem_cons.2 ⟨hroot, hnames⟩) start
  rw [checkPath, splitOn_dotted hroot hnames, ← List.map_cons, hnone]

theorem pathLength_dotted (hroot : IsSegment root) (hnames : ∀ name ∈ names, IsSegment name)
    (hrest : ∀ d ∈ rest.head?, isEnd d) :
    pathLength (dotted root names ++ rest) = (dotted root names).length := by
  rw [pathLength, takeWhile_ended]
  · intro d hd
    simpa using of_mem_dotted hroot hnames d hd
  · intro d hd
    obtain ⟨hname, hdot, -⟩ := of_isEnd (hrest d hd)
    simp [hname, hdot]

end Cursor

/-- A path begins like no other value if it does not begin with a digit. -/
theorem exists_dotted_cons (hroot : IsSegment root)
    (hdigit : ∀ d ∈ root.toList.head?, isDigit d = false) (names : List String) :
    ∃ first tail, dotted root names = first :: tail ∧ first ≠ '_' ∧
      Cursor.isQuote first = false ∧ Cursor.startsNumber first = false := by
  obtain ⟨first, tail, hdotted⟩ := List.exists_cons_of_ne_nil (dotted_ne_nil hroot names)
  have hfirst : root.toList.head? = some first := by
    rw [← head?_dotted hroot names, hdotted]
    rfl
  have hchar := hroot.chars first (List.mem_of_mem_head? hfirst)
  have hdash : first ≠ '-' := by
    rintro rfl
    exact absurd hchar (by decide +kernel)
  refine ⟨first, tail, hdotted, ?_, not_isQuote_of_isPlain (isPlain_of_isNameChar hchar), ?_⟩
  · rintro rfl
    exact hroot.unmarked hfirst
  · simp [Cursor.startsNumber, hdigit first hfirst, hdash]

/-! ## Values -/

/-- **A value as it is meant:** an integer, a text between quotes of one kind, such a text to be
translated, or a path. -/
inductive Literal where
  | integer (value : Int)
  | text (quote : Char) (value : String)
  | translated (quote : Char) (value : String)
  | path (root : String) (names : List String)

namespace Literal

/-- A value that can be written: not too many digits, a quote that is one, a path of segments that
does not begin like a number. -/
def Proper : Literal → Prop
  | .integer value => Integer.hasText value
  | .text quote _ => Cursor.isQuote quote
  | .translated quote _ => Cursor.isQuote quote
  | .path root names =>
    IsSegment root ∧ (∀ name ∈ names, IsSegment name) ∧ ∀ d ∈ root.toList.head?, isDigit d = false

/-- The kind of word that a value is written as. -/
def kind : Literal → OperandKind
  | .integer _ => .numeric
  | .text .. => .text
  | .translated .. => .translated
  | .path .. => .path

/-- **The text of a value.** -/
def written : Literal → List Char
  | .integer value => (toString value).toList
  | .text quote value => quotedBetween quote value
  | .translated quote value => '_' :: '(' :: (quotedBetween quote value ++ [')'])
  | .path root names => dotted root names

/-- The word for a value that is written at an offset. -/
def operand (start : Nat) (l : Literal) : Operand := ⟨l.kind, ⟨start, l.written.length⟩⟩

/-- **The atom that a value is,** written at an offset. Inside a loop `forloop` is the loop. -/
def atom (r : Reader) (start : Nat) (l : Literal) : Atom :=
  let span := (l.operand start).inner
  match l with
  | .integer value => .int span value
  | .text _ value => .text span value
  | .translated _ value => .translated span value
  | .path root names =>
    if 0 < r.loopDepth && root = "forloop" then
      let (outer, names) := Reader.parents names
      let (counter, names) := Reader.counter names
      .loop span outer counter names
    else .path span root names

end Literal

namespace Chain

open Cursor

theorem head_cons (hc : c ≠ '_') (start : Nat) (rest : List Char) :
    head ⟨start, c :: rest⟩ =
      if isQuote c then
        ((⟨start, c :: rest⟩ : Cursor).quotedText c).map fun (span, behind) => (⟨.text, span⟩, behind)
      else if startsNumber c then
        .ok (⟨.numeric, (⟨start, c :: rest⟩ : Cursor).numeral.1⟩,
          (⟨start, c :: rest⟩ : Cursor).numeral.2)
      else head.name ⟨start, c :: rest⟩ := by
  unfold head
  split
  · next heq => exact absurd (List.cons.inj heq).1 hc
  · next heq => obtain ⟨rfl, rfl⟩ := List.cons.inj heq; rfl
  · next heq => cases heq

theorem head_name_dotted (hroot : IsSegment root) (hnames : ∀ name ∈ names, IsSegment name)
    (hrest : ∀ d ∈ rest.head?, isEnd d) (start : Nat) :
    head.name ⟨start, dotted root names ++ rest⟩ =
      .ok (⟨.path, ⟨start, (dotted root names).length⟩⟩,
        ⟨start + (dotted root names).length, rest⟩) := by
  have hne : (dotted root names).length ≠ 0 :=
    Nat.ne_of_gt (List.length_pos_iff.2 (dotted_ne_nil hroot names))
  have hlast : (dotted root names).getLast? ≠ some '.' := fun heq =>
    absurd (getLast?_dotted hroot hnames '.' heq) (by decide +kernel)
  simp only [head.name, pathLength_dotted hroot hnames hrest, List.take_left, hne, hlast, if_false,
    checkPath_dotted hroot hnames, ahead, advance, List.drop_left]
  rfl

theorem exists_splitOn_cons {x d : Char} (h : d ≠ x) (text : List Char) :
    ∃ first others, splitOn x (d :: text) = (d :: first) :: others := by
  rw [splitOn, if_neg h]
  cases splitOn x text with
  | nil => exact ⟨[], [], rfl⟩
  | cons first others => exact ⟨first, others, rfl⟩

/-- No name begins with an underscore. -/
theorem head_underscore_ne_ok (h : rest.head? ≠ some '(') {r : Operand × Cursor} :
    head ⟨start, '_' :: rest⟩ ≠ .ok r := by
  have hname : head ⟨start, '_' :: rest⟩ = head.name ⟨start, '_' :: rest⟩ := by
    unfold head
    split
    · next heq =>
      rw [(List.cons.inj heq).2] at h
      exact absurd rfl h
    · next heq =>
      obtain ⟨rfl, rfl⟩ := List.cons.inj heq
      rfl
    · next heq => cases heq
  have hlength : pathLength ('_' :: rest) = pathLength rest + 1 := by
    rw [pathLength, List.takeWhile_cons_of_pos (by decide +kernel)]
    rfl
  obtain ⟨first, others, hsplit⟩ :=
    exists_splitOn_cons (show '_' ≠ '.' by decide) (rest.take (pathLength rest))
  have hrefused : checkPath ('_' :: rest.take (pathLength rest)) start =
      .error (.here .invalidName ⟨start, ('_' :: first).length⟩) := by
    rw [checkPath, hsplit]
    rfl
  rw [hname, head.name]
  simp only [hlength, List.take_succ_cons, hrefused]
  intro hok
  split at hok
  · cases hok
  · split at hok
    · rw [bind_eq_ok] at hok
      obtain ⟨_, -, hok⟩ := hok
      cases hok
    · cases hok

theorem path_of_head_name {c next : Cursor} {o : Operand} (h : head.name c = .ok (o, next)) :
    o.kind = .path ∧ c.path = .ok (o.span, next) := by
  unfold head.name at h
  dsimp only at h
  split at h
  · cases h
  · split at h
    · rw [bind_eq_ok] at h
      obtain ⟨_, -, h⟩ := h
      cases h
    · rw [bind_eq_ok] at h
      obtain ⟨_, hcheck, h⟩ := h
      cases h
      refine ⟨rfl, ?_⟩
      rw [path, hcheck]
      rfl

/-- **What is a value at the start of a chain** is the same value behind a colon. -/
theorem argument_of_head {o : Operand} {next : Cursor}
    (h : head ⟨start + 1, text⟩ = .ok (o, next)) :
    argument ⟨start, ':' :: text⟩ = .ok (some o, next) := by
  have hcolon : lengthBefore ':' (':' :: text) = 0 := rfl
  unfold argument
  simp only [hcolon, List.length_cons, Nat.not_lt_zero, Nat.zero_ne_add_one, decide_false,
    Bool.or_self, Bool.false_eq_true, if_false, advance, Nat.zero_add, List.drop_succ_cons,
    List.drop_zero]
  split
  · cases h
  · simp only [head] at h
    obtain ⟨r, hread, heq⟩ := map_eq_ok h
    cases heq
    rw [hread]
    rfl
  · next rest hno =>
    refine absurd h (head_underscore_ne_ok fun hbracket => ?_)
    obtain ⟨tail, rfl⟩ := List.head?_eq_some_iff.1 hbracket
    exact hno tail rfl
  · next first rest hno hmark =>
    rw [head_cons hmark] at h
    split at h
    · next hquote =>
      obtain ⟨r, hread, heq⟩ := map_eq_ok h
      cases heq
      rw [if_pos hquote, hread]
      rfl
    · next hquote =>
      rw [if_neg hquote]
      split at h
      · next hnumber =>
        cases h
        rw [if_pos hnumber]
      · next hnumber =>
        obtain ⟨hkind, hpath⟩ := path_of_head_name h
        rw [if_neg hnumber, hpath, ← hkind]
        rfl

end Chain

namespace Literal

variable {l : Literal}

/-- **A value is found** at the start of a chain. -/
theorem head_written (h : l.Proper) (hrest : ∀ d ∈ rest.head?, isEnd d) (start : Nat) :
    Chain.head ⟨start, l.written ++ rest⟩ =
      .ok (l.operand start, ⟨start + l.written.length, rest⟩) := by
  cases l with
  | integer value =>
    have hnumeral := Cursor.numeral_toString value start hrest
    obtain ⟨first, tail, heq, hfirst, -⟩ := Integer.exists_toString value
    have hclass : first ≠ '_' ∧ Cursor.isQuote first = false ∧ Cursor.startsNumber first := by
      rcases hfirst with rfl | hdigit
      · decide
      · refine ⟨?_, not_isQuote_of_isPlain (isPlain_of_isNameChar (isNameChar_of_isDigit hdigit)),
          startsNumber_of_isDigit hdigit⟩
        rintro rfl
        exact absurd hdigit (by decide)
    obtain ⟨hmark, hquote, hnumber⟩ := hclass
    simp only [written, operand, kind]
    rw [heq, List.cons_append] at hnumeral ⊢
    rw [Chain.head_cons hmark, hquote, if_neg Bool.false_ne_true, if_pos hnumber, hnumeral]
  | text quote value =>
    have hquote : Cursor.isQuote quote := h
    have hmark : quote ≠ '_' := by
      rintro rfl
      exact absurd hquote (by decide)
    have hquoted := Cursor.quotedText_quotedBetween hquote value start rest
    simp only [written, operand, kind]
    rw [quotedBetween, List.cons_append] at hquoted ⊢
    rw [Chain.head_cons hmark, if_pos hquote, hquoted]
    rfl
  | translated quote value =>
    have htranslated := Cursor.translated_quotedBetween h value start rest
    simp only [written, operand, kind, List.cons_append, List.append_assoc, List.nil_append,
      List.length_cons, List.length_append, List.length_nil]
    simp only [Chain.head, htranslated]
    rfl
  | path root names =>
    obtain ⟨hroot, hnames, hdigit⟩ := h
    have hname := Chain.head_name_dotted hroot hnames hrest start
    obtain ⟨first, tail, hdotted, hmark, hquote, hnumber⟩ := exists_dotted_cons hroot hdigit names
    simp only [written, operand, kind]
    rw [hdotted, List.cons_append] at hname ⊢
    rw [Chain.head_cons hmark, hquote, if_neg Bool.false_ne_true, hnumber, if_neg Bool.false_ne_true,
      hname]

/-- **A value is found** behind a colon. -/
theorem argument_written (h : l.Proper) (hrest : ∀ d ∈ rest.head?, isEnd d) (start : Nat) :
    Chain.argument ⟨start, ':' :: (l.written ++ rest)⟩ =
      .ok (some (l.operand (start + 1)), ⟨start + 1 + l.written.length, rest⟩) :=
  Chain.argument_of_head (head_written h hrest (start + 1))

theorem written_ne_nil (h : l.Proper) : l.written ≠ [] := by
  cases l with
  | integer value =>
    obtain ⟨first, tail, heq, -⟩ := Integer.exists_toString value
    exact fun hnil => List.cons_ne_nil first tail (heq.symm.trans hnil)
  | text quote value => exact List.cons_ne_nil _ _
  | translated quote value => exact List.cons_ne_nil _ _
  | path root names => exact dotted_ne_nil h.1 names

/-- **No value has a blank at an end.** -/
theorem not_isBlank_written (h : l.Proper) :
    (∀ d ∈ l.written.head?, isBlank d = false) ∧ ∀ d ∈ l.written.getLast?, isBlank d = false := by
  have hname {d : Char} (hd : isNameChar d) := not_isBlank_of_isNameChar hd
  cases l with
  | integer value =>
    obtain ⟨first, tail, heq, hfirst, htail⟩ := Integer.exists_toString value
    have hall : ∀ d ∈ (toString value).toList, isBlank d = false := by
      rw [heq]
      refine List.forall_mem_cons.2 ⟨?_, fun d hd => hname (isNameChar_of_isDigit (htail d hd))⟩
      rcases hfirst with rfl | hdigit
      · decide
      · exact hname (isNameChar_of_isDigit hdigit)
    exact ⟨fun d hd => hall d (List.mem_of_mem_head? hd),
      fun d hd => hall d (List.mem_of_getLast? hd)⟩
  | text quote value =>
    have hquote : isBlank quote = false := by
      cases hblank : isBlank quote with
      | false => rfl
      | true =>
        have hno := (of_isBlank hblank).2.1
        rw [show Cursor.isQuote quote from h] at hno
        cases hno
    refine ⟨fun d hd => ?_, fun d hd => ?_⟩
    · cases hd
      exact hquote
    · rw [written, quotedBetween, ← List.cons_append, List.getLast?_concat] at hd
      cases hd
      exact hquote
  | translated quote value =>
    refine ⟨fun d hd => ?_, fun d hd => ?_⟩
    · cases hd
      rfl
    · rw [written, ← List.cons_append, ← List.cons_append, List.getLast?_concat] at hd
      cases hd
      rfl
  | path root names =>
    obtain ⟨hroot, hnames, -⟩ := h
    refine ⟨fun d hd => ?_, fun d hd => hname (getLast?_dotted hroot hnames d hd)⟩
    rw [written, head?_dotted hroot] at hd
    exact hname (hroot.chars d (List.mem_of_mem_head? hd))

end Literal

namespace Reader

variable {r : Reader} {l : Literal}

/-- **The atom that is made** of a value where it is written. -/
theorem atom_written (h : l.Proper) (hreads : (⟨start, l.written⟩ : Cursor).Reads r.source) :
    r.atom (l.operand start) = .ok (l.atom r start) := by
  have hslice := hreads.slice_eq
  cases l with
  | integer value =>
    simp only [atom, Literal.operand, Literal.kind, number, hslice]
    rw [Literal.written, Integer.read?_toString h]
    rfl
  | text quote value =>
    simp only [atom, Literal.operand, Literal.kind, hslice]
    rw [Literal.written, literalText_quotedBetween h]
    rfl
  | translated quote value =>
    have hlength : (Literal.translated quote value).written.length =
        (quotedBetween quote value).length + 3 := by
      simp [Literal.written]
    have hsplit : (⟨start, ['_', '('] ++ (quotedBetween quote value ++ [')'])⟩ : Cursor).Reads
        r.source := hreads
    have hquoted : Span.slice ⟨start + 2, (quotedBetween quote value).length⟩ r.source =
        quotedBetween quote value := hsplit.append.2.append.1.slice_eq
    simp only [atom, Literal.operand, Literal.kind, hlength, Nat.add_sub_cancel, hquoted]
    rw [literalText_quotedBetween h, ← hlength]
    rfl
  | path root names =>
    obtain ⟨hroot, hnames, -⟩ := h
    have hnames' : (names.map String.toList).map String.ofList = names := by simp
    simp only [atom, Literal.operand, Literal.kind, path, hslice]
    rw [Literal.written, splitOn_dotted hroot hnames, List.map_cons, hnames', String.ofList_toList]
    rfl

end Reader

end Galley
