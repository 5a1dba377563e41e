import Galley.Text.Search

/-!
# Blank characters

The blank characters are those with a white space, paragraph separator or segment separator
direction, or of the space separator category: twenty-nine in all, four of them the information
separators. Tags are split at them and trimmed of them.

* `isBlank`: the class.
* `trimStart`, `trimEnd`, `trim`: a text without its outer blanks.
* `wordLength`, `blankLength`: the lengths of the leading word and of the leading blanks.
* `trim_prefix_drop`: where the trimmed text stands.
-/

namespace Galley.Text

/-- Whether a character is blank. -/
def isBlank (c : Char) : Bool :=
  let n := c.toNat
  (9 ≤ n && n ≤ 13) || (28 ≤ n && n ≤ 32) || n == 0x85 || n == 0xA0 || n == 0x1680 ||
    (0x2000 ≤ n && n ≤ 0x200A) || n == 0x2028 || n == 0x2029 || n == 0x202F || n == 0x205F ||
    n == 0x3000

/-- The text from its first character that is not blank on. -/
def trimStart (text : List Char) : List Char := text.dropWhile isBlank

/-- The text up to its last character that is not blank. -/
def trimEnd (text : List Char) : List Char := (text.reverse.dropWhile isBlank).reverse

/-- The text without blanks at either end. -/
def trim (text : List Char) : List Char := trimEnd (trimStart text)

/-- Whether all characters are blank; the empty text is. -/
def allBlank (text : List Char) : Bool := text.all isBlank

/-- The number of characters before the first blank one. -/
def wordLength (text : List Char) : Nat := (text.takeWhile fun c => !isBlank c).length

/-- The number of blank characters at the start. -/
def blankLength (text : List Char) : Nat := (text.takeWhile isBlank).length

theorem wordLength_le (text : List Char) : wordLength text ≤ text.length :=
  (List.takeWhile_sublist _).length_le

theorem blankLength_le (text : List Char) : blankLength text ≤ text.length :=
  (List.takeWhile_sublist _).length_le

/-- Where no word begins a blank stands. -/
theorem isBlank_of_wordLength {c : Char} {rest : List Char} (h : wordLength (c :: rest) = 0) :
    isBlank c := by
  by_cases hc : isBlank c
  · exact hc
  · simp [wordLength, hc] at h

theorem blankLength_pos {text : List Char} (hne : text ≠ []) (h : wordLength text = 0) :
    0 < blankLength text := by
  cases text with
  | nil => exact absurd rfl hne
  | cons c rest => simp [blankLength, isBlank_of_wordLength h]

/-- Dropping the leading blanks by their number is dropping them by their class. -/
theorem drop_blankLength (text : List Char) : text.drop (blankLength text) = trimStart text :=
  drop_length_takeWhile isBlank text

theorem blankLength_add_length_trimStart (text : List Char) :
    blankLength text + (trimStart text).length = text.length := by
  rw [← drop_blankLength, List.length_drop]
  have := blankLength_le text
  omega

/-- The leading blanks are blank. -/
theorem allBlank_take_blankLength (text : List Char) : allBlank (text.take (blankLength text)) := by
  rw [blankLength, take_length_takeWhile]
  exact List.all_takeWhile

/-- What is trimmed off the end of a text is blank. -/
theorem exists_trimEnd_append (text : List Char) :
    ∃ trailing, allBlank trailing ∧ text = trimEnd text ++ trailing := by
  refine ⟨(text.reverse.takeWhile isBlank).reverse, ?_, ?_⟩
  · rw [allBlank, List.all_reverse]
    exact List.all_takeWhile
  · rw [trimEnd, ← List.reverse_append, List.takeWhile_append_dropWhile, List.reverse_reverse]

theorem trimEnd_prefix_self (text : List Char) : trimEnd text <+: text := by
  have h := List.dropWhile_suffix (l := text.reverse) isBlank
  rw [← List.reverse_prefix, List.reverse_reverse] at h
  exact h

/-- The trimmed text stands in the text behind its leading blanks. -/
theorem trim_prefix_drop (text : List Char) : trim text <+: text.drop (blankLength text) := by
  rw [drop_blankLength]
  exact trimEnd_prefix_self _

theorem blankLength_add_length_trim_le (text : List Char) :
    blankLength text + (trim text).length ≤ text.length := by
  have := (trim_prefix_drop text).length_le
  have := blankLength_le text
  simp only [List.length_drop] at *
  omega

end Galley.Text
