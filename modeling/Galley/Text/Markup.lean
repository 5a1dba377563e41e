/-!
# Escaping markup

The five characters with a meaning in markup are written as entities.

* `escapeChar`, `escapeMarkup`: the escaping.
* `not_mem_escapeMarkup`: no angle bracket or quote is left.
-/

namespace Galley.Text

/-- A character as it is written in markup. -/
def escapeChar (c : Char) : List Char :=
  if c = '&' then "&amp;".toList
  else if c = '<' then "&lt;".toList
  else if c = '>' then "&gt;".toList
  else if c = '"' then "&quot;".toList
  else if c = '\'' then "&#x27;".toList
  else [c]

/-- A text as it is written in markup. -/
def escapeMarkup (text : String) : String := String.ofList (text.toList.flatMap escapeChar)

/-- Whether a character could open or close markup if it were written as it is. -/
def isMarkup (c : Char) : Bool := c = '<' || c = '>' || c = '"' || c = '\''

theorem escapeChar_not_markup (c : Char) : (escapeChar c).all (fun d => !isMarkup d) := by
  unfold escapeChar
  repeat' split
  all_goals first
    | decide
    | (simp only [List.all_cons, List.all_nil, Bool.and_true, isMarkup]; simp_all)

/-- **Nothing dangerous is left** of a text once it is escaped. -/
theorem not_mem_escapeMarkup (text : String) {c : Char} (h : c ∈ (escapeMarkup text).toList) :
    isMarkup c = false := by
  simp only [escapeMarkup, String.toList_ofList, List.mem_flatMap] at h
  obtain ⟨d, -, hc⟩ := h
  simpa using List.all_eq_true.1 (escapeChar_not_markup d) c hc

end Galley.Text
