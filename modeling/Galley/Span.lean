/-!
# Places in a template text

A template is a list of characters. A `Span` names a stretch of it by the offset of its first
character and the number of its characters; both count characters, never bytes.

* `Span.slice`: the characters that a span covers.
* `Span.through`: the span from the start of one span to the end of another.
-/

namespace Galley

/-- A stretch of a template text: where it starts and how many characters it has. -/
structure Span where
  start : Nat
  length : Nat
deriving DecidableEq, Inhabited

namespace Span

/-- The offset just past the span. -/
def stop (s : Span) : Nat := s.start + s.length

/-- The characters of `text` that the span covers. -/
def slice (s : Span) (text : List Char) : List Char := (text.drop s.start).take s.length

/-- **From one place to another.** The span that starts where `first` starts and stops where
`last` stops. -/
def through (first last : Span) : Span := ⟨first.start, last.stop - first.start⟩

/-- The span inside the text on which every label has to lie. -/
def Within (s : Span) (text : List Char) : Prop := s.stop ≤ text.length

instance (s : Span) (text : List Char) : Decidable (s.Within text) :=
  inferInstanceAs (Decidable (s.start + s.length ≤ text.length))

theorem length_slice_of_within {s : Span} {text : List Char} (h : s.Within text) :
    (s.slice text).length = s.length := by
  simp only [Within, stop] at h
  simp only [slice, List.length_take, List.length_drop]
  omega

end Span

end Galley
