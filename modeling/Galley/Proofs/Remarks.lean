import Galley.Proofs.Outcome
import Galley.Proofs.Snippets

/-!
# Errors whose places are apart are shown

The remarks under a line hang from the anchors of its marks, and two that hang from one column
cannot be drawn. The anchor of a mark lies on the mark, also after it was cut at the end of the
line. So the anchors of places that are apart differ, and an error with such places has a report.

* `Report.Mark.anchor_lt`, `Report.anchor_ne`: the anchors of two places.
* `Report.exists_report`: the report of a located error.
* `TemplateError.Shown`: what it takes to show an error, and that it is there if the error is located.
-/

namespace Galley

namespace Report

variable {source : List Char} {lines : List (List Char)}

/-! ## Anchors -/

theorem Mark.anchor_lt {a b : Mark} (hcolumn : a.column < b.column)
    (hstop : a.column + a.length ≤ b.column) : a.anchor < b.anchor := by
  -- an anchor lies on its mark, or at its start if the mark is empty
  have ha : a.anchor < b.column := by
    unfold anchor
    split <;> omega
  have hb : b.column ≤ b.anchor := by
    unfold anchor
    split <;> omega
  exact Nat.lt_of_lt_of_le ha hb

/-- A place that lies before another one on its line has its anchor before that of the other. -/
theorem anchor_lt {a b : Label} (h : a.span.Before b.span.start)
    (hline : (place (lineStarts source) lines a).line = (place (lineStarts source) lines b).line) :
    (place (lineStarts source) lines a).mark.anchor <
      (place (lineStarts source) lines b).mark.anchor := by
  obtain ⟨-, ha, -⟩ := locate_spec source a.span.start
  obtain ⟨hstart, hstop⟩ := h
  simp only [Span.stop] at hstop
  simp only [place] at hline
  refine Mark.anchor_lt ?_ ?_
  · simp only [place, ← hline]
    omega
  · simp only [place, ← hline]
    omega

/-- **Places that are apart** have different anchors if they are marked on one line. -/
theorem anchor_ne {a b : Label} (h : a.span.Apart b.span)
    (hline : (place (lineStarts source) lines a).line = (place (lineStarts source) lines b).line) :
    (place (lineStarts source) lines a).mark.anchor ≠
      (place (lineStarts source) lines b).mark.anchor := by
  rcases h with h | h
  · exact Nat.ne_of_lt (anchor_lt h hline)
  · exact Nat.ne_of_gt (anchor_lt h hline.symm)

/-! ## Reports -/

/-- **A located error has a report,** whatever the template is called. -/
theorem exists_report {e : TemplateError} (h : e.Located source) (name : Option String) :
    ∃ report, report? source e name = some report := by
  have hanchors : e.labels.Pairwise fun a b =>
      lineOf source a.span.start = lineOf source b.span.start →
        (markOf source a).anchor ≠ (markOf source b).anchor := by
    refine List.Pairwise.imp_of_mem (fun {a b} ha hb hapart hline => ?_) h.clear
    have hne := @anchor_ne source (Text.splitOn '\n' source) a b hapart
    rw [place_eq (h.within a ha), place_eq (h.within b hb)] at hne
    exact hne hline
  unfold report?
  split
  · exact ⟨_, rfl⟩
  · next first others hlabels =>
    have hwithin := h.within
    rw [hlabels] at hwithin hanchors
    obtain ⟨s, hs, -⟩ := exists_snippet name hwithin ((nodup_marksOn_iff _ _).2 hanchors)
    rw [hs]
    exact ⟨_, rfl⟩

end Report

/-- An error **can be shown** with a text: its places lie there and on lines of the text, the remarks
on two places of one line hang from different columns, and there is a report, whatever the template
is called. -/
structure TemplateError.Shown (source : List Char) (e : TemplateError) : Prop where
  within : ∀ label ∈ e.labels, label.span.Within source
  lines : ∀ label ∈ e.labels,
    Report.locate (Report.lineStarts source) label.span.start < (Text.splitOn '\n' source).length
  anchors : e.labels.Pairwise fun a b =>
    let placed := Report.place (Report.lineStarts source) (Text.splitOn '\n' source)
    (placed a).line = (placed b).line → (placed a).mark.anchor ≠ (placed b).mark.anchor
  report : ∀ name, ∃ report, Report.report? source e name = some report

/-- **An error that is located in a text can be shown.** -/
theorem TemplateError.Located.shown {source : List Char} {e : TemplateError} (h : e.Located source) :
    e.Shown source where
  within := h.within
  lines label _ := Report.locate_eq source label.span.start ▸ Report.lineOf_lt source label.span.start
  anchors := h.clear.imp Report.anchor_ne
  report := Report.exists_report h

end Galley
