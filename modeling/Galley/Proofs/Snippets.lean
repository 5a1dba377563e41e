import Galley.Proofs.Lines
import Galley.Proofs.Underlines

/-!
# Snippets show their labels where they are

A snippet shows consecutive lines of the text, each with its number, and under a line what is drawn of
the labels that start there. Its header names the place of the label that starts first. There is no
snippet if two labels of one line have one anchor.

* `Report.Snippet`: a snippet in its parts.
* `Report.markOf`, `Report.place_eq`: the mark of a label.
* `Report.window_spec`, `Report.earliest_spec`: the lines that are shown, and the header.
* `Report.Drawn`, `Report.Snippet.Shows`: **a snippet that shows labels** at their places.
* `Report.exists_snippet`, `Report.nodup_of_snippet`: the labels that have one.
* `Report.positioned_iff`: the errors whose report does what it should.
-/

namespace Galley.Report

variable {source : List Char} {lines : List (List Char)} {labels others : List Label}
  {first label : Label} {placed : List Placed} {marks : List Mark} {marked : List Nat} {n : Nat}
  {name : Option String}

/-! ## Lines that are shown -/

theorem foldl_min_le (a : Nat) (items : List Nat) :
    items.foldl min a ≤ a ∧ ∀ x ∈ items, items.foldl min a ≤ x := by
  induction items generalizing a with
  | nil => exact ⟨Nat.le_refl a, nofun⟩
  | cons first rest ih =>
    obtain ⟨hstart, hrest⟩ := ih (min a first)
    rw [List.foldl_cons]
    refine ⟨by omega, List.forall_mem_cons.2 ⟨by omega, hrest⟩⟩

theorem le_foldl_max (a : Nat) (items : List Nat) :
    a ≤ items.foldl max a ∧ ∀ x ∈ items, x ≤ items.foldl max a := by
  induction items generalizing a with
  | nil => exact ⟨Nat.le_refl a, nofun⟩
  | cons first rest ih =>
    obtain ⟨hstart, hrest⟩ := ih (max a first)
    rw [List.foldl_cons]
    refine ⟨by omega, List.forall_mem_cons.2 ⟨by omega, hrest⟩⟩

/-- **The window** is one of lines of the text, and all marked lines are in it. -/
theorem window_spec (hne : marked ≠ []) (h : ∀ n ∈ marked, n < lines.length) :
    (window lines marked).1 ≤ (window lines marked).2 ∧
      (window lines marked).2 < lines.length ∧
      ∀ n ∈ marked, (window lines marked).1 ≤ n ∧ n ≤ (window lines marked).2 := by
  obtain ⟨-, hlowest⟩ := foldl_min_le (lines.length - 1) marked
  obtain ⟨-, hhighest⟩ := le_foldl_max 0 marked
  have hin : ∀ n ∈ marked, (window lines marked).1 ≤ n ∧ n ≤ (window lines marked).2 := by
    intro n hn
    have hlow := hlowest n hn
    have hhigh := hhighest n hn
    have hlength := h n hn
    unfold window
    dsimp only
    refine ⟨by omega, ?_⟩
    split
    · next hdrop =>
      -- the line that is left out is not marked
      have hlast : n ≠ min (lines.length - 1) (marked.foldl max 0 + contextLines) := by
        rintro heq
        rw [← heq] at hdrop
        simp [hn] at hdrop
      omega
    · omega
  obtain ⟨n, hn⟩ := List.exists_mem_of_ne_nil marked hne
  have hlength := h n hn
  refine ⟨Nat.le_trans (hin n hn).1 (hin n hn).2, ?_, hin⟩
  unfold window
  dsimp only
  split <;> omega

/-- **The origin** is the place that starts first. -/
theorem earliest_spec (first : Placed) (others : List Placed) :
    earliest first others ∈ first :: others ∧
      ∀ p ∈ first :: others, (earliest first others).start ≤ p.start := by
  induction others generalizing first with
  | nil => exact ⟨List.mem_cons_self, by simp [earliest]⟩
  | cons next rest ih =>
    have hstep : earliest first (next :: rest) =
      earliest (if next.start < first.start then next else first) rest := rfl
    rw [hstep]
    obtain ⟨hmem, hle⟩ := ih (if next.start < first.start then next else first)
    obtain ⟨hbest, hrest⟩ := List.forall_mem_cons.1 hle
    split at hmem
    · next hlt =>
      rw [if_pos hlt] at hbest hrest ⊢
      refine ⟨List.mem_cons_of_mem _ hmem, ?_⟩
      exact List.forall_mem_cons.2 ⟨by omega, List.forall_mem_cons.2 ⟨hbest, hrest⟩⟩
    · next hnot =>
      rw [if_neg hnot] at hbest hrest ⊢
      refine ⟨?_, List.forall_mem_cons.2 ⟨hbest, List.forall_mem_cons.2 ⟨by omega, hrest⟩⟩⟩
      rcases List.mem_cons.1 hmem with heq | hmem
      · rw [heq]
        exact List.mem_cons_self
      · exact List.mem_cons_of_mem _ (List.mem_cons_of_mem _ hmem)

/-! ## Labels on their lines -/

/-- The mark of a label on the line that it starts on, cut at the end of that line. -/
def markOf (source : List Char) (label : Label) : Mark :=
  let start := label.span.start
  let line := (Text.splitOn '\n' source)[lineOf source start]?.getD []
  ⟨columnOf source start, min label.span.length (line.length - columnOf source start), label.text⟩

/-- A label at its place. -/
def placedOf (source : List Char) (label : Label) : Placed :=
  ⟨label.span.start, lineOf source label.span.start, markOf source label⟩

/-- The marks of the labels that start on a line. -/
def marksOn (source : List Char) (labels : List Label) (n : Nat) : List Mark :=
  (labels.filter fun label => lineOf source label.span.start = n).map (markOf source)

/-- **A label is placed** on the line of its start, in the column of its start. -/
theorem place_eq (h : label.span.Within source) :
    place (lineStarts source) (Text.splitOn '\n' source) label = placedOf source label := by
  have hstart : label.span.start ≤ source.length := by
    unfold Span.Within Span.stop at h
    omega
  obtain ⟨line, hline, hroom, hle, hfirst⟩ := exists_line hstart
  unfold place placedOf markOf
  simp only [locate_eq, hline, hfirst, Option.getD_some]
  rw [show label.span.start - (label.span.start - columnOf source label.span.start) =
    columnOf source label.span.start by omega]

theorem map_place (h : ∀ label ∈ labels, label.span.Within source) :
    labels.map (place (lineStarts source) (Text.splitOn '\n' source)) =
      labels.map (placedOf source) :=
  List.map_congr_left fun label hlabel => place_eq (h label hlabel)

/-- The marks that are drawn under a line are those of the labels that start there. -/
theorem map_mark_filter (source : List Char) (labels : List Label) (n : Nat) :
    ((labels.map (placedOf source)).filter fun p => p.line = n).map (·.mark) =
      marksOn source labels n := by
  rw [List.filter_map, List.map_map]
  rfl

/-- **The header** is about a label that starts first, whichever it is. -/
theorem earliest_placedOf (hlabel : label ∈ first :: others)
    (hleast : ∀ other ∈ first :: others, label.span.start ≤ other.span.start) :
    (earliest (placedOf source first) (others.map (placedOf source))).line =
        lineOf source label.span.start ∧
      (earliest (placedOf source first) (others.map (placedOf source))).mark.column =
        columnOf source label.span.start := by
  obtain ⟨hmem, hearliest⟩ := earliest_spec (placedOf source first) (others.map (placedOf source))
  rw [← List.map_cons] at hmem hearliest
  obtain ⟨other, hother, heq⟩ := List.mem_map.1 hmem
  have hle := hearliest _ (List.mem_map_of_mem hlabel)
  rw [← heq] at hle ⊢
  have hstart : other.span.start = label.span.start := Nat.le_antisymm hle (hleast other hother)
  rw [← hstart]
  exact ⟨rfl, rfl⟩

/-! ## What is drawn under a line -/

/-- **What is drawn of marks:** an underline in the columns that they cover, and the rows of their
remarks from the rightmost anchor to the leftmost. -/
def Drawn (marks : List Mark) (under : List (List Char)) : Prop :=
  ∃ underline hung rows, under = underline :: rows ∧
    (∀ k, (∃ c, underline[k]? = some c ∧ Text.isBlank c = false) ↔ ∃ m ∈ marks, m.Covers k) ∧
    List.Perm hung marks ∧ HangIn hung rows

/-- Marks with different anchors are drawn, in whatever order they come. -/
theorem exists_under (hanchors : (marks.map Mark.anchor).Nodup) :
    ∃ under, under? (marks.mergeSort Mark.le) = some under ∧
      (marks = [] → under = []) ∧ (marks ≠ [] → Drawn marks under) := by
  have hperm := List.mergeSort_perm marks Mark.le
  by_cases hmarks : marks = []
  · subst hmarks
    exact ⟨[], by rw [List.mergeSort_nil]; rfl, fun _ => rfl, fun hne => absurd rfl hne⟩
  · have hne : marks.mergeSort Mark.le ≠ [] := fun hnil => hmarks (hnil ▸ hperm).nil_eq.symm
    obtain ⟨underline, hunderline, hread⟩ := exists_underline hne
    obtain ⟨hung, rows, hhung, hrows, hhang⟩ :=
      exists_remarks ((hperm.map Mark.anchor).nodup_iff.2 hanchors)
    refine ⟨underline :: rows, ?_, fun hnil => absurd hnil hmarks, fun _ =>
      ⟨underline, hung, rows, rfl, fun k => ?_, hhung.trans hperm, hhang⟩⟩
    · unfold under?
      rw [if_neg (by simpa using hne), hunderline, hrows]
      rfl
    · rw [visible_iff hread]
      exact exists_congr fun m => and_congr_left' hperm.mem_iff

/-- Marks two of which have one anchor are not. -/
theorem nodup_of_under {under : List (List Char)}
    (h : under? (marks.mergeSort Mark.le) = some under) : (marks.map Mark.anchor).Nodup := by
  have hperm := (List.mergeSort_perm marks Mark.le).map Mark.anchor
  refine hperm.nodup_iff.1 ?_
  unfold under? at h
  split at h
  · next hnil =>
    rw [List.isEmpty_iff.1 hnil]
    exact List.nodup_nil
  · obtain ⟨row, -, h⟩ := Option.bind_eq_some_iff.1 h
    obtain ⟨rows, hrows, -⟩ := Option.bind_eq_some_iff.1 h
    exact isSome_remarks_iff.1 (Option.isSome_of_eq_some hrows)

/-! ## Snippets -/

/-- A snippet in its parts: its header, the first and the last line that it shows, and what is drawn
under each line. -/
structure Snippet where
  header : String
  first : Nat
  last : Nat
  under : Nat → List (List Char)

namespace Snippet

/-- The rows of a snippet: the header, the lines with their numbers and with what is drawn under them,
and the footer. -/
def rows (s : Snippet) (source : List Char) : List (List Char) :=
  let gutter := (toString (s.last + 1)).length
  let margin := List.replicate (gutter + 2) ' '
  let shown := (List.range' s.first (s.last + 1 - s.first)).flatMap fun n =>
    (' ' :: numbered gutter (n + 1) ++ " │ ".toList ++ (Text.splitOn '\n' source)[n]?.getD []) ::
      (s.under n).map fun row => margin ++ "· ".toList ++ row
  (margin ++ s.header.toList) :: shown ++ [margin ++ "╰────".toList]

/-- **A snippet shows labels:** its header names the line and the column of the label that starts
first, counted from 1, it shows lines of the text from one to another with all lines on which labels
start, and under each line it draws exactly the labels that start there. -/
structure Shows (s : Snippet) (source : List Char) (name : Option String) (labels : List Label) :
    Prop where
  header : ∀ label ∈ labels, (∀ other ∈ labels, label.span.start ≤ other.span.start) →
    s.header = Report.header name ((Text.splitOn '\n' source).length > 1)
      (toString (lineOf source label.span.start + 1) ++ ":" ++
        toString (columnOf source label.span.start + 1))
  lines : s.first ≤ s.last ∧ s.last < (Text.splitOn '\n' source).length
  labelled : ∀ label ∈ labels,
    s.first ≤ lineOf source label.span.start ∧ lineOf source label.span.start ≤ s.last
  bare : ∀ n, marksOn source labels n = [] → s.under n = []
  drawn : ∀ n, marksOn source labels n ≠ [] → Drawn (marksOn source labels n) (s.under n)

end Snippet

/-- If something can be made of every item it can be made of all. -/
theorem mapM_eq_map {α β : Type} {f : α → Option β} {g : α → β} {items : List α}
    (h : ∀ a ∈ items, f a = some (g a)) : items.mapM f = some (items.map g) := by
  induction items with
  | nil => rfl
  | cons a rest ih =>
    obtain ⟨ha, hrest⟩ := List.forall_mem_cons.1 h
    rw [List.mapM_cons, ha, ih hrest]
    rfl

theorem exists_of_mapM {α β : Type} {f : α → Option β} {items : List α} {made : List β} {a : α}
    (h : items.mapM f = some made) (ha : a ∈ items) : ∃ b, f a = some b := by
  induction items generalizing made with
  | nil => cases ha
  | cons first rest ih =>
    rw [List.mapM_cons] at h
    obtain ⟨b, hb, h⟩ := Option.bind_eq_some_iff.1 h
    obtain ⟨later, hlater, -⟩ := Option.bind_eq_some_iff.1 h
    rcases List.mem_cons.1 ha with rfl | ha
    · exact ⟨b, hb⟩
    · exact ih hlater ha

/-- No two anchors on one line are the same exactly if those of any two labels of one line differ. -/
theorem nodup_marksOn_iff (source : List Char) (labels : List Label) :
    (∀ n, ((marksOn source labels n).map Mark.anchor).Nodup) ↔ labels.Pairwise fun a b =>
      lineOf source a.span.start = lineOf source b.span.start →
        (markOf source a).anchor ≠ (markOf source b).anchor := by
  constructor
  · intro h
    refine List.pairwise_iff_forall_sublist.2 fun {a b} hsub hline => ?_
    -- both labels are kept for their line
    have hkept := hsub.filter fun label => lineOf source label.span.start = lineOf source b.span.start
    rw [List.filter_cons_of_pos (by simpa using hline), List.filter_cons_of_pos (by simp)] at hkept
    have hnodup := h (lineOf source b.span.start)
    rw [marksOn, List.map_map] at hnodup
    exact List.pairwise_iff_forall_sublist.1 (List.pairwise_map.1 hnodup) hkept
  · intro h n
    rw [marksOn, List.map_map]
    refine List.pairwise_map.2 ((h.filter _).imp_of_mem fun ha hb hne => ?_)
    have hline := of_decide_eq_true (List.mem_filter.1 ha).2
    exact hne (hline.trans (of_decide_eq_true (List.mem_filter.1 hb).2).symm)

/-- What the marks of a line are made into. -/
theorem lineRows?_eq {under : List (List Char)} (gutter : Nat) (h : under?
    (((placed.filter fun p => p.line = n).map (·.mark)).mergeSort Mark.le) = some under) :
    lineRows? lines placed gutter n =
      some ((' ' :: numbered gutter (n + 1) ++ " │ ".toList ++ lines[n]?.getD []) ::
        under.map fun row => List.replicate (gutter + 2) ' ' ++ "· ".toList ++ row) := by
  unfold lineRows?
  rw [h]
  rfl

/-- The lines that a snippet shows are lines of the text, and those on which labels start are among
them. -/
theorem window_placedOf (source : List Char) (first : Label) (others : List Label) :
    let shown := window (Text.splitOn '\n' source)
      ((placedOf source first :: others.map (placedOf source)).map (·.line))
    shown.1 ≤ shown.2 ∧ shown.2 < (Text.splitOn '\n' source).length ∧
      ∀ label ∈ first :: others, shown.1 ≤ lineOf source label.span.start ∧
        lineOf source label.span.start ≤ shown.2 := by
  have hlines : ∀ n ∈ ((first :: others).map (placedOf source)).map (·.line),
      n < (Text.splitOn '\n' source).length := by
    rw [List.map_map]
    exact List.forall_mem_map.2 fun label _ => lineOf_lt source label.span.start
  obtain ⟨hle, hlt, hin⟩ := window_spec (List.cons_ne_nil _ _) hlines
  exact ⟨hle, hlt, fun label hlabel => hin _ (List.mem_map_of_mem (List.mem_map_of_mem hlabel))⟩

/-- **Labels whose anchors differ on each line** have a snippet that shows them. -/
theorem exists_snippet (name : Option String)
    (hwithin : ∀ label ∈ first :: others, label.span.Within source)
    (hanchors : ∀ n, ((marksOn source (first :: others) n).map Mark.anchor).Nodup) :
    ∃ s : Snippet, snippet? source name first others = some (s.rows source) ∧
      s.Shows source name (first :: others) := by
  choose under hunder hbare hdrawn using fun n => exists_under (hanchors n)
  simp only [← map_mark_filter] at hunder
  obtain ⟨hfirst, hothers⟩ := List.cons.inj (map_place hwithin)
  obtain ⟨hle, hlt, hin⟩ := window_placedOf source first others
  let origin := earliest (placedOf source first) (others.map (placedOf source))
  let shown := window (Text.splitOn '\n' source)
    ((placedOf source first :: others.map (placedOf source)).map (·.line))
  refine ⟨⟨header name ((Text.splitOn '\n' source).length > 1)
    (toString (origin.line + 1) ++ ":" ++ toString (origin.mark.column + 1)), shown.1, shown.2, under⟩,
    ?_, fun label hlabel hleast => ?_, ⟨hle, hlt⟩, hin, hbare, hdrawn⟩
  · unfold snippet?
    dsimp only
    rw [hfirst, hothers, List.tail_cons]
    exact congrArg (Option.bind · _) (mapM_eq_map fun n _ => lineRows?_eq _ (hunder n))
  · obtain ⟨hline, hcolumn⟩ := earliest_placedOf hlabel hleast
    dsimp only [origin]
    rw [hline, hcolumn]

/-- Labels that have a snippet have different anchors on each line. -/
theorem nodup_of_snippet {rows : List (List Char)}
    (hwithin : ∀ label ∈ first :: others, label.span.Within source)
    (h : snippet? source name first others = some rows) (n : Nat) :
    ((marksOn source (first :: others) n).map Mark.anchor).Nodup := by
  by_cases hmarks : marksOn source (first :: others) n = []
  · rw [hmarks]
    exact List.nodup_nil
  obtain ⟨hfirst, hothers⟩ := List.cons.inj (map_place hwithin)
  obtain ⟨-, -, hin⟩ := window_placedOf source first others
  obtain ⟨label, hlabel, hline⟩ : ∃ label ∈ first :: others, lineOf source label.span.start = n := by
    obtain ⟨m, hm⟩ := List.exists_mem_of_ne_nil _ hmarks
    obtain ⟨label, hlabel, -⟩ := List.mem_map.1 hm
    obtain ⟨hlabel, hline⟩ := List.mem_filter.1 hlabel
    exact ⟨label, hlabel, of_decide_eq_true hline⟩
  unfold snippet? at h
  dsimp only at h
  rw [hfirst, hothers, List.tail_cons] at h
  -- the line is one of those that are shown
  obtain ⟨shown, hshown, -⟩ := Option.bind_eq_some_iff.1 h
  obtain ⟨made, hmade⟩ : ∃ made, lineRows? _ _ _ n = some made := by
    refine exists_of_mapM hshown (List.mem_range'_1.2 ?_)
    have := hin label hlabel
    omega
  obtain ⟨under, hunder, -⟩ := Option.bind_eq_some_iff.1 hmade
  rw [← List.map_cons, map_mark_filter] at hunder
  exact nodup_of_under hunder

/-! ## Reports -/

/-- **The report of an error is in position:** it is made, and if the error has labels it has a snippet
that shows them between the message and the advice. -/
def Positioned (source : List Char) (e : TemplateError) (name : Option String) : Prop :=
  ∃ report, report? source e name = some report ∧ (e.labels ≠ [] →
    ∃ s : Snippet, s.Shows source name e.labels ∧ report = String.ofList (['\n'].intercalate
      (messageLines e.message ++ s.rows source ++ helpLines e.help?) ++ ['\n']))

/-- **Offsets are found on their lines, and reports show their labels there.** The line that is found
for an offset of the text is the number of line breaks before it; this line starts no later, and the
offset is no further from its start than its end is. The report of an error with labels in the text is
in position exactly if labels that start on one line have different anchors there. -/
theorem positioned_iff (e : TemplateError) (name : Option String)
    (h : ∀ label ∈ e.labels, label.span.Within source) :
    (∀ offset ≤ source.length, locate (lineStarts source) offset = lineOf source offset ∧
      ∃ start line, (lineStarts source)[lineOf source offset]? = some start ∧
        (Text.splitOn '\n' source)[lineOf source offset]? = some line ∧
        start ≤ offset ∧ offset - start = columnOf source offset ∧ offset - start ≤ line.length) ∧
    (Positioned source e name ↔ e.labels.Pairwise fun a b =>
      lineOf source a.span.start = lineOf source b.span.start →
        (markOf source a).anchor ≠ (markOf source b).anchor) := by
  refine ⟨fun offset hoffset => ⟨locate_eq source offset, ?_⟩, ?_⟩
  · obtain ⟨line, hline, hroom, hle, hstart⟩ := exists_line hoffset
    exact ⟨_, line, hstart, hline, by omega, by omega, by omega⟩
  · rw [← nodup_marksOn_iff]
    unfold Positioned report?
    cases hlabels : e.labels with
    | nil => exact iff_of_true ⟨_, rfl, fun hne => absurd rfl hne⟩ fun _ => .nil
    | cons first others =>
      rw [hlabels] at h
      constructor
      · rintro ⟨report, hreport, -⟩
        obtain ⟨rows, hrows, -⟩ := Option.bind_eq_some_iff.1 hreport
        exact nodup_of_snippet h hrows
      · intro hanchors
        obtain ⟨s, hs, hshows⟩ := exists_snippet name h hanchors
        exact ⟨_, congrArg (Option.bind · _) hs, fun _ => ⟨s, hshows, rfl⟩⟩

/-- A tag that should end another one, both on the second of three lines. -/
theorem positioned_iff_tags :
    let source := "one\n\x7b% if x %\x7d\x7b% endfor %\x7d\nthree".toList
    let e : TemplateError := ⟨some ⟨14, 12⟩, .wrongEndTag "endfor" "elif, else, endif" ⟨4, 10⟩⟩
    (∀ label ∈ e.labels, label.span.Within source) ∧ Positioned source e (some "tags.html") :=
  ⟨by decide, ((positioned_iff _ _ (by decide)).2).2 (by decide +kernel)⟩

/-- Two labels at one place. The bar for the one would stand where the remark of the other begins. -/
theorem not_positioned_stacked :
    let source := "ab cd ef gh ij".toList
    let e : TemplateError := ⟨some ⟨0, 1⟩, .wrongEndTag "x" "y, z" ⟨0, 1⟩⟩
    (∀ label ∈ e.labels, label.span.Within source) ∧ ¬ Positioned source e (some "t.html") := by
  refine ⟨by decide, fun ⟨report, hreport, _⟩ => ?_⟩
  obtain ⟨rows, hrows, -⟩ := Option.bind_eq_some_iff.1 hreport
  exact absurd (nodup_of_snippet (by decide) hrows 0) (by decide +kernel)

end Galley.Report
