import Galley.Report
import Mathlib.Data.List.Sort
import Mathlib.Data.String.Basic

/-!
# What is drawn under a line

The marks of a line are drawn into one row, each over those before it, and their remarks hang below,
the rightmost first. A row has room for all its marks. A row of remarks has room for the bars of those
still to come exactly if no two marks have one anchor.

* `Report.foldlM_put?`: writing one character into some columns of a row.
* `Report.Mark.draw?_eq`, `Report.exists_underline`: the row of the marks.
* `Report.Mark.HangsIn`, `Report.HangIn`: the rows of the remarks.
* `Report.isSome_remarks_iff`: the marks whose remarks can be drawn.
* `Report.drawn_exactly`: **underline and remarks** of the marks of a line.
-/

namespace Galley.Report

variable {c : Char} {row : List Char} {columns : List Nat} {marks : List Mark} {m : Mark} {k : Nat}

/-! ## Writing into a row -/

theorem put?_of_lt (h : k < row.length) :
    put? c row k = some (row.mapIdx fun i old => if i = k then c else old) := by
  rw [put?, if_pos h]
  congr 1
  apply List.ext_getElem?
  intro i
  rw [List.getElem?_set, List.getElem?_mapIdx]
  by_cases hi : k = i
  · subst hi
    simp [h]
  · have hne : ¬ i = k := fun heq => hi heq.symm
    simp [hi, hne]

/-- **Writing into columns that a row has** changes these columns and no others. -/
theorem foldlM_put? (h : ∀ k ∈ columns, k < row.length) :
    columns.foldlM (put? c) row = some (row.mapIdx fun i old => if i ∈ columns then c else old) := by
  induction columns generalizing row with
  | nil =>
    apply congrArg some
    apply List.ext_getElem?
    simp
  | cons k rest ih =>
    obtain ⟨hk, hrest⟩ := List.forall_mem_cons.1 h
    rw [List.foldlM_cons, put?_of_lt hk, Option.bind_eq_bind, Option.bind_some,
      ih (by simpa using hrest), List.mapIdx_mapIdx]
    congr 2
    funext i old
    by_cases hi : i ∈ rest
    · simp [hi]
    · by_cases hik : i = k <;> simp [hi, hik]

/-- A column behind the end of the row cannot be written into. -/
theorem foldlM_put?_of_le (h : k ∈ columns) (hk : row.length ≤ k) :
    columns.foldlM (put? c) row = none := by
  induction columns generalizing row with
  | nil => cases h
  | cons first rest ih =>
    rw [List.foldlM_cons]
    by_cases hfirst : first < row.length
    · have hrest : k ∈ rest := by
        rcases List.mem_cons.1 h with heq | hrest
        · omega
        · exact hrest
      rw [put?_of_lt hfirst]
      exact ih hrest (by simpa using hk)
    · rw [put?, if_neg hfirst]
      rfl

/-! ## Underlines -/

namespace Mark

/-- A mark **covers** the columns that it is drawn in: all of its characters, or its own column if it
has none. -/
def Covers (m : Mark) (k : Nat) : Prop := m.column ≤ k ∧ k < m.stop

instance (m : Mark) (k : Nat) : Decidable (m.Covers k) :=
  inferInstanceAs (Decidable (m.column ≤ k ∧ k < m.stop))

/-- What a mark is drawn with. -/
def glyph (m : Mark) (k : Nat) : Char :=
  if m.length = 0 then '▲' else if k = m.anchor then '┬' else '─'

theorem not_isBlank_glyph (m : Mark) (k : Nat) : Text.isBlank (m.glyph k) = false := by
  unfold glyph
  split
  · decide
  · split <;> decide

theorem covers_iff (m : Mark) (k : Nat) : m.Covers k ↔
    (m.length ≠ 0 ∧ m.column ≤ k ∧ k < m.column + m.length) ∨ (m.length = 0 ∧ k = m.column) := by
  unfold Covers stop
  omega

/-- **An anchor** is covered by its own mark. -/
theorem covers_anchor (m : Mark) : m.Covers m.anchor := by
  unfold Covers anchor stop
  split <;> omega

/-- A mark on one character at most covers its anchor alone. -/
theorem covers_iff_of_length_le (h : m.length ≤ 1) : m.Covers k ↔ k = m.anchor := by
  unfold Covers stop anchor
  rw [if_pos h]
  omega

/-- A mark on one character at most is drawn in one column. -/
theorem put?_glyph (hlength : m.length ≤ 1) (h : m.anchor < row.length) :
    put? (m.glyph m.anchor) row m.anchor =
      some (row.mapIdx fun k old => if m.Covers k then m.glyph k else old) := by
  rw [put?_of_lt h]
  congr 2
  funext k old
  by_cases hk : k = m.anchor
  · rw [if_pos hk, if_pos ((covers_iff_of_length_le hlength).2 hk), hk]
  · rw [if_neg hk, if_neg (hk ∘ (covers_iff_of_length_le hlength).1)]

/-- **A mark is drawn** in the columns that it covers and in no others. -/
theorem draw?_eq (h : m.stop ≤ row.length) :
    m.draw? row = some (row.mapIdx fun k old => if m.Covers k then m.glyph k else old) := by
  have hanchor : m.anchor < row.length := Nat.lt_of_lt_of_le m.covers_anchor.2 h
  unfold draw?
  split
  · next hzero =>
    have hglyph : m.glyph m.anchor = '▲' := if_pos hzero
    rw [← hglyph, put?_glyph (by omega) hanchor]
  · next hone =>
    have hglyph : m.glyph m.anchor = '┬' := by rw [glyph, if_neg (by omega), if_pos rfl]
    rw [← hglyph, put?_glyph (by omega) hanchor]
  · next hzero hone =>
    have hcovers (k : Nat) : k ∈ List.range' m.column m.length ↔ m.Covers k := by
      rw [List.mem_range'_1]
      unfold Covers stop
      have : m.length ≠ 0 := hzero
      omega
    have hline : ∀ k ∈ List.range' m.column m.length, k < row.length := by
      intro k hk
      exact Nat.lt_of_lt_of_le ((hcovers k).1 hk).2 h
    rw [foldlM_put? hline, Option.bind_eq_bind, Option.bind_some,
      put?_of_lt (by rw [List.length_mapIdx]; exact hanchor), List.mapIdx_mapIdx]
    congr 2
    funext k old
    have hglyph : m.glyph k = if k = m.anchor then '┬' else '─' := if_neg hzero
    -- the tee stands on the line
    by_cases hk : k = m.anchor
    · rw [hglyph, if_pos hk, hk, if_pos m.covers_anchor]
      simp
    · simp [hcovers, hk, hglyph]

end Mark

/-- What stands in a column after marks were drawn over a character. -/
def drawnOver (marks : List Mark) (k : Nat) (old : Char) : Char :=
  marks.foldl (fun old m => if m.Covers k then m.glyph k else old) old

theorem foldlM_draw? (h : ∀ m ∈ marks, m.stop ≤ row.length) :
    marks.foldlM Mark.draw? row = some (row.mapIdx (drawnOver marks)) := by
  induction marks generalizing row with
  | nil =>
    change some row = some (row.mapIdx fun _ old => old)
    apply congrArg some
    apply List.ext_getElem?
    simp
  | cons m rest ih =>
    obtain ⟨hm, hrest⟩ := List.forall_mem_cons.1 h
    rw [List.foldlM_cons, Mark.draw?_eq hm, Option.bind_eq_bind, Option.bind_some,
      ih (by simpa using hrest), List.mapIdx_mapIdx]
    rfl

/-- In a column that no mark covers nothing is drawn. -/
theorem drawnOver_of_not_covers (h : ∀ m ∈ marks, ¬ m.Covers k) (old : Char) :
    drawnOver marks k old = old := by
  induction marks with
  | nil => rfl
  | cons m rest ih =>
    obtain ⟨hm, hrest⟩ := List.forall_mem_cons.1 h
    change drawnOver rest k (if m.Covers k then m.glyph k else old) = old
    rw [if_neg hm, ih hrest]

/-- In a column that some mark covers stands what one of these marks is drawn with. -/
theorem exists_drawnOver (h : ∃ m ∈ marks, m.Covers k) (old : Char) :
    ∃ top ∈ marks, top.Covers k ∧ drawnOver marks k old = top.glyph k := by
  induction marks generalizing old with
  | nil =>
    obtain ⟨m, hm, -⟩ := h
    cases hm
  | cons first rest ih =>
    change ∃ top ∈ first :: rest, top.Covers k ∧
      drawnOver rest k (if first.Covers k then first.glyph k else old) = top.glyph k
    by_cases hrest : ∃ later ∈ rest, later.Covers k
    · -- what is drawn later stays
      obtain ⟨top, htop, hdrawn⟩ := ih hrest (if first.Covers k then first.glyph k else old)
      exact ⟨top, List.mem_cons_of_mem _ htop, hdrawn⟩
    · have hnone : ∀ later ∈ rest, ¬ later.Covers k := fun later hlater hcovers =>
        hrest ⟨later, hlater, hcovers⟩
      have hfirst : first.Covers k := by
        obtain ⟨m, hm, hcovers⟩ := h
        rcases List.mem_cons.1 hm with rfl | hm
        · exact hcovers
        · exact absurd hcovers (hnone m hm)
      refine ⟨first, List.mem_cons_self, hfirst, ?_⟩
      rw [drawnOver_of_not_covers hnone, if_pos hfirst]

theorem isBlank_drawnOver_iff : Text.isBlank (drawnOver marks k ' ') = false ↔
    ∃ m ∈ marks, m.Covers k := by
  by_cases h : ∃ m ∈ marks, m.Covers k
  · obtain ⟨top, -, -, hdrawn⟩ := exists_drawnOver h ' '
    rw [hdrawn, Mark.not_isBlank_glyph]
    exact iff_of_true rfl h
  · rw [drawnOver_of_not_covers fun m hm hk => h ⟨m, hm, hk⟩]
    exact iff_of_false (by decide) h

/-- Trimming a row takes spaces away if it has no other blanks. -/
theorem getD_trimEnd (h : ∀ c ∈ row, Text.isBlank c → c = ' ') (k : Nat) :
    (Text.trimEnd row)[k]?.getD ' ' = row[k]?.getD ' ' := by
  obtain ⟨trailing, hblank, hrow⟩ := Text.exists_trimEnd_append row
  have hspace : ∀ c ∈ trailing, c = ' ' := by
    intro c hc
    refine h c ?_ (List.all_eq_true.1 hblank c hc)
    rw [hrow]
    exact List.mem_append_right _ hc
  conv_rhs => rw [hrow]
  by_cases hk : k < (Text.trimEnd row).length
  · rw [List.getElem?_append_left hk]
  · rw [List.getElem?_append_right (by omega), List.getElem?_eq_none (by omega)]
    cases hc : trailing[k - (Text.trimEnd row).length]? with
    | none => rfl
    | some c => exact (hspace c (List.mem_of_getElem? hc)).symm

/-- **The row of the marks** is there if there is a mark, and reads in every column what was drawn
there. -/
theorem exists_underline (hne : marks ≠ []) :
    ∃ row, underline? marks = some row ∧ ∀ k, row[k]?.getD ' ' = drawnOver marks k ' ' := by
  obtain ⟨width, hwidth⟩ : ∃ width, (marks.map Mark.stop).max? = some width :=
    Option.isSome_iff_exists.1 (List.isSome_max?_iff.2 fun hnil => hne (List.map_eq_nil_iff.1 hnil))
  have hroom : ∀ m ∈ marks, m.stop ≤ (List.replicate width ' ').length := by
    intro m hm
    rw [List.length_replicate]
    exact (List.max?_eq_some_iff.1 hwidth).2 _ (List.mem_map_of_mem hm)
  have hbeyond : ∀ k, width ≤ k → drawnOver marks k ' ' = ' ' := by
    intro k hk
    refine drawnOver_of_not_covers (fun m hm hcovers => ?_) ' '
    have hstop := hroom m hm
    rw [List.length_replicate] at hstop
    have := hcovers.2
    omega
  have hblank : ∀ c ∈ (List.replicate width ' ').mapIdx (drawnOver marks),
      Text.isBlank c → c = ' ' := by
    intro c hc hblank
    obtain ⟨k, hk⟩ := List.mem_iff_getElem?.1 hc
    rw [List.getElem?_mapIdx, Option.map_eq_some_iff] at hk
    obtain ⟨old, hold, rfl⟩ := hk
    obtain rfl : old = ' ' := List.eq_of_mem_replicate (List.mem_of_getElem? hold)
    refine drawnOver_of_not_covers (fun m hm hcovers => ?_) ' '
    rw [isBlank_drawnOver_iff.2 ⟨m, hm, hcovers⟩] at hblank
    cases hblank
  refine ⟨Text.trimEnd ((List.replicate width ' ').mapIdx (drawnOver marks)), ?_, fun k => ?_⟩
  · unfold underline?
    rw [hwidth, Option.bind_eq_bind, Option.bind_some, foldlM_draw? hroom]
    rfl
  · rw [getD_trimEnd hblank, List.getElem?_mapIdx, List.getElem?_replicate]
    by_cases hk : k < width
    · simp [hk]
    · simp [hk, hbeyond k (by omega)]

/-- **A column is not blank** exactly if some mark covers it. -/
theorem visible_iff (hread : ∀ k, row[k]?.getD ' ' = drawnOver marks k ' ') :
    (∃ c, row[k]? = some c ∧ Text.isBlank c = false) ↔ ∃ m ∈ marks, m.Covers k := by
  have hcell : (∃ c, row[k]? = some c ∧ Text.isBlank c = false) ↔
      Text.isBlank (row[k]?.getD ' ') = false := by
    cases row[k]? with
    | none => exact iff_of_false nofun (by decide)
    | some c => simp
  rw [hcell, hread, isBlank_drawnOver_iff]

/-! ## Remarks -/

variable {anchor : Nat} {text : String} {pending : List Nat} {anchors : List (Nat × String)}
  {rows : List (List Char)} {hung : List Mark}

/-- A remark with bars for the columns of those to come, all of which are before it. -/
theorem exists_remark (text : String) (h : ∀ k ∈ pending, k < anchor) :
    ∃ bars : List Char, remark? anchor text pending = some (bars ++ "╰── ".toList ++ text.toList) ∧
      bars.length = anchor ∧ (∀ k, bars[k]? = some '│' ↔ k ∈ pending) ∧
      ∀ c ∈ bars, c = '│' ∨ c = ' ' := by
  have hread (k : Nat) :
      ((List.replicate anchor ' ').mapIdx fun i old => if i ∈ pending then '│' else old)[k]? =
        if k < anchor then some (if k ∈ pending then '│' else ' ') else none := by
    rw [List.getElem?_mapIdx, List.getElem?_replicate]
    by_cases hk : k < anchor <;> simp [hk]
  refine ⟨(List.replicate anchor ' ').mapIdx fun i old => if i ∈ pending then '│' else old, ?_,
    List.length_mapIdx.trans List.length_replicate, fun k => ?_, fun c hc => ?_⟩
  · unfold remark?
    rw [foldlM_put? (by simpa using h)]
    rfl
  · rw [hread]
    by_cases hk : k ∈ pending
    · simp [hk, h k hk]
    · by_cases hlt : k < anchor <;> simp [hk, hlt]
  · obtain ⟨k, hk⟩ := List.mem_iff_getElem?.1 hc
    rw [hread] at hk
    split at hk
    · cases hk
      split
      · exact .inl rfl
      · exact .inr rfl
    · cases hk

theorem remark?_eq_none (text : String) (h : k ∈ pending) (hk : anchor ≤ k) :
    remark? anchor text pending = none := by
  unfold remark?
  rw [foldlM_put?_of_le h (by simpa using hk)]
  rfl

/-- The row in which **a remark hangs** from the anchor of its mark: bars at the anchors of the marks
whose remarks are still to come, and behind them the corner with the text. -/
def Mark.HangsIn (m : Mark) (row : List Char) (later : List Mark) : Prop :=
  ∃ bars : List Char, row = bars ++ "╰── ".toList ++ m.text.toList ∧ bars.length = m.anchor ∧
    (∀ k, bars[k]? = some '│' ↔ ∃ other ∈ later, other.anchor = k) ∧ ∀ c ∈ bars, c = '│' ∨ c = ' '

/-- **Marks with the rows of their remarks,** from the rightmost anchor to the leftmost. -/
structure HangIn (hung : List Mark) (rows : List (List Char)) : Prop where
  ordered : hung.Pairwise fun a b => b.anchor < a.anchor
  length : rows.length = hung.length
  each : ∀ (i : Nat) (m : Mark) (row : List Char), hung[i]? = some m → rows[i]? = some row →
    m.HangsIn row (hung.drop (i + 1))

/-- **Remarks from the right to the left** have a row each. -/
theorem exists_remarksFrom (h : hung.Pairwise fun a b => b.anchor < a.anchor) :
    ∃ rows, remarksFrom? (hung.map fun m => (m.anchor, m.text)) = some rows ∧ HangIn hung rows := by
  induction hung with
  | nil => exact ⟨[], rfl, .nil, rfl, nofun⟩
  | cons first later ih =>
    obtain ⟨hfirst, hlater⟩ := List.pairwise_cons.1 h
    obtain ⟨rows, hrows, hhang⟩ := ih hlater
    have hbefore : ∀ k ∈ later.map Mark.anchor, k < first.anchor := List.forall_mem_map.2 hfirst
    obtain ⟨bars, hremark, hbars, hbar, hother⟩ := exists_remark first.text hbefore
    refine ⟨(bars ++ "╰── ".toList ++ first.text.toList) :: rows, ?_, h,
      congrArg (· + 1) hhang.length, fun i m row hm hrow => ?_⟩
    · have hpending : (later.map fun m => (m.anchor, m.text)).map (·.1) = later.map Mark.anchor :=
        List.map_map
      rw [List.map_cons, remarksFrom?, hpending, hremark, hrows]
      rfl
    · cases i with
      | zero =>
        obtain rfl : first = m := by simpa using hm
        refine ⟨bars, by simpa using hrow.symm, hbars, fun k => ?_, hother⟩
        rw [hbar, List.mem_map, List.drop_one, List.tail_cons]
      | succ i => exact hhang.each i m row hm hrow

/-- Remarks that are drawn hang from the right to the left. -/
theorem pairwise_of_remarksFrom (h : remarksFrom? anchors = some rows) :
    anchors.Pairwise fun a b => b.1 < a.1 := by
  induction anchors generalizing rows with
  | nil => exact .nil
  | cons first pending ih =>
    unfold remarksFrom? at h
    obtain ⟨row, hrow, h⟩ := Option.bind_eq_some_iff.1 h
    obtain ⟨later, hlater, -⟩ := Option.bind_eq_some_iff.1 h
    refine List.pairwise_cons.2 ⟨fun other hother => Nat.lt_of_not_le fun hle => ?_, ih hlater⟩
    rw [remark?_eq_none _ (List.mem_map_of_mem hother) hle] at hrow
    cases hrow

theorem anchorLe_iff {a b : Nat × String} :
    anchorLe a b ↔ a.1 < b.1 ∨ a.1 = b.1 ∧ a.2 ≤ b.2 := by
  simp only [anchorLe, Bool.or_eq_true, Bool.and_eq_true, decide_eq_true_eq, Bool.not_eq_true',
    decide_eq_false_iff_not, not_lt]

theorem anchorLe_trans (a b c : Nat × String) (h : anchorLe a b) (h' : anchorLe b c) :
    anchorLe a c := by
  rw [anchorLe_iff] at h h' ⊢
  rcases h with h | ⟨h, hle⟩
  · rcases h' with h' | ⟨h', -⟩
    · exact .inl (by omega)
    · exact .inl (by omega)
  · rcases h' with h' | ⟨h', hle'⟩
    · exact .inl (by omega)
    · exact .inr ⟨h.trans h', le_trans hle hle'⟩

theorem anchorLe_total (a b : Nat × String) : anchorLe a b || anchorLe b a := by
  rw [Bool.or_eq_true, anchorLe_iff, anchorLe_iff]
  rcases Nat.lt_trichotomy a.1 b.1 with h | h | h
  · exact .inl (.inl h)
  · rcases le_total a.2 b.2 with hle | hle
    · exact .inl (.inr ⟨h, hle⟩)
    · exact .inr (.inr ⟨h.symm, hle⟩)
  · exact .inr (.inl h)

theorem anchorLe_antisymm {a b : Nat × String} (h : anchorLe a b) (h' : anchorLe b a) : a = b := by
  rw [anchorLe_iff] at h h'
  rcases h with h | ⟨h, hle⟩
  · rcases h' with h' | ⟨h', -⟩ <;> omega
  · rcases h' with h' | ⟨-, hle'⟩
    · omega
    · exact Prod.ext h (le_antisymm hle hle')

/-- **The order of the remarks** is an order of the marks, from the right to the left. -/
theorem exists_hung (marks : List Mark) : ∃ hung : List Mark, hung.Perm marks ∧
    (hung.Pairwise fun a b => b.anchor ≤ a.anchor) ∧
    ((marks.map fun m => (m.anchor, m.text)).mergeSort anchorLe).reverse =
      hung.map fun m => (m.anchor, m.text) := by
  let le (a b : Mark) : Bool := anchorLe (b.anchor, b.text) (a.anchor, a.text)
  have hperm := List.mergeSort_perm marks le
  have htrans (a b c : Mark) (h : le a b) (h' : le b c) : le a c := anchorLe_trans _ _ _ h' h
  have htotal (a b : Mark) : le a b || le b a := anchorLe_total _ _
  have hsorted := List.pairwise_mergeSort htrans htotal marks
  refine ⟨marks.mergeSort le, hperm, hsorted.imp fun h => ?_, ?_⟩
  · rcases anchorLe_iff.1 h with hlt | ⟨heq, -⟩
    · exact Nat.le_of_lt hlt
    · exact Nat.le_of_eq heq
  · -- both are sorted, and sorting leaves no choice
    refine List.Perm.eq_of_pairwise (fun a b _ _ h h' => anchorLe_antisymm h' h)
      (List.pairwise_reverse.2 (List.pairwise_mergeSort anchorLe_trans anchorLe_total _))
      (List.pairwise_map.2 hsorted) ?_
    exact ((List.reverse_perm _).trans (List.mergeSort_perm _ _)).trans
      (hperm.map fun m => (m.anchor, m.text)).symm

/-- Marks with different anchors, from the right to the left. -/
theorem exists_remarks (h : (marks.map Mark.anchor).Nodup) :
    ∃ hung rows, hung.Perm marks ∧ remarks? marks = some rows ∧ HangIn hung rows := by
  obtain ⟨hung, hperm, hordered, hsorted⟩ := exists_hung marks
  have hnodup : hung.Pairwise fun a b => a.anchor ≠ b.anchor :=
    List.pairwise_map.1 ((hperm.map Mark.anchor).nodup_iff.2 h)
  have hstrict : hung.Pairwise fun a b => b.anchor < a.anchor :=
    (hordered.and hnodup).imp fun ⟨hle, hne⟩ => by omega
  obtain ⟨rows, hrows, hhang⟩ := exists_remarksFrom hstrict
  exact ⟨hung, rows, hperm, by rw [remarks?, hsorted, hrows], hhang⟩

/-- **The remarks of marks can be drawn** exactly if no two of the marks have one anchor. -/
theorem isSome_remarks_iff : (remarks? marks).isSome ↔ (marks.map Mark.anchor).Nodup := by
  constructor
  · intro h
    obtain ⟨rows, hrows⟩ := Option.isSome_iff_exists.1 h
    obtain ⟨hung, hperm, -, hsorted⟩ := exists_hung marks
    rw [remarks?, hsorted] at hrows
    refine (hperm.map Mark.anchor).nodup_iff.1 (List.pairwise_map.2 ?_)
    exact (List.pairwise_map.1 (pairwise_of_remarksFrom hrows)).imp fun hlt => by omega
  · intro h
    obtain ⟨_, rows, -, hrows, -⟩ := exists_remarks h
    rw [hrows]
    rfl

/-! ## Both together -/

/-- **Underline and remarks of a line.** The underline is not blank exactly in the columns that a mark
has characters in, and in the columns of marks without characters; where one mark is drawn it reads
what this mark is drawn with. Each anchor lies on its mark. If no two anchors are the same every mark
has a row for its remark, from the rightmost anchor to the leftmost: the text with its corner begins at
the anchor, and bars stand before it at the anchors of the marks whose rows come later, and only
there. -/
theorem drawn_exactly (hne : marks ≠ []) (h : (marks.map Mark.anchor).Nodup) :
    (∃ row, underline? marks = some row ∧
      (∀ k, (∃ c, row[k]? = some c ∧ Text.isBlank c = false) ↔ ∃ m ∈ marks,
        (m.length ≠ 0 ∧ m.column ≤ k ∧ k < m.column + m.length) ∨ (m.length = 0 ∧ k = m.column)) ∧
      ∀ m ∈ marks, ∀ k, m.Covers k → (∀ other ∈ marks, other.Covers k → other = m) →
        row[k]? = some (m.glyph k)) ∧
    (∀ m ∈ marks, (m.length ≠ 0 → m.column ≤ m.anchor ∧ m.anchor < m.column + m.length) ∧
      (m.length = 0 → m.anchor = m.column)) ∧
    ∃ hung rows, hung.Perm marks ∧ remarks? marks = some rows ∧ HangIn hung rows := by
  obtain ⟨row, hrow, hread⟩ := exists_underline hne
  refine ⟨⟨row, hrow, fun k => ?_, fun m hm k hk honly => ?_⟩, fun m _ => ?_, exists_remarks h⟩
  · rw [visible_iff hread]
    exact exists_congr fun m => and_congr_right fun _ => m.covers_iff k
  · obtain ⟨top, htop, hcovers, hdrawn⟩ := exists_drawnOver ⟨m, hm, hk⟩ ' '
    have hglyph : row[k]?.getD ' ' = m.glyph k := by
      rw [hread, hdrawn, honly top htop hcovers]
    -- what a mark is drawn with is no space, so the row has this column
    cases hcell : row[k]? with
    | none =>
      have hspace := m.not_isBlank_glyph k
      rw [← hglyph, hcell] at hspace
      exact absurd hspace (by decide)
    | some c =>
      rw [hcell] at hglyph
      exact congrArg some hglyph
  · have hanchor := (m.covers_iff m.anchor).1 m.covers_anchor
    constructor
    · intro hlength
      omega
    · intro hlength
      omega

/-- A tag, a place between characters and a single character. -/
theorem drawn_exactly_three :
    let marks : List Mark := [⟨2, 5, "start tag"⟩, ⟨10, 0, "here"⟩, ⟨12, 1, "unexpected"⟩]
    underline? marks = some "  ──┬──   ▲ ┬".toList ∧
      remarks? marks = some ["    │     │ ╰── unexpected".toList, "    │     ╰── here".toList,
        "    ╰── start tag".toList] ∧
      ∃ hung rows, hung.Perm marks ∧ remarks? marks = some rows ∧ HangIn hung rows := by
  intro marks
  refine ⟨by decide +kernel, ?_, (drawn_exactly (List.cons_ne_nil _ _) (by decide)).2.2⟩
  have hsorted : (marks.map fun m => (m.anchor, m.text)).Pairwise fun a b => anchorLe a b := by
    decide +kernel
  rw [remarks?, List.mergeSort_of_pairwise hsorted]
  decide +kernel

end Galley.Report
