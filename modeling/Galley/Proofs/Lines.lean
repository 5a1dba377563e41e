import Galley.Report
import Mathlib.Data.List.Count
import Mathlib.Data.List.TakeWhile

/-!
# From offsets to lines

A report looks the line of an offset up among the offsets at which lines start, by halving. The line
that it finds is the number of line breaks before the offset, and the offset lies on it.

* `Report.lineOf`, `Report.columnOf`: the place of an offset.
* `Report.locateBetween_spec`: the search among growing offsets.
* `Report.locate_spec`, `Report.locate_eq`: **the line that is found.**
* `Report.exists_line`: its start and its text.
-/

namespace Galley.Report

variable {source text : List Char} {starts : List Nat} {offset low high n : Nat}

/-- The line of an offset: the number of line breaks before it. -/
def lineOf (source : List Char) (offset : Nat) : Nat := (source.take offset).count '\n'

/-- The column of an offset: the number of characters between the last line break before it and it. -/
def columnOf (source : List Char) (offset : Nat) : Nat :=
  ((source.take offset).reverse.takeWhile (· ≠ '\n')).length

/-! ## The search -/

/-- **Halving keeps** the line that is searched for between its ends: no line up to the lower end
starts behind the offset, and all lines beyond the upper one do. -/
theorem locateBetween_spec (hle : low ≤ high)
    (hlow : starts[low]?.getD 0 ≤ offset)
    (hhigh : ∀ k, high < k → k < starts.length → offset < starts[k]?.getD 0)
    (hgrow : ∀ j k, j ≤ k → k < starts.length → starts[j]?.getD 0 ≤ starts[k]?.getD 0) :
    low ≤ locateBetween starts offset low high ∧ locateBetween starts offset low high ≤ high ∧
      starts[locateBetween starts offset low high]?.getD 0 ≤ offset ∧
      ∀ k, locateBetween starts offset low high < k → k < starts.length →
        offset < starts[k]?.getD 0 := by
  induction low, high using locateBetween.induct starts offset with
  | case1 low high hlt middle hmiddle ih =>
    have hmid : low < middle ∧ middle ≤ high := by omega
    have heq : locateBetween starts offset low high = locateBetween starts offset middle high := by
      rw [locateBetween, if_pos hlt]
      exact if_pos hmiddle
    obtain ⟨hfrom, hto, hspec⟩ := ih hmid.2 hmiddle hhigh
    rw [heq]
    exact ⟨by omega, hto, hspec⟩
  | case2 low high hlt middle hmiddle ih =>
    have hmid : low < middle ∧ middle ≤ high := by omega
    have heq : locateBetween starts offset low high =
        locateBetween starts offset low (middle - 1) := by
      rw [locateBetween, if_pos hlt]
      exact if_neg hmiddle
    have hbeyond : ∀ k, middle - 1 < k → k < starts.length → offset < starts[k]?.getD 0 := by
      intro k hk hlength
      have := hgrow middle k (by omega) hlength
      omega
    obtain ⟨hfrom, hto, hspec⟩ := ih (by omega) hlow hbeyond
    rw [heq]
    exact ⟨hfrom, by omega, hspec⟩
  | case3 low high hnot =>
    rw [locateBetween, if_neg hnot]
    obtain rfl : low = high := by omega
    exact ⟨Nat.le_refl _, Nat.le_refl _, hlow, hhigh⟩

/-- Of growing offsets as many lie up to a bound as the last of them has before it, and itself. -/
theorem countP_le_of_last (hgrow : starts.Pairwise (· < ·)) (hn : n < starts.length)
    (hlast : starts[n]?.getD 0 ≤ offset)
    (hbeyond : ∀ k, n < k → k < starts.length → offset < starts[k]?.getD 0) :
    starts.countP (· ≤ offset) = n + 1 := by
  induction starts generalizing n with
  | nil => cases hn
  | cons first rest ih =>
    obtain ⟨hfirst, hrest⟩ := List.pairwise_cons.1 hgrow
    cases n with
    | zero =>
      have hnone : rest.countP (· ≤ offset) = 0 := by
        refine List.countP_eq_zero.2 fun start hstart => ?_
        obtain ⟨k, hk, rfl⟩ := List.mem_iff_getElem.1 hstart
        have := hbeyond (k + 1) (by omega) (by simpa using hk)
        simpa [hk] using this
      rw [List.countP_cons_of_pos (by simpa using hlast), hnone]
    | succ n =>
      have hn' : n < rest.length := by simpa using hn
      have hin : rest[n]?.getD 0 ∈ rest := by
        rw [List.getElem?_eq_getElem hn']
        exact List.getElem_mem hn'
      have hle : first ≤ offset := Nat.le_of_lt (Nat.lt_of_lt_of_le (hfirst _ hin) hlast)
      rw [List.countP_cons_of_pos (by simpa using hle), ih hrest hn' hlast fun k hk hlength =>
        hbeyond (k + 1) (by omega) (by simpa using hlength)]

/-! ## The starts of lines -/

/-- Lines start behind line breaks. -/
theorem lt_of_mem_lineStartsFrom (h : n ∈ lineStartsFrom offset text) : offset < n := by
  induction text generalizing offset with
  | nil => cases h
  | cons c rest ih =>
    unfold lineStartsFrom at h
    split at h
    · rcases List.mem_cons.1 h with rfl | h
      · exact Nat.lt_succ_self _
      · exact Nat.lt_of_succ_lt (ih h)
    · exact Nat.lt_of_succ_lt (ih h)

theorem pairwise_lineStartsFrom (offset : Nat) (text : List Char) :
    (lineStartsFrom offset text).Pairwise (· < ·) := by
  induction text generalizing offset with
  | nil => exact .nil
  | cons c rest ih =>
    unfold lineStartsFrom
    split
    · exact List.pairwise_cons.2 ⟨fun n hn => lt_of_mem_lineStartsFrom hn, ih _⟩
    · exact ih _

/-- Lines start at growing offsets. -/
theorem pairwise_lineStarts (source : List Char) : (lineStarts source).Pairwise (· < ·) :=
  List.pairwise_cons.2 ⟨fun _ hn => lt_of_mem_lineStartsFrom hn, pairwise_lineStartsFrom 0 source⟩

/-- Up to an offset as many lines start as there are line breaks before it. -/
theorem countP_lineStartsFrom (offset n : Nat) (text : List Char) :
    (lineStartsFrom offset text).countP (· ≤ offset + n) = (text.take n).count '\n' := by
  induction text generalizing offset n with
  | nil =>
    rw [List.take_nil]
    rfl
  | cons c rest ih =>
    cases n with
    | zero =>
      refine List.countP_eq_zero.2 fun start hstart => ?_
      have := lt_of_mem_lineStartsFrom hstart
      simp only [decide_eq_true_eq]
      omega
    | succ n =>
      have hrest := ih (offset + 1) n
      rw [show offset + 1 + n = offset + (n + 1) by omega] at hrest
      rw [List.take_succ_cons, lineStartsFrom]
      split
      · next hc =>
        rw [List.countP_cons_of_pos (by simp), hrest, hc, List.count_cons_self]
      · next hc => rw [hrest, List.count_cons_of_ne hc]

theorem length_splitOn (c : Char) (text : List Char) :
    (Text.splitOn c text).length = text.count c + 1 := by
  induction text with
  | nil => rfl
  | cons d rest ih =>
    unfold Text.splitOn
    split
    · next hd => rw [hd, List.count_cons_self, List.length_cons, ih]
    · next hd =>
      rw [List.count_cons_of_ne hd, ← ih]
      split
      · next hnone =>
        rw [hnone] at ih
        cases ih
      · next hsome =>
        rw [hsome]
        rfl

/-- **The line that is found** for an offset is the last one that starts at or before it. -/
theorem locate_spec (source : List Char) (offset : Nat) :
    locate (lineStarts source) offset < (lineStarts source).length ∧
      (lineStarts source)[locate (lineStarts source) offset]?.getD 0 ≤ offset ∧
      ∀ k, locate (lineStarts source) offset < k → k < (lineStarts source).length →
        offset < (lineStarts source)[k]?.getD 0 := by
  have hgrow : ∀ j k, j ≤ k → k < (lineStarts source).length →
      (lineStarts source)[j]?.getD 0 ≤ (lineStarts source)[k]?.getD 0 := by
    intro j k hle hk
    rcases Nat.eq_or_lt_of_le hle with rfl | hlt
    · exact Nat.le_refl _
    · have := List.pairwise_iff_getElem.1 (pairwise_lineStarts source) j k (by omega) hk hlt
      rw [List.getElem?_eq_getElem hk, List.getElem?_eq_getElem (by omega)]
      exact Nat.le_of_lt this
  have hpos : 0 < (lineStarts source).length := Nat.succ_pos _
  have hstart : (lineStarts source)[0]?.getD 0 ≤ offset := Nat.zero_le offset
  have hend : ∀ k, (lineStarts source).length - 1 < k → k < (lineStarts source).length →
      offset < (lineStarts source)[k]?.getD 0 := by
    intro k hk hlength
    omega
  obtain ⟨-, hto, hspec⟩ := locateBetween_spec (Nat.zero_le _) hstart hend hgrow
  exact ⟨Nat.lt_of_le_of_lt hto (Nat.sub_one_lt_of_lt hpos), hspec⟩

/-- **Its number** is the number of line breaks before the offset. -/
theorem locate_eq (source : List Char) (offset : Nat) :
    locate (lineStarts source) offset = lineOf source offset := by
  obtain ⟨hlt, hlast, hbeyond⟩ := locate_spec source offset
  have hcount := countP_le_of_last (pairwise_lineStarts source) hlt hlast hbeyond
  have hbreaks := countP_lineStartsFrom 0 offset source
  rw [Nat.zero_add] at hbreaks
  rw [lineStarts, List.countP_cons_of_pos (by simp), hbreaks] at hcount
  exact (Nat.succ.inj hcount).symm

theorem lineOf_lt (source : List Char) (offset : Nat) :
    lineOf source offset < (Text.splitOn '\n' source).length := by
  have := (List.take_sublist offset source).count_le '\n'
  rw [length_splitOn, lineOf]
  omega

/-! ## Places -/

theorem lineOf_eq_zero_iff :
    lineOf text n = 0 ↔ ∀ c ∈ (text.take n).reverse, decide (c ≠ '\n') = true := by
  rw [lineOf, List.count_eq_zero]
  constructor
  · intro h c hc
    exact decide_eq_true fun heq => h (heq ▸ List.mem_reverse.1 hc)
  · intro h hmem
    exact of_decide_eq_true (h _ (List.mem_reverse.2 hmem)) rfl

/-- On the first line the column of an offset is the offset. -/
theorem columnOf_of_lineOf (h : lineOf text n = 0) : columnOf text n = (text.take n).length := by
  rw [columnOf, List.takeWhile_eq_self_iff.2 (lineOf_eq_zero_iff.1 h), List.length_reverse]

/-- A line break in front of a text moves what stands in it one line down. -/
theorem lineOf_cons (c : Char) (n : Nat) (text : List Char) :
    lineOf (c :: text) (n + 1) = if c = '\n' then lineOf text n + 1 else lineOf text n := by
  rw [lineOf, List.take_succ_cons, lineOf]
  split
  · next hc => rw [hc, List.count_cons_self]
  · next hc => rw [List.count_cons_of_ne hc]

/-- A character in front of a text is on the same line as what stands on the first line of it, if it
is no line break. -/
theorem columnOf_cons (c : Char) (n : Nat) (text : List Char) :
    columnOf (c :: text) (n + 1) =
      if lineOf text n = 0 ∧ c ≠ '\n' then columnOf text n + 1 else columnOf text n := by
  by_cases h : lineOf text n = 0
  · rw [columnOf_of_lineOf h, columnOf, List.take_succ_cons, List.reverse_cons,
      List.takeWhile_append_of_pos (lineOf_eq_zero_iff.1 h)]
    by_cases hc : c = '\n' <;> simp [h, hc]
  · rw [if_neg fun hboth => h hboth.1, columnOf, columnOf, List.take_succ_cons, List.reverse_cons,
      List.takeWhile_append, if_neg fun hlength => h (lineOf_eq_zero_iff.2
        (List.takeWhile_eq_self_iff.1 ((List.takeWhile_prefix _).eq_of_length hlength)))]

theorem exists_splitOn (c : Char) (text : List Char) :
    ∃ first others, Text.splitOn c text = first :: others :=
  List.exists_cons_of_length_pos (by rw [length_splitOn]; omega)

/-- An offset on the lines of a text that starts at another offset. -/
theorem exists_line_from (base : Nat) (h : n ≤ text.length) :
    ∃ line, (Text.splitOn '\n' text)[lineOf text n]? = some line ∧
      columnOf text n ≤ line.length ∧ columnOf text n ≤ n ∧
      (base :: lineStartsFrom base text)[lineOf text n]? = some (base + (n - columnOf text n)) := by
  induction text generalizing n base with
  | nil =>
    obtain rfl : n = 0 := by simpa using h
    exact ⟨[], rfl, Nat.le_refl _, Nat.le_refl _, rfl⟩
  | cons c rest ih =>
    cases n with
    | zero =>
      obtain ⟨first, others, hsplit⟩ := exists_splitOn '\n' (c :: rest)
      exact ⟨first, by rw [hsplit]; rfl, Nat.zero_le _, Nat.le_refl _, rfl⟩
    | succ n =>
      have hn : n ≤ rest.length := by simpa using h
      obtain ⟨line, hline, hroom, hle, hstart⟩ := ih (base + 1) hn
      rw [lineOf_cons, columnOf_cons, Text.splitOn, lineStartsFrom]
      by_cases hc : c = '\n'
      · -- the rest of the text has its lines one further down
        rw [if_pos hc, if_pos hc, if_pos hc, if_neg fun hboth => hboth.2 hc,
          List.getElem?_cons_succ, List.getElem?_cons_succ, hline, hstart]
        exact ⟨line, rfl, hroom, by omega, congrArg some (by omega)⟩
      · obtain ⟨first, others, hsplit⟩ := exists_splitOn '\n' rest
        rw [if_neg hc, if_neg hc, if_neg hc, hsplit]
        rw [hsplit] at hline
        cases hof : lineOf rest n with
        | zero =>
          -- on the first line, which has one character more
          have hfull := columnOf_of_lineOf hof
          rw [List.length_take, Nat.min_eq_left hn] at hfull
          rw [hof, List.getElem?_cons_zero, Option.some.injEq] at hline
          rw [if_pos ⟨rfl, hc⟩, hfull]
          refine ⟨c :: first, rfl, ?_, Nat.le_refl _, congrArg some (by omega)⟩
          rw [List.length_cons, hline]
          omega
        | succ k =>
          rw [hof, List.getElem?_cons_succ] at hline hstart
          rw [if_neg fun hboth => Nat.succ_ne_zero k hboth.1, List.getElem?_cons_succ,
            List.getElem?_cons_succ, hstart]
          exact ⟨line, hline, hroom, by omega, congrArg some (by omega)⟩

/-- **An offset lies on its line:** this starts as many characters before it as the column says, and it
is no longer than the line. -/
theorem exists_line (h : offset ≤ source.length) :
    ∃ line, (Text.splitOn '\n' source)[lineOf source offset]? = some line ∧
      columnOf source offset ≤ line.length ∧ columnOf source offset ≤ offset ∧
      (lineStarts source)[lineOf source offset]? = some (offset - columnOf source offset) := by
  have hfrom := exists_line_from 0 h
  simp only [Nat.zero_add] at hfrom
  exact hfrom

end Galley.Report
