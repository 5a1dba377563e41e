import Galley.Filter
import Mathlib.Data.List.SplitBy

/-!
# Texts without markup

A text is unmarked if no angle bracket and no quote stands in it. What the filters on texts make of
an unmarked text is unmarked again: case mapping never leads to one of these characters, a slug has
only word characters and hyphens, and wrapping and centering add only blanks and line ends.

* `Text.Unmarked`: the predicate.
* `Text.unmarked_slashed`, `unmarked_upper`, `unmarked_lower`, `unmarked_slug`,
  `unmarked_wrapLines`, `unmarked_centered`: one lemma for each filter on texts.
* `unmarked_translate`: the translation of a message.
-/

namespace Galley

namespace Text

variable {text : List Char}

/-- A text is **unmarked** if no character in it could open or close markup. -/
def Unmarked (text : List Char) : Prop := ∀ c ∈ text, isMarkup c = false

theorem unmarked_append {first second : List Char} (h : Unmarked first) (h' : Unmarked second) :
    Unmarked (first ++ second) := by
  intro c hc
  rcases List.mem_append.1 hc with hc | hc
  · exact h c hc
  · exact h' c hc

theorem unmarked_replicate {n : Nat} {c : Char} (h : isMarkup c = false) :
    Unmarked (List.replicate n c) := by
  intro d hd
  rw [List.eq_of_mem_replicate hd]
  exact h

/-- A text of which every character becomes an unmarked text. -/
theorem unmarked_flatMap {f : Char → List Char} (h : Unmarked text)
    (hf : ∀ c, isMarkup c = false → Unmarked (f c)) : Unmarked (text.flatMap f) := by
  intro d hd
  obtain ⟨c, hc, hd⟩ := List.mem_flatMap.1 hd
  exact hf c (h c hc) d hd

theorem unmarked_of_subset {part : List Char} (h : Unmarked text) (hsub : part ⊆ text) :
    Unmarked part := fun c hc => h c (hsub hc)

/-! ## Case -/

/-- The characters of markup have small codes. -/
theorem isMarkup_of_lt {c : Char} (h : 62 < c.toNat) : isMarkup c = false := by
  have hne (d : Char) (hd : d.toNat ≤ 62) : c ≠ d := by
    rintro rfl
    omega
  simp only [isMarkup, Bool.or_eq_false_iff, decide_eq_false_iff_not]
  exact ⟨⟨⟨hne '<' (by decide), hne '>' (by decide)⟩, hne '"' (by decide)⟩, hne '\'' (by decide)⟩

/-- So a code beyond them stands for none of them, even if it stands for no character. -/
theorem isMarkup_ofNat {n : Nat} (h : 62 < n) : isMarkup (Char.ofNat n) = false := by
  by_cases hvalid : n.isValidChar
  · have hcode : (Char.ofNat n).toNat = n := by
      rw [Char.ofNat, dif_pos hvalid]
      rfl
    exact isMarkup_of_lt (by omega)
  -- a code of no character stands for the character zero
  · have hzero : Char.ofNat n = Char.ofNat 0 := by
      rw [Char.ofNat, dif_neg hvalid]
      rfl
    rw [hzero]
    rfl

namespace Case

/-- Whether a table of case mappings leads beyond the characters of markup. -/
def leadsBeyond (shifts : List Shift) (expansions : List (Nat × List Nat)) : Bool :=
  (shifts.all fun s => 62 < s.first + s.distance) &&
    expansions.all fun entry => entry.2.all fun code => 62 < code

theorem leadsBeyond_upper : leadsBeyond upperShifts upperExpansions := by decide +kernel

theorem leadsBeyond_lower : leadsBeyond lowerShifts lowerExpansions := by decide +kernel

/-- What a table maps a character to that is none of markup. -/
theorem unmarked_mapped {shifts : List Shift} {expansions : List (Nat × List Nat)}
    (h : leadsBeyond shifts expansions) {c : Char} (hc : isMarkup c = false) :
    Unmarked (mapped shifts expansions c) := by
  obtain ⟨hshifts, hexpansions⟩ := Bool.and_eq_true_iff.1 h
  unfold mapped
  split
  · next codes hcodes =>
    intro d hd
    obtain ⟨code, hcode, rfl⟩ := List.mem_map.1 hd
    obtain ⟨before, behind, rfl, -⟩ := List.lookup_eq_some_iff.1 hcodes
    have hentry := List.all_eq_true.1 hexpansions _ (List.mem_append_right _ List.mem_cons_self)
    exact isMarkup_ofNat (of_decide_eq_true (List.all_eq_true.1 hentry code hcode))
  · split
    · next distance hdistance =>
      obtain ⟨s, hs, rfl⟩ := Option.map_eq_some_iff.1 hdistance
      have hfound := List.find?_some hs
      have hbeyond := of_decide_eq_true (List.all_eq_true.1 hshifts s (List.mem_of_find?_eq_some hs))
      simp only [Bool.and_eq_true, decide_eq_true_eq] at hfound
      intro d hd
      rw [List.mem_singleton.1 hd]
      exact isMarkup_ofNat (by omega)
    · intro d hd
      rw [List.mem_singleton.1 hd]
      exact hc

/-- Only letters become others in ASCII. -/
theorem isMarkup_toUpper {c : Char} (h : isMarkup c = false) : isMarkup c.toUpper = false := by
  unfold Char.toUpper
  split
  · next hletter =>
    have hfirst : 97 ≤ c.val.toNat := UInt32.le_iff_toNat_le.1 hletter.1
    have hlast : c.val.toNat ≤ 122 := UInt32.le_iff_toNat_le.1 hletter.2
    refine isMarkup_of_lt ?_
    change 62 < (c.val + ('A'.val - 'a'.val)).toNat
    rw [UInt32.toNat_add]
    -- the distance is negative, and so the sum runs over
    change 62 < (c.val.toNat + 0xFFFFFFE0) % 0x100000000
    omega
  · exact h

theorem isMarkup_toLower {c : Char} (h : isMarkup c = false) : isMarkup c.toLower = false := by
  unfold Char.toLower
  split
  · next hletter =>
    have hfirst : 65 ≤ c.val.toNat := UInt32.le_iff_toNat_le.1 hletter.1
    have hlast : c.val.toNat ≤ 90 := UInt32.le_iff_toNat_le.1 hletter.2
    refine isMarkup_of_lt ?_
    change 62 < (c.val + ('a'.val - 'A'.val)).toNat
    rw [UInt32.toNat_add]
    change 62 < (c.val.toNat + 32) % 0x100000000
    omega
  · exact h

theorem unmarked_upperOf {c : Char} (h : isMarkup c = false) : Unmarked (upperOf c) := by
  unfold upperOf
  split
  · intro d hd
    rw [List.mem_singleton.1 hd]
    exact isMarkup_toUpper h
  · exact unmarked_mapped leadsBeyond_upper h

theorem unmarked_lowerBetween {c : Char} (before after : List Char) (h : isMarkup c = false) :
    Unmarked (lowerBetween before c after) := by
  unfold lowerBetween lowerOf
  repeat' split
  · exact List.forall_mem_singleton.2 rfl
  · exact List.forall_mem_singleton.2 rfl
  · exact List.forall_mem_singleton.2 (isMarkup_toLower h)
  · exact unmarked_mapped leadsBeyond_lower h

end Case

/-- **Upper case** makes no markup. -/
theorem unmarked_upper (h : Unmarked text) : Unmarked (upper text) :=
  unmarked_flatMap h fun _ => Case.unmarked_upperOf

/-- **Lower case** makes no markup. -/
theorem unmarked_lower (h : Unmarked text) : Unmarked (lower text) := by
  -- the case of a sigma depends on what stands before it
  have hfrom (before : List Char) : Unmarked (lowerFrom before text) := by
    induction text generalizing before with
    | nil => exact h
    | cons c rest ih =>
      obtain ⟨hc, hrest⟩ := List.forall_mem_cons.1 h
      exact unmarked_append (Case.unmarked_lowerBetween _ _ hc) (ih hrest _)
  exact hfrom []

theorem unmarked_capitalizeFirst (h : Unmarked text) : Unmarked (capitalizeFirst text) := by
  cases text with
  | nil => exact h
  | cons c rest =>
    obtain ⟨hc, hrest⟩ := List.forall_mem_cons.1 h
    exact unmarked_append (Case.unmarked_upperOf hc) hrest

/-! ## Slugs -/

namespace Slug

/-- The characters that may stay in a slug are none of markup. -/
theorem isMarkup_of_isKept {c : Char} (h : isKept c) : isMarkup c = false := by
  refine Bool.eq_false_iff.2 fun hmarkup => ?_
  simp only [isMarkup, Bool.or_eq_true, decide_eq_true_eq] at hmarkup
  rcases hmarkup with ((rfl | rfl) | rfl) | rfl
  all_goals exact absurd h (by decide)

theorem unmarked_hyphenate (inGap : Bool) (h : Unmarked text) : Unmarked (hyphenate inGap text) := by
  induction text generalizing inGap with
  | nil => exact h
  | cons c rest ih =>
    obtain ⟨hc, hrest⟩ := List.forall_mem_cons.1 h
    unfold hyphenate
    split
    · split
      · exact ih true hrest
      · exact List.forall_mem_cons.2 ⟨rfl, ih true hrest⟩
    · exact List.forall_mem_cons.2 ⟨hc, ih false hrest⟩

end Slug

/-- **A slug** has no markup, whatever it is made of. -/
theorem unmarked_slug (text : List Char) : Unmarked (slug text) := by
  have hkept : Unmarked ((lower (toAscii text)).filter Slug.isKept) :=
    fun c hc => Slug.isMarkup_of_isKept (List.mem_filter.1 hc).2
  -- the hyphens at both ends are dropped
  refine unmarked_of_subset (Slug.unmarked_hyphenate false hkept) fun c hc => ?_
  have hfirst := (List.dropWhile_suffix _).subset (List.mem_reverse.1 hc)
  exact (List.dropWhile_suffix _).subset (List.mem_reverse.1 hfirst)

/-! ## Lines -/

theorem unmarked_expandTabs (column : Nat) (h : Unmarked text) :
    Unmarked (expandTabs column text) := by
  induction text generalizing column with
  | nil => exact h
  | cons c rest ih =>
    obtain ⟨hc, hrest⟩ := List.forall_mem_cons.1 h
    unfold expandTabs
    split
    · exact unmarked_append (unmarked_replicate rfl) (ih _ hrest)
    · split
      · exact List.forall_mem_cons.2 ⟨hc, ih _ hrest⟩
      · exact List.forall_mem_cons.2 ⟨hc, ih _ hrest⟩

/-- The chunks of a text are made of its characters. -/
theorem unmarked_chunks (h : Unmarked text) : ∀ chunk ∈ chunks text, Unmarked chunk := by
  intro chunk hchunk c hc
  refine h c ?_
  rw [← List.flatten_splitBy (fun a b => isGapChar a == isGapChar b) text]
  exact List.mem_flatten_of_mem hchunk hc

namespace Filling

/-- A line and what is left behind it are taken from the chunks. -/
theorem nextLine_subset (room : Nat) (chunk : List Char) (rest : List (List Char)) :
    (nextLine room chunk rest).1 ⊆ chunk :: rest ∧ (nextLine room chunk rest).2 ⊆ chunk :: rest := by
  have hall := fitting_append room (chunk :: rest)
  unfold nextLine
  split
  · exact ⟨fun _ hc => List.mem_cons.2 (.inl (List.mem_singleton.1 hc)), List.subset_cons_self _ _⟩
  · constructor
    · exact fun _ hc => hall ▸ List.mem_append_left _ hc
    · exact fun _ hc => hall ▸ List.mem_append_right _ hc

theorem dropLastGap_subset (line : List (List Char)) : dropLastGap line ⊆ line := by
  unfold dropLastGap
  split
  · exact List.dropLast_subset line
  · exact List.Subset.refl line

theorem skipGap_subset (started : Bool) (text : List (List Char)) :
    skipGap started text ⊆ text := by
  unfold skipGap
  split
  · exact List.Subset.refl _
  · split
    · exact List.subset_cons_self _ _
    · exact List.Subset.refl _

/-- Lines that begin with nothing are made of the chunks. -/
theorem unmarked_fillFrom {width : Nat} (started : Bool) {text : List (List Char)}
    (h : ∀ chunk ∈ text, Unmarked chunk) :
    ∀ line ∈ fillFrom { width } started text, Unmarked line := by
  fun_induction fillFrom ({ width } : Filling) started text with
  | case1 => exact List.forall_mem_nil _
  | case2 started text chunk others hskip _ _ _ _ _ ih =>
    refine ih fun c hc => h c (skipGap_subset started text ?_)
    rw [hskip]
    exact (nextLine_subset _ chunk others).2 hc
  | case3 started text chunk others hskip indent taken line _ _ ih =>
    have hothers : ∀ c ∈ chunk :: others, Unmarked c :=
      fun c hc => h c (skipGap_subset started text (hskip ▸ hc))
    have hindent : indent = [] := by
      change (if _ : started = true then [] else []) = _
      split <;> rfl
    refine List.forall_mem_cons.2 ⟨?_, ih fun c hc => hothers c ((nextLine_subset _ _ _).2 hc)⟩
    rw [hindent, List.nil_append]
    intro c hc
    obtain ⟨part, hpart, hc⟩ := List.mem_flatten.1 hc
    exact hothers part ((nextLine_subset _ _ _).1 (dropLastGap_subset _ hpart)) c hc

end Filling

/-- The lines of a text are made of its characters. -/
theorem unmarked_linesFrom {line : List Char} (hline : Unmarked line) (h : Unmarked text) :
    ∀ l ∈ linesFrom line text, Unmarked l := by
  have hreverse {l : List Char} (hl : Unmarked l) : Unmarked l.reverse :=
    unmarked_of_subset hl fun c hc => List.mem_reverse.1 hc
  fun_induction linesFrom line text with
  | case1 => exact List.forall_mem_nil _
  | case2 line _ => exact List.forall_mem_singleton.2 (hreverse hline)
  | case3 line rest ih =>
    exact List.forall_mem_cons.2 ⟨hreverse hline, ih (List.forall_mem_nil _)
      fun c hc => h c (List.mem_cons_of_mem _ (List.mem_cons_of_mem _ hc))⟩
  | case4 line c rest _ _ ih =>
    obtain ⟨-, hrest⟩ := List.forall_mem_cons.1 h
    exact List.forall_mem_cons.2 ⟨hreverse hline, ih (List.forall_mem_nil _) hrest⟩
  | case5 line c rest _ _ ih =>
    obtain ⟨hc, hrest⟩ := List.forall_mem_cons.1 h
    exact ih (List.forall_mem_cons.2 ⟨hc, hline⟩) hrest

theorem unmarked_intercalate {lines : List (List Char)} {between : List Char}
    (hbetween : Unmarked between) (h : ∀ line ∈ lines, Unmarked line) :
    Unmarked (between.intercalate lines) := by
  induction lines with
  | nil => exact List.forall_mem_nil _
  | cons line rest ih =>
    obtain ⟨hline, hrest⟩ := List.forall_mem_cons.1 h
    cases rest with
    | nil =>
      rw [List.intercalate_singleton]
      exact hline
    | cons next rest =>
      rw [List.intercalate_cons_cons]
      exact unmarked_append (unmarked_append hline hbetween) (ih hrest)

/-- **Wrapping** puts line ends between parts of the text. -/
theorem unmarked_wrapLines (width : Nat) (h : Unmarked text) : Unmarked (wrapLines width text) := by
  have hlines := unmarked_linesFrom (List.forall_mem_nil _) h
  -- the line end at the end of the text is not lost
  have hended (wrapped : List (List Char)) (hwrapped : ∀ l ∈ wrapped, Unmarked l) :
      Unmarked (['\n'].intercalate
        (if text.getLast? = some '\n' then wrapped ++ [[]] else wrapped)) := by
    refine unmarked_intercalate (List.forall_mem_singleton.2 rfl) fun l hl => ?_
    split at hl
    · rcases List.mem_append.1 hl with hl | hl
      · exact hwrapped l hl
      · rw [List.mem_singleton.1 hl]
        exact List.forall_mem_nil _
    · exact hwrapped l hl
  unfold wrapLines
  refine hended _ fun l hl => ?_
  obtain ⟨line, hline, hl⟩ := List.mem_flatMap.1 hl
  have htabs := unmarked_expandTabs 0 (hlines line hline)
  split at hl
  · rw [List.mem_singleton.1 hl]
    exact hlines line hline
  · exact Filling.unmarked_fillFrom false (unmarked_chunks htabs) l hl

/-! ## Other filters -/

end Text

open Text

variable {text : List Char}

/-- **Centering** adds blanks. -/
theorem unmarked_centered (width : Int) (h : Unmarked text) : Unmarked (centered width text) :=
  unmarked_append (unmarked_append (unmarked_replicate rfl) h) (unmarked_replicate rfl)

/-- **Slashes** in front of quotes add none. -/
theorem unmarked_slashed (h : Unmarked text) : Unmarked (slashed text) := by
  refine unmarked_flatMap h fun c hc => ?_
  split
  · exact List.forall_mem_cons.2 ⟨rfl, List.forall_mem_singleton.2 hc⟩
  · exact List.forall_mem_singleton.2 hc

/-- **A translation** has the characters of the message and line ends. -/
theorem unmarked_translate {message : String} (h : Unmarked message.toList) :
    Unmarked (translate message).toList := by
  have hends {text : List Char} (h : Unmarked text) : Unmarked (plainLineEnds text) := by
    fun_induction plainLineEnds text with
    | case1 => exact h
    | case2 => exact List.forall_mem_singleton.2 rfl
    -- one line end for two characters, or for one
    | case3 c rest ihrest ih =>
      obtain ⟨-, hc⟩ := List.forall_mem_cons.1 h
      refine List.forall_mem_cons.2 ⟨rfl, ?_⟩
      split
      · exact ihrest (List.forall_mem_cons.1 hc).2
      · exact ih hc
    | case4 c rest _ _ ih =>
      obtain ⟨hc, hrest⟩ := List.forall_mem_cons.1 h
      exact List.forall_mem_cons.2 ⟨hc, ih hrest⟩
  unfold translate
  rw [String.toList_ofList]
  refine hends (unmarked_flatMap h fun c hc => ?_)
  split
  · exact List.forall_mem_cons.2 ⟨hc, List.forall_mem_singleton.2 hc⟩
  · exact List.forall_mem_singleton.2 hc

end Galley
