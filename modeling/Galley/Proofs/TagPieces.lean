import Galley.Proofs.Pipeline
import Galley.Words.TagName
import Mathlib.Data.List.TakeWhile

/-!
# The content of a tag in its pieces

What stands between the delimiters of a tag is blank, or it is a word with what follows the word, and
the blanks around and between these. The word is the name of the tag, if all its characters are those
of names, and what follows it are the parts.

* `TagPieces`, `TagPieces.text`: the pieces, and the content that they make up.
* `TagPieces.trim_text`: the blanks at both ends are all that is trimmed.
* `exists_tagPieces`: every content that is not blank falls into pieces.
* `TagPieces.read?_text`: what is read from the pieces.
* `TagWords.splits_exactly`: **names are split off exactly.**
-/

namespace Galley

open Text

/-- A text without blanks at its ends. -/
structure Trimmed (text : List Char) : Prop where
  head : ∀ d ∈ text.head?, isBlank d = false
  last : ∀ d ∈ text.getLast?, isBlank d = false

theorem trimmed_nil : Trimmed [] := ⟨nofun, nofun⟩

instance (text : List Char) : Decidable (Trimmed text) :=
  decidable_of_iff (text.head?.any isBlank = false ∧ text.getLast?.any isBlank = false)
    ⟨fun ⟨hhead, hlast⟩ => ⟨(Option.any_eq_false _ _).1 hhead, (Option.any_eq_false _ _).1 hlast⟩,
      fun h => ⟨(Option.any_eq_false _ _).2 h.head, (Option.any_eq_false _ _).2 h.last⟩⟩

theorem trimmed_trim (text : List Char) : Trimmed (trim text) :=
  ⟨fun d hd => head?_trimStart text d (head?_of_isPrefix (trimEnd_prefix_self _) d hd),
    getLast?_trimEnd _⟩

/-- No blanks stand at the end of a trimmed text. -/
theorem Trimmed.eq_nil_of_allBlank {text blanks : List Char} (h : Trimmed (text ++ blanks))
    (hblanks : allBlank blanks) : blanks = [] := by
  cases hlast : blanks.getLast? with
  | none => exact List.getLast?_eq_none_iff.1 hlast
  | some d =>
    have hnot := h.last d (by rw [List.getLast?_append, hlast]; rfl)
    rw [List.all_eq_true.1 hblanks d (List.mem_of_getLast? hlast)] at hnot
    cases hnot

/-- **The pieces of a tag's content:** the blanks at its start, its first word, the blanks behind the
word, what follows these, and the blanks at its end. If nothing follows the word, all blanks behind it
are at the end. -/
structure TagPieces where
  leading : List Char
  word : List Char
  gap : List Char
  parts : List Char
  trailing : List Char
  leading_blank : allBlank leading
  word_ne_nil : word ≠ []
  word_not_blank : ∀ d ∈ word, isBlank d = false
  gap_blank : allBlank gap
  gap_eq_nil_iff : gap = [] ↔ parts = []
  parts_trimmed : Trimmed parts
  trailing_blank : allBlank trailing

namespace TagPieces

variable (p : TagPieces) (start : Nat)

/-- The content without the blanks at its ends. -/
def core : List Char := p.word ++ (p.gap ++ p.parts)

/-- The content that the pieces make up. -/
def text : List Char := p.leading ++ (p.core ++ p.trailing)

/-- The place of the first word in a content that begins at an offset. -/
def wordSpan : Span := ⟨start + p.leading.length, p.word.length⟩

/-- The place of what follows the word. -/
def partsSpan : Span := ⟨(p.wordSpan start).stop + p.gap.length, p.parts.length⟩

/-- A blank stands behind the word, if anything does. -/
theorem isBlank_of_head? : ∀ d ∈ (p.gap ++ p.parts).head?, isBlank d := by
  intro d hd
  cases hgap : p.gap with
  | nil =>
    rw [hgap, p.gap_eq_nil_iff.1 hgap] at hd
    cases hd
  | cons e gap =>
    rw [hgap] at hd
    cases hd
    exact List.all_eq_true.1 p.gap_blank d (by rw [hgap]; exact List.mem_cons_self)

theorem trimmed_core : Trimmed p.core := by
  refine ⟨fun d hd => ?_, fun d hd => ?_⟩
  · rw [core, List.head?_append, List.head?_eq_some_head p.word_ne_nil, Option.some_or] at hd
    cases hd
    exact p.word_not_blank _ (List.head_mem _)
  · rw [core, List.getLast?_append, List.getLast?_append] at hd
    cases hparts : p.parts.getLast? with
    | some e =>
      rw [hparts] at hd
      cases hd
      exact p.parts_trimmed.last d hparts
    | none =>
      -- nothing follows the word, so it is last
      have hnil := List.getLast?_eq_none_iff.1 hparts
      rw [hparts, p.gap_eq_nil_iff.2 hnil] at hd
      exact p.word_not_blank d (List.mem_of_getLast? hd)

theorem trimStart_text : trimStart p.text = p.core ++ p.trailing := by
  refine trimStart_append p.leading_blank fun d hd => p.trimmed_core.head d ?_
  have hne : p.core ≠ [] := by simp [core, p.word_ne_nil]
  rwa [List.head?_append, List.head?_eq_some_head hne, Option.some_or,
    ← List.head?_eq_some_head hne] at hd

/-- **What is trimmed** are the blanks at both ends. -/
theorem trim_text : trim p.text = p.core := by
  rw [trim, trimStart_text]
  exact trimEnd_append p.trailing_blank p.trimmed_core.last

theorem wordLength_core : wordLength p.core = p.word.length := by
  rw [wordLength, core, takeWhile_ended]
  · intro d hd
    rw [p.word_not_blank d hd]
    rfl
  · intro d hd
    rw [p.isBlank_of_head? d hd]
    rfl

/-- The characters of names that the word begins with are all that the content begins with. -/
theorem takeWhile_core : p.core.takeWhile isNameChar = p.word.takeWhile isNameChar := by
  have hnone : (p.gap ++ p.parts).takeWhile isNameChar = [] := by
    cases hgap : p.gap ++ p.parts with
    | nil => rfl
    | cons d rest =>
      have hblank := p.isBlank_of_head? d (by rw [hgap]; rfl)
      refine List.takeWhile_cons_of_neg fun hname => ?_
      rw [not_isBlank_of_isNameChar hname] at hblank
      cases hblank
  rw [core, List.takeWhile_append, hnone, List.append_nil]
  split
  · next hlength => exact ((List.takeWhile_prefix isNameChar).eq_of_length hlength).symm
  · rfl

theorem trim_behind_word : trim (p.core.drop p.word.length) = p.parts := by
  rw [core, List.drop_left, trim, trimStart_append p.gap_blank p.parts_trimmed.head]
  have htrim := trimEnd_append (show allBlank [] from rfl) p.parts_trimmed.last
  rwa [List.append_nil] at htrim

/-- **What is read** from the pieces: the word and what follows it, or an error at the word if it is
not a name. -/
theorem read?_text : TagWords.read? p.text start =
    if p.word.all isNameChar then .ok (some ⟨p.wordSpan start, p.partsSpan start⟩)
    else .error (.here .invalidTagName (p.wordSpan start)) := by
  have hempty : p.core.isEmpty = false := by simp [core, p.word_ne_nil]
  have hstart : p.text.length - (p.core ++ p.trailing).length = p.leading.length := by
    rw [text, List.length_append, Nat.add_sub_cancel]
  unfold TagWords.read?
  simp only [p.trim_text, p.trimStart_text, hstart, hempty, p.wordLength_core, p.takeWhile_core,
    Bool.false_eq_true, if_false]
  by_cases hname : ∀ d ∈ p.word, isNameChar d
  · have hall : p.word.takeWhile isNameChar = p.word := List.takeWhile_eq_self_iff.2 hname
    have hplace : p.core.length - p.parts.length = p.word.length + p.gap.length := by
      simp only [core, List.length_append]
      omega
    rw [if_pos (List.all_eq_true.2 hname), hall, if_neg (Nat.lt_irrefl _), p.trim_behind_word, hplace]
    simp only [wordSpan, partsSpan, Span.stop, Nat.add_assoc]
  · have hshort : (p.word.takeWhile isNameChar).length < p.word.length := by
      refine Nat.lt_of_le_of_ne (List.takeWhile_sublist _).length_le fun hlength => hname ?_
      exact List.takeWhile_eq_self_iff.1 ((List.takeWhile_prefix isNameChar).eq_of_length hlength)
    rw [if_neg fun hall => hname (List.all_eq_true.1 hall), if_pos hshort]
    rfl

/-- If nothing follows the word, the place for it is directly behind the word. -/
theorem partsSpan_of_nil (h : p.parts = []) : p.partsSpan start = ⟨(p.wordSpan start).stop, 0⟩ := by
  rw [partsSpan, h, p.gap_eq_nil_iff.2 h]
  rfl

/-- The pieces stand at their places. -/
theorem slice_of_reads {source : List Char} (h : (⟨start, p.text⟩ : Cursor).Reads source) :
    (p.wordSpan start).slice source = p.word ∧ (p.partsSpan start).slice source = p.parts := by
  have hcore := h.append.2.append.1
  exact ⟨hcore.append.1.slice_eq, hcore.append.2.append.2.slice_eq⟩

end TagPieces

/-- A trimmed text is a word and, behind blanks, another trimmed text. -/
theorem exists_word_gap {core : List Char} (hne : core ≠ []) (h : Trimmed core) :
    ∃ word gap parts, core = word ++ (gap ++ parts) ∧ word ≠ [] ∧
      (∀ d ∈ word, isBlank d = false) ∧ allBlank gap ∧ (gap = [] ↔ parts = []) ∧ Trimmed parts := by
  obtain ⟨rest, hrest⟩ : ∃ rest, core.dropWhile (fun d => !isBlank d) = rest := ⟨_, rfl⟩
  have hcore : core = core.takeWhile (fun d => !isBlank d) ++ rest := by
    rw [← hrest, List.takeWhile_append_dropWhile]
  have hbegin : ∀ d ∈ rest.head?, isBlank d := by
    intro d hd
    have hnot := List.head?_dropWhile_not (fun d => !isBlank d) core
    rw [hrest, Option.mem_def.1 hd] at hnot
    simpa using hnot
  have hsplit : rest = rest.takeWhile isBlank ++ trimStart rest :=
    List.takeWhile_append_dropWhile.symm
  have hgap : allBlank (rest.takeWhile isBlank) := List.all_takeWhile
  refine ⟨core.takeWhile (fun d => !isBlank d), rest.takeWhile isBlank, trimStart rest,
    by rw [← hsplit, ← hcore], fun hnil => ?_, fun d hd => by simpa using of_mem_takeWhile hd, hgap,
    ⟨fun hnil => ?_, fun hnil => ?_⟩, head?_trimStart rest, fun d hd => h.last d ?_⟩
  · cases core with
    | nil => exact hne rfl
    | cons d core => simp [h.head d rfl] at hnil
  · -- behind a word stands a blank or nothing
    cases rest with
    | nil => rfl
    | cons d more => simp [hbegin d rfl] at hnil
  · rw [hnil, List.append_nil] at hsplit
    rw [hcore, hsplit] at h
    exact h.eq_nil_of_allBlank hgap
  · rw [hcore, hsplit, List.getLast?_append, List.getLast?_append, Option.mem_def.1 hd]
    rfl

/-- **Every content that is not blank** falls into pieces. -/
theorem exists_tagPieces {content : List Char} (h : allBlank content = false) :
    ∃ p : TagPieces, p.text = content := by
  obtain ⟨leading, core, trailing, hleading, htrailing, rfl, hhead, hlast, hnil⟩ :=
    exists_blanks content
  have hne : core ≠ [] := by
    rintro rfl
    rw [hnil rfl, List.append_nil, List.append_nil, hleading] at h
    cases h
  obtain ⟨word, gap, parts, rfl, hword, hplain, hgap, hiff, hparts⟩ :=
    exists_word_gap hne ⟨hhead, hlast⟩
  exact ⟨⟨leading, word, gap, parts, trailing, hleading, hword, hplain, hgap, hiff, hparts, htrailing⟩,
    rfl⟩

/-- Nothing is read from a blank content. -/
theorem TagWords.read?_of_allBlank {content : List Char} (h : allBlank content) (start : Nat) :
    read? content start = .ok none := by
  have htrim : trim content = [] := by
    have hstart : trimStart (content ++ []) = [] := trimStart_append h nofun
    rw [List.append_nil] at hstart
    rw [trim, hstart]
    rfl
  rw [read?, htrim]
  rfl

/-- A content is blank, and nothing is read from it, or it falls into pieces. -/
theorem TagWords.read?_cases (content : List Char) (start : Nat) :
    (allBlank content ∧ read? content start = .ok none) ∨ ∃ p : TagPieces, p.text = content := by
  cases hblank : allBlank content with
  | true => exact .inl ⟨rfl, read?_of_allBlank hblank start⟩
  | false => exact .inr (exists_tagPieces hblank)

/-- What is read comes from pieces whose word is a name. -/
theorem TagWords.exists_pieces {content : List Char} {start : Nat} {words : TagWords}
    (h : read? content start = .ok (some words)) : ∃ p : TagPieces, p.text = content ∧
      (∀ d ∈ p.word, isNameChar d) ∧ words = ⟨p.wordSpan start, p.partsSpan start⟩ := by
  rcases read?_cases content start with ⟨-, hread⟩ | ⟨p, rfl⟩
  · rw [hread] at h
    cases h
  · rw [p.read?_text] at h
    split at h
    · next hname =>
      cases h
      exact ⟨p, rfl, List.all_eq_true.1 hname, rfl⟩
    · cases h

/-- **The name of a tag is split off exactly.** A content is blank just if nothing is read from it.
Otherwise it falls into pieces: there is an error just if its first word has a character that no name
has, and the error is at that word; and a name and parts are read just if there is no such character.
The name is the word, which is not empty. The parts are what follows it without the blanks on either
side, and directly behind the name and empty if nothing does. Both stand at their places, and the name,
the blanks behind it and the parts are what is left of the content without the blanks at its ends. -/
theorem TagWords.splits_exactly (content : List Char) (start : Nat) :
    (read? content start = .ok none ↔ allBlank content) ∧
    (∀ e, read? content start = .error e ↔ ∃ p : TagPieces, p.text = content ∧
      (¬ ∀ d ∈ p.word, isNameChar d) ∧ e = .here .invalidTagName (p.wordSpan start)) ∧
    (∀ words, read? content start = .ok (some words) ↔ ∃ p : TagPieces, p.text = content ∧
      (∀ d ∈ p.word, isNameChar d) ∧ words = ⟨p.wordSpan start, p.partsSpan start⟩) ∧
    ∀ p : TagPieces, 0 < (p.wordSpan start).length ∧
      (p.parts = [] → p.partsSpan start = ⟨(p.wordSpan start).stop, 0⟩) ∧
      trim p.text = p.word ++ (p.gap ++ p.parts) ∧
      ∀ source, (⟨start, p.text⟩ : Cursor).Reads source →
        (p.wordSpan start).slice source = p.word ∧ (p.partsSpan start).slice source = p.parts := by
  refine ⟨⟨fun h => ?_, fun h => read?_of_allBlank h start⟩, fun e => ⟨fun h => ?_, ?_⟩,
    fun words => ⟨exists_pieces, ?_⟩, fun p => ⟨List.length_pos_iff.2 p.word_ne_nil,
      p.partsSpan_of_nil start, p.trim_text, fun _ => p.slice_of_reads start⟩⟩
  · rcases read?_cases content start with ⟨hblank, -⟩ | ⟨p, rfl⟩
    · exact hblank
    · rw [p.read?_text] at h
      split at h <;> cases h
  · rcases read?_cases content start with ⟨-, hread⟩ | ⟨p, rfl⟩
    · rw [hread] at h
      cases h
    · rw [p.read?_text] at h
      split at h
      · cases h
      · next hname =>
        cases h
        exact ⟨p, rfl, fun hall => hname (List.all_eq_true.2 hall), rfl⟩
  · rintro ⟨p, rfl, hname, rfl⟩
    rw [p.read?_text, if_neg fun hall => hname (List.all_eq_true.1 hall)]
  · rintro ⟨p, rfl, hname, rfl⟩
    rw [p.read?_text, if_pos (List.all_eq_true.2 hname)]

/-- A tag between blanks of several kinds, with nothing behind its name. -/
theorem TagWords.splits_exactly_end :
    let content := "\t endif \u2003".toList
    let source := "\x7b%\t endif \u2003%\x7d".toList
    ∃ p : TagPieces, p.text = content ∧ p.parts = [] ∧ (⟨2, content⟩ : Cursor).Reads source ∧
      p.partsSpan 2 = ⟨(p.wordSpan 2).stop, 0⟩ ∧
      (p.wordSpan 2).slice source = "endif".toList ∧
      read? content 2 = .ok (some ⟨⟨4, 5⟩, ⟨9, 0⟩⟩) := by
  intro content source
  have hword : ∀ d ∈ "endif".toList, isBlank d = false := fun d hd =>
    Bool.eq_false_iff.2 (List.any_eq_false.1 (rfl : "endif".toList.any isBlank = false) d hd)
  let p : TagPieces := {
    leading := ['\t', ' '], word := "endif".toList, gap := [], parts := [], trailing := [' ', '\u2003']
    leading_blank := by decide, word_ne_nil := by decide, word_not_blank := hword
    gap_blank := by decide, gap_eq_nil_iff := by decide, parts_trimmed := trimmed_nil
    trailing_blank := by decide }
  have hreads : (⟨2, content⟩ : Cursor).Reads source := ⟨by decide, "%\x7d".toList, rfl⟩
  obtain ⟨-, -, hread, hpieces⟩ := splits_exactly content 2
  obtain ⟨-, hparts, -, hslice⟩ := hpieces p
  exact ⟨p, rfl, rfl, hreads, hparts rfl, (hslice source hreads).1,
    (hread _).2 ⟨p, rfl, List.all_eq_true.1 rfl, rfl⟩⟩

end Galley
