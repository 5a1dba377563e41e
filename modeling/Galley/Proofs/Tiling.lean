import Galley.Proofs.Headers
import Galley.Proofs.Operands

/-!
# The words of tags cover their parts

The parts of a tag are read word by word. Each step takes a word with at least one character and the
blanks behind it, and if a word comes next there are such blanks. So taking steps comes to an end, and
if it does so without an error the words cover all of the parts that is not blank.

* `Cursor.Step.EndsWith`, `Cursor.Step.endsWith_readAll`: taking steps as long as there are any.
* `Cursor.Step.Parts`: **a step** takes a word and the blanks behind it.
* `Cursor.Tiles`, `Cursor.Step.EndsWith.tiles`: **all steps.**
* `Span.Cover`, `Cursor.Tiles.cover`: words that cover their text.
* `Text.words`, `Cursor.Tiles.map_slice`: words that are those of their text.
* `ConditionWord.cover_all`, `CallWord.cover_all`, `LoadWord.cover_all`: the three readers.
* `words_cover`: **the words of conditions, of calls and of `load` tags.**
-/

namespace Galley

open Cursor Text

variable {α : Type} {source : List Char} {parts : Span} {c next : Cursor} {spans : List Span}

/-! ## Taking steps -/

namespace Cursor

/-- Some text is read by every cursor. -/
theorem exists_reads (c : Cursor) : ∃ source, c.Reads source := by
  have hlength : (List.replicate c.start ' ').length = c.start := List.length_replicate
  refine ⟨List.replicate c.start ' ' ++ c.rest, ?_, [], ?_⟩
  · rw [List.length_append, hlength]
    exact Nat.le_add_right _ _
  · rw [List.append_nil, List.drop_left' hlength]

/-- With something to read, the cursor at the start of parts reads the text. -/
theorem reads_ofSpan_of_ne (h : (ofSpan source parts).rest ≠ []) :
    (ofSpan source parts).Reads source := by
  refine ⟨Nat.le_of_lt (Nat.lt_of_not_le fun hle => h ?_), _, List.take_append_drop _ _⟩
  change source.length ≤ parts.start at hle
  change (source.drop parts.start).take parts.length = []
  rw [List.drop_eq_nil_of_le hle, List.take_nil]

theorem Reads.behind {text : List Char} (h : c.Reads source) (hb : c.Behind text next) :
    next.Reads source := by
  obtain ⟨hrest, hstart⟩ := hb
  have hlength := congrArg List.length hrest
  rw [List.length_append] at hlength
  refine h.follows ⟨text.length, by omega, ?_⟩
  rw [Cursor.advance, hrest, List.drop_left, ← hstart]

variable {step : Step α} {P : α → Prop} {w : Words α}

/-- **Taking steps** from a cursor on, as long as there are any and none of them fails, ends with these
words and perhaps an error. -/
inductive Step.EndsWith (step : Step α) : Cursor → Words α → Prop
  | ended {c : Cursor} (h : step c = none) : EndsWith step c ⟨[], none⟩
  | failed {c next : Cursor} {e : TemplateError} (h : step c = some (.error e, next)) :
    EndsWith step c ⟨[], some e⟩
  | read {c next : Cursor} {word : α} {later : Words α} (h : step c = some (.ok word, next))
    (hlater : EndsWith step next later) : EndsWith step c ⟨word :: later.words, later.error⟩

theorem Step.Sound.endsWith_readUpTo (hs : step.Sound source P) {limit : Nat} (h : c.Reads source)
    (hlimit : c.rest.length ≤ limit) : step.EndsWith c (Cursor.readUpTo step limit c) := by
  induction limit generalizing c with
  | zero => exact .ended (hs.ended c (List.length_eq_zero_iff.1 (Nat.le_zero.1 hlimit)))
  | succ limit ih =>
    unfold Cursor.readUpTo
    split
    · next hnone => exact .ended hnone
    · next he => exact .failed he
    · next word next hw =>
      have hpassed := (hs.each c _ next h hw).2 word rfl
      have hshorter := hpassed.shorter
      exact .read hw (ih (h.passed hpassed) (by omega))

/-- **The words that are read** are all that taking steps ends with, from whatever cursor. -/
theorem Step.endsWith_readAll {P : List Char → α → Prop}
    (hs : ∀ source, step.Sound source (P source)) (c : Cursor) :
    step.EndsWith c (Cursor.readAll step c) := by
  obtain ⟨source, hreads⟩ := c.exists_reads
  exact (hs source).endsWith_readUpTo hreads (Nat.le_refl _)

/-- What every word that a step takes is, all words are. -/
theorem Step.EndsWith.forall_mem {Q : α → Prop} (h : step.EndsWith c w)
    (hstep : ∀ c word next, step c = some (.ok word, next) → Q word) : ∀ word ∈ w.words, Q word := by
  induction h with
  | ended | failed => exact nofun
  | read hw _ ih => exact List.forall_mem_cons.2 ⟨hstep _ _ _ hw, ih⟩

/-! ## Words that cover a text -/

/-- A step **takes a word and the blanks behind it** from a text that does not begin with a blank, as
long as something is left. -/
structure Step.Parts (step : Step α) (place : α → Span) : Prop where
  each : ∀ c word next, (∀ d ∈ c.rest.head?, isBlank d = false) →
    step c = some (.ok word, next) → ∃ text blanks, text ≠ [] ∧
      place word = c.ahead text.length ∧ c.Parted text blanks next
  ended : ∀ c, step c = none → c.rest = []

/-- Words with blanks between them that are all that is left to read. -/
inductive Tiles : Cursor → List Span → Prop
  | ended {c : Cursor} (h : c.rest = []) : Tiles c []
  | word {c next : Cursor} {text blanks : List Char} {later : List Span} (hne : text ≠ [])
    (hparted : c.Parted text blanks next) (hlater : Tiles next later) :
    Tiles c (c.ahead text.length :: later)

/-- **Steps that take a word each** leave nothing but blanks between their words. -/
theorem Step.EndsWith.tiles {place : α → Span} (h : step.EndsWith c w) (hs : step.Parts place)
    (hhead : ∀ d ∈ c.rest.head?, isBlank d = false) (herror : w.error = none) :
    Tiles c (w.words.map place) := by
  induction h with
  | ended hnone => exact .ended (hs.ended _ hnone)
  | failed => cases herror
  | read hw hlater ih =>
    obtain ⟨text, blanks, hne, hplace, hparted⟩ := hs.each _ _ _ hhead hw
    rw [List.map_cons, hplace]
    exact .word hne hparted (ih hparted.head herror)

/-- Each word was taken by a step from a place without a blank. -/
theorem Step.EndsWith.exists_step {place : α → Span} (h : step.EndsWith c w) (hs : step.Parts place)
    (hhead : ∀ d ∈ c.rest.head?, isBlank d = false) (hreads : c.Reads source) :
    ∀ word ∈ w.words, ∃ before next, before.Reads source ∧
      (∀ d ∈ before.rest.head?, isBlank d = false) ∧ step before = some (.ok word, next) := by
  induction h with
  | ended | failed => exact nofun
  | read hw hlater ih =>
    obtain ⟨text, blanks, -, -, hparted⟩ := hs.each _ _ _ hhead hw
    have hnext := hreads.behind hparted.behind
    exact List.forall_mem_cons.2 ⟨⟨_, _, hreads, hhead, hw⟩, ih hparted.head hnext⟩

theorem Tiles.inside (h : Tiles c spans) : ∀ s ∈ spans,
    0 < s.length ∧ c.start ≤ s.start ∧ s.stop ≤ c.start + c.rest.length := by
  induction h with
  | ended => exact nofun
  | word hne hparted hlater ih =>
    obtain ⟨hrest, hstart⟩ := hparted.behind
    have hlength := congrArg List.length hrest
    simp only [List.length_append] at hlength hstart
    refine List.forall_mem_cons.2 ⟨⟨List.length_pos_iff.2 hne, Nat.le_refl _, ?_⟩, fun s hs => ?_⟩
    · simp only [ahead, Span.stop]
      omega
    · obtain ⟨hpos, hle, hstop⟩ := ih s hs
      exact ⟨hpos, by omega, by omega⟩

theorem Tiles.ordered (h : Tiles c spans) : spans.Pairwise fun s t => s.stop ≤ t.start := by
  induction h with
  | ended => exact .nil
  | word hne hparted hlater ih =>
    have hstart := hparted.behind.2
    rw [List.length_append] at hstart
    refine List.pairwise_cons.2 ⟨fun t ht => ?_, ih⟩
    have hle := (hlater.inside t ht).2.1
    simp only [ahead, Span.stop]
    omega

/-- A character outside of the words is one of the blanks behind them. -/
theorem Tiles.blank (h : Tiles c spans) {i : Nat} {d : Char} (hd : c.rest[i]? = some d)
    (hout : ∀ s ∈ spans, ¬ (s.start ≤ c.start + i ∧ c.start + i < s.stop)) : isBlank d := by
  induction h generalizing i with
  | ended hnil =>
    rw [hnil] at hd
    cases hd
  | @word c next text blanks later hne hparted hlater ih =>
    obtain ⟨hrest, hstart⟩ := hparted.behind
    obtain ⟨hword, hothers⟩ := List.forall_mem_cons.1 hout
    simp only [ahead, Span.stop] at hword
    rw [List.length_append] at hstart
    rw [hrest, List.append_assoc, List.getElem?_append_right (by omega)] at hd
    by_cases hi : i - text.length < blanks.length
    · rw [List.getElem?_append_left hi] at hd
      exact List.all_eq_true.1 hparted.blank d (List.mem_of_getElem? hd)
    · rw [List.getElem?_append_right (by omega)] at hd
      refine ih hd fun s hs hin => hothers s hs ?_
      omega

end Cursor

/-- A place **holds** an offset. -/
def Span.Holds (s : Span) (offset : Nat) : Prop := s.start ≤ offset ∧ offset < s.stop

/-- Places **cover** parts of a text: they lie there in increasing order without overlap, none of them
is empty, and all that is outside of them is blank. -/
structure Span.Cover (source : List Char) (parts : Span) (spans : List Span) : Prop where
  inside : ∀ s ∈ spans, s.Inside parts
  ordered : spans.Pairwise fun s t => s.stop ≤ t.start
  nonempty : ∀ s ∈ spans, 0 < s.length
  blank : ∀ i d, parts.Holds i → source[i]? = some d → (∀ s ∈ spans, ¬ s.Holds i) → isBlank d

/-- **Words with blanks between them** cover the parts that they are read from. -/
theorem Cursor.Tiles.cover (h : Tiles (ofSpan source parts) spans) :
    Span.Cover source parts spans := by
  have hlength : (ofSpan source parts).rest.length ≤ parts.length := List.length_take_le _ _
  refine ⟨fun s hs => ?_, h.ordered, fun s hs => (h.inside s hs).1, fun i d hi hd hout => ?_⟩
  · obtain ⟨-, hstart, hstop⟩ := h.inside s hs
    exact ⟨hstart, Nat.le_trans hstop (Nat.add_le_add_left hlength _)⟩
  · obtain ⟨hlow, hhigh⟩ := hi
    have hoffset : parts.start + (i - parts.start) = i := by omega
    have hread : (ofSpan source parts).rest[i - parts.start]? = some d := by
      change ((source.drop parts.start).take parts.length)[i - parts.start]? = some d
      unfold Span.stop at hhigh
      rw [List.getElem?_take_of_lt (by omega), List.getElem?_drop, hoffset, hd]
    refine h.blank hread fun s hs hin => hout s hs ?_
    change s.start ≤ parts.start + (i - parts.start) ∧ parts.start + (i - parts.start) < s.stop at hin
    rwa [hoffset] at hin

/-! ## Words of a text -/

/-- **The words of a text** with blanks between them. -/
def Text.words (text : List Char) : List (List Char) := (text.splitOnP isBlank).filter (· ≠ [])

theorem Text.words_blanks {blanks rest : List Char} (h : allBlank blanks) :
    words (blanks ++ rest) = words rest := by
  induction blanks with
  | nil => rfl
  | cons d blanks ih =>
    obtain ⟨hd, hblanks⟩ := List.forall_mem_cons.1 (List.all_eq_true.1 h)
    have hsplit := List.splitOnP_append_cons [] (blanks ++ rest) hd
    rw [List.cons_append, words, ← List.nil_append (d :: _), hsplit, List.filter_append,
      List.splitOnP_nil]
    exact ih (List.all_eq_true.2 hblanks)

theorem Text.words_cons {text blanks rest : List Char} (hne : text ≠ [])
    (htext : ∀ d ∈ text, isBlank d = false) (hblanks : allBlank blanks)
    (hgap : rest ≠ [] → blanks ≠ []) : words (text ++ blanks ++ rest) = text :: words rest := by
  have hword : (text.splitOnP isBlank).filter (· ≠ []) = [text] := by
    rw [List.splitOnP_eq_singleton htext, List.filter_cons_of_pos (by simpa using hne),
      List.filter_nil]
  cases blanks with
  | nil =>
    obtain rfl : rest = [] := by
      by_contra hrest
      exact hgap hrest rfl
    rw [List.append_nil, List.append_nil, words, hword]
    rfl
  | cons d blanks =>
    obtain ⟨hd, hothers⟩ := List.forall_mem_cons.1 (List.all_eq_true.1 hblanks)
    rw [List.append_assoc, List.cons_append, words, List.splitOnP_append_cons _ _ hd,
      List.filter_append, hword]
    exact congrArg (text :: ·) (words_blanks (List.all_eq_true.2 hothers))

/-- **Words without blanks in them** are those of the text. -/
theorem Cursor.Tiles.map_slice (h : Tiles c spans) (hreads : c.Reads source)
    (hword : ∀ s ∈ spans, ∀ d ∈ s.slice source, isBlank d = false) :
    spans.map (·.slice source) = words c.rest := by
  induction h with
  | ended hnil =>
    rw [hnil, words, List.splitOnP_nil]
    rfl
  | @word c next text blanks later hne hparted hlater ih =>
    obtain ⟨hfirst, hothers⟩ := List.forall_mem_cons.1 hword
    have hslice := hparted.behind.slice_ahead hreads
    rw [hslice] at hfirst
    rw [List.map_cons, hslice, ih (hreads.behind hparted.behind) hothers, hparted.behind.1,
      words_cons hne hfirst hparted.blank hparted.ne_nil]

/-! ## The three readers -/

/-- Where no blank stands, a word begins. -/
theorem Cursor.exists_word (hne : c.rest ≠ []) (hhead : ∀ d ∈ c.rest.head?, isBlank d = false) :
    ∃ text blanks, text ≠ [] ∧ c.ahead (wordLength c.rest) = c.ahead text.length ∧
      c.Parted text blanks
        (c.advance (wordLength c.rest + blankLength (c.rest.drop (wordLength c.rest)))) := by
  obtain ⟨blanks, hparted⟩ := c.parted_word
  have hlength : (c.rest.take (wordLength c.rest)).length = wordLength c.rest := by
    rw [List.length_take, Nat.min_eq_left (wordLength_le c.rest)]
  refine ⟨_, blanks, List.length_pos_iff.1 ?_, by rw [hlength], hparted⟩
  rw [hlength]
  exact wordLength_pos hne hhead

theorem ConditionWord.parts_step : ConditionWord.step.Parts ConditionWord.span := by
  refine ⟨fun c word next hhead hstep => ?_, fun c hstep => ?_⟩
  · obtain ⟨source, hreads⟩ := c.exists_reads
    unfold step at hstep
    dsimp only at hstep
    split at hstep
    · cases hstep
    · next hempty =>
      have hne : c.rest ≠ [] := by simpa using hempty
      split at hstep
      · -- a comparison sign
        cases hstep
        exact exists_word hne hhead
      · split at hstep
        · cases hstep
        · next value behind hvalue =>
          split at hstep
          · cases hstep
          · next hnext =>
            cases hstep
            obtain ⟨text, blanks, htext, hspan, -, hparted⟩ :=
              parted_of_operand hreads hne hhead hvalue hnext
            exact ⟨text, blanks, htext, hspan, hparted⟩
  · unfold step at hstep
    dsimp only at hstep
    split at hstep
    · next hempty => exact List.isEmpty_iff.1 hempty
    · split at hstep
      · cases hstep
      · split at hstep
        · cases hstep
        · split at hstep <;> cases hstep

namespace LoadWord

/-- The next word, whose characters are not blank. -/
theorem of_step {span : Span} (hstep : step c = some (.ok span, next)) :
    c.rest ≠ [] ∧ span = c.ahead (wordLength c.rest) ∧
      next = c.advance (wordLength c.rest + blankLength (c.rest.drop (wordLength c.rest))) := by
  unfold step at hstep
  split at hstep
  · cases hstep
  · next hempty =>
    cases hstep
    exact ⟨by simpa using hempty, rfl, rfl⟩

theorem parts_step : step.Parts id := by
  refine ⟨fun c span next hhead hstep => ?_, fun c hstep => ?_⟩
  · obtain ⟨hne, rfl, rfl⟩ := of_step hstep
    exact exists_word hne hhead
  · unfold step at hstep
    split at hstep
    · next hempty => exact List.isEmpty_iff.1 hempty
    · cases hstep

/-- None of the words can be wrong. -/
theorem error_of_endsWith {w : Words Span} (h : step.EndsWith c w) : w.error = none := by
  induction h with
  | ended => rfl
  | failed he =>
    unfold step at he
    split at he <;> cases he
  | read _ _ ih => exact ih

end LoadWord

namespace CallWord

/-- The name that stands in front of a value: characters of names directly before an equals sign, which
stands directly before the value. -/
structure NamedBy (w : CallWord) (name : Span) (source : List Char) : Prop where
  within : name.Within source
  nonempty : 0 < name.length
  chars : ∀ d ∈ name.slice source, isNameChar d
  sign : source[name.stop]? = some '='
  value : w.operand.span.start = name.stop + 1

/-- The pieces of an argument: its name with the sign behind it, and its value. -/
def pieces (w : CallWord) : List Span :=
  (w.keyword.map fun name => ⟨name.start, name.length + 1⟩).toList ++ [w.operand.span]

/-- The name in front of a value, with its sign, is passed over. -/
theorem behind_of_readKeyword {name? : Option Span} {behind : Cursor} (hne : c.rest ≠ [])
    (hhead : ∀ d ∈ c.rest.head?, isBlank d = false) (h : readKeyword c = .ok (name?, behind)) :
    behind.rest ≠ [] ∧ (∀ d ∈ behind.rest.head?, isBlank d = false) ∧
      (name? = none ∧ behind = c ∨ ∃ name, name ≠ [] ∧ (∀ d ∈ name, isNameChar d) ∧
        name? = some (c.ahead name.length) ∧ c.Behind (name ++ ['=']) behind) := by
  unfold readKeyword at h
  split at h
  · cases h
    exact ⟨hne, hhead, .inl ⟨rfl, rfl⟩⟩
  · next n hn =>
    dsimp only at h
    split at h
    · cases h
    · next hvalue =>
      cases h
      obtain ⟨name, rest, htext, rfl, hname, hchars⟩ := keywordLength?_spec hn
      have hbehind : c.Behind (name ++ ['=']) (c.advance (name.length + 1)) := by
        have hlength := congrArg List.length htext
        simp only [List.length_append, List.length_cons] at hlength
        have hahead := behind_advance (c := c) (n := name.length + 1) (by omega)
        rwa [htext, List.take_length_add_append] at hahead
      cases hvalue' : (c.advance (name.length + 1)).rest with
      | nil =>
        rw [hvalue'] at hvalue
        exact absurd rfl hvalue
      | cons d value =>
        rw [hvalue'] at hvalue
        refine ⟨List.cons_ne_nil _ _, fun d' hd' => ?_, .inr ⟨name, hname, hchars, rfl, hbehind⟩⟩
        cases hd'
        simpa using hvalue

/-- **An argument** with its name, if it has one, and the blanks behind it. -/
theorem parted_of_read {w : CallWord} (hreads : c.Reads source) (hne : c.rest ≠ [])
    (hhead : ∀ d ∈ c.rest.head?, isBlank d = false) (h : read c = .ok (w, next)) :
    ∃ text blanks, text ≠ [] ∧ w.span = c.ahead text.length ∧ c.Parted text blanks next ∧
      0 < w.operand.span.length ∧ ∀ name, w.keyword = some name → w.NamedBy name source := by
  unfold read at h
  obtain ⟨⟨name?, behind⟩, hkeyword, h⟩ := bind_eq_ok.1 h
  obtain ⟨⟨operand, last⟩, hoperand, h⟩ := bind_eq_ok.1 h
  obtain ⟨next', hnext, h⟩ := bind_eq_ok.1 h
  cases h
  obtain ⟨hvalue, hvalueHead, hnamed⟩ := behind_of_readKeyword hne hhead hkeyword
  rcases hnamed with ⟨rfl, rfl⟩ | ⟨name, hname, hchars, rfl, hbehind⟩
  · obtain ⟨text, blanks, htext, hspan, -, hparted⟩ :=
      parted_of_operand hreads hne hhead hoperand hnext
    refine ⟨text, blanks, htext, hspan, hparted, ?_, nofun⟩
    rw [hspan]
    exact List.length_pos_iff.2 htext
  · obtain ⟨text, blanks, htext, hspan, -, hparted⟩ :=
      parted_of_operand (hreads.behind hbehind) hvalue hvalueHead hoperand hnext
    have hstart : behind.start = c.start + name.length + 1 := by
      rw [hbehind.2, List.length_append, List.length_singleton, Nat.add_assoc]
    have hrest : c.rest = name ++ '=' :: behind.rest := by
      rw [hbehind.1, List.append_assoc, List.singleton_append]
    have hlength : name.length ≤ c.rest.length := by
      rw [hrest, List.length_append]
      exact Nat.le_add_right _ _
    refine ⟨name ++ ['='] ++ text, blanks, by simp, ?_, ?_, ?_, fun name' hname' => ?_⟩
    · simp only [span, hspan, Span.through, ahead, Span.stop, List.length_append,
        List.length_singleton, Span.mk.injEq, true_and]
      omega
    · refine ⟨?_, hparted.blank, hparted.ne_nil, hparted.head⟩
      have hboth := hbehind.trans hparted.behind
      rwa [← List.append_assoc] at hboth
    · rw [hspan]
      exact List.length_pos_iff.2 htext
    · cases hname'
      refine ⟨hreads.within hlength, List.length_pos_iff.2 hname, ?_, ?_, ?_⟩
      · rw [hbehind.slice_ahead hreads]
        exact hchars
      · obtain ⟨later, hsource⟩ := hreads.2
        change source[c.start + name.length]? = some '='
        rw [← List.getElem?_drop, ← hsource, hrest]
        simp
      · rw [hspan]
        exact hstart

/-- The pieces of an argument are those of its place. -/
theorem pieces_spec {w : CallWord} (hvalue : 0 < w.operand.span.length)
    (hnamed : ∀ name, w.keyword = some name → w.NamedBy name source) :
    (∀ p ∈ w.pieces, p.Inside w.span ∧ 0 < p.length) ∧
      (w.pieces.Pairwise fun p q => p.stop ≤ q.start) ∧
      ∀ i, w.span.Holds i → ∃ p ∈ w.pieces, p.Holds i := by
  obtain ⟨operand, keyword⟩ := w
  cases keyword with
  | none =>
    refine ⟨List.forall_mem_singleton.2 ⟨⟨Nat.le_refl _, Nat.le_refl _⟩, hvalue⟩,
      List.pairwise_singleton _ _, fun i hi => ⟨operand.span, List.mem_singleton.2 rfl, hi⟩⟩
  | some name =>
    obtain ⟨-, -, -, -, hstart⟩ := hnamed name rfl
    simp only [Span.stop] at hstart hvalue
    have hpieces : pieces ⟨operand, some name⟩ = [⟨name.start, name.length + 1⟩, operand.span] := rfl
    have hspan : span ⟨operand, some name⟩ = ⟨name.start, operand.span.stop - name.start⟩ := rfl
    rw [hpieces, hspan]
    refine ⟨List.forall_mem_cons.2 ⟨⟨⟨Nat.le_refl _, ?_⟩, Nat.succ_pos _⟩,
      List.forall_mem_singleton.2 ⟨⟨?_, ?_⟩, hvalue⟩⟩, List.pairwise_pair.2 ?_, fun i hi => ?_⟩
    · simp only [Span.stop]
      omega
    · simp only
      omega
    · simp only [Span.stop]
      omega
    · simp only [Span.stop]
      omega
    · obtain ⟨hlow, hhigh⟩ := hi
      simp only [Span.stop] at hlow hhigh
      by_cases hname : i < operand.span.start
      · refine ⟨_, List.mem_cons_self, hlow, ?_⟩
        simp only [Span.stop]
        omega
      · refine ⟨_, List.mem_cons_of_mem _ (List.mem_singleton.2 rfl), Nat.le_of_not_lt hname, ?_⟩
        simp only [Span.stop]
        omega

theorem cover_pieces {words : List CallWord} (h : Span.Cover source parts (words.map span))
    (hvalue : ∀ w ∈ words, 0 < w.operand.span.length)
    (hnamed : ∀ w ∈ words, ∀ name, w.keyword = some name → w.NamedBy name source) :
    Span.Cover source parts (words.flatMap pieces) := by
  have hpieces := fun w hw => pieces_spec (hvalue w hw) (hnamed w hw)
  refine ⟨fun p hp => ?_, List.pairwise_flatMap.2 ⟨fun w hw => (hpieces w hw).2.1, ?_⟩,
    fun p hp => ?_, fun i d hi hd hout => h.blank i d hi hd fun s hs hin => ?_⟩
  · obtain ⟨w, hw, hp⟩ := List.mem_flatMap.1 hp
    exact ((hpieces w hw).1 p hp).1.trans (h.inside _ (List.mem_map_of_mem hw))
  · refine (List.pairwise_map.1 h.ordered).imp_of_mem fun {v w} hv hw hle p hp q hq => ?_
    have hstop := ((hpieces v hv).1 p hp).1.2
    have hstart := ((hpieces w hw).1 q hq).1.1
    omega
  · obtain ⟨w, hw, hp⟩ := List.mem_flatMap.1 hp
    exact ((hpieces w hw).1 p hp).2
  · obtain ⟨w, hw, rfl⟩ := List.mem_map.1 hs
    obtain ⟨p, hp, hholds⟩ := (hpieces w hw).2.2 i hin
    exact hout p (List.mem_flatMap.2 ⟨w, hw, hp⟩) hholds

theorem parts_step : step.Parts span := by
  refine ⟨fun c word next hhead hstep => ?_, fun c hstep => ?_⟩
  · obtain ⟨source, hreads⟩ := c.exists_reads
    obtain ⟨hne, hread⟩ := Step.read_of_ofRead hstep
    obtain ⟨text, blanks, htext, hspan, hparted, -⟩ := parted_of_read hreads hne hhead hread
    exact ⟨text, blanks, htext, hspan, hparted⟩
  · unfold step Step.ofRead at hstep
    split at hstep
    · next hempty => exact List.isEmpty_iff.1 hempty
    · split at hstep <;> cases hstep

end CallWord

/-! ## All three -/

/-- Words take characters, so something is left where there are any. -/
theorem Cursor.Tiles.rest_ne_nil (h : Tiles c spans) (hne : spans ≠ []) : c.rest ≠ [] := by
  cases h with
  | ended => exact absurd rfl hne
  | word htext hparted =>
    rw [hparted.behind.1]
    simp [htext]

theorem ConditionWord.endsWith_readAll (c : Cursor) : step.EndsWith c (readAll step c) :=
  Step.endsWith_readAll (fun source => @sound_step source) c

theorem CallWord.endsWith_readAll (c : Cursor) : step.EndsWith c (readAll step c) :=
  Step.endsWith_readAll (fun source => @sound_step source) c

theorem LoadWord.endsWith_readAll (c : Cursor) : step.EndsWith c (readAll step c) :=
  Step.endsWith_readAll (fun source => @sound_step source) c

/-- **The words of a condition** cover its parts. -/
theorem ConditionWord.cover_all (h : Trimmed (parts.slice source))
    (herror : (all source parts).error = none) :
    Span.Cover source parts ((all source parts).words.map span) :=
  ((endsWith_readAll _).tiles parts_step h.head herror).cover

/-- **The arguments of a call** cover its parts with their names, which stand in front of their
values. -/
theorem CallWord.cover_all {words : List CallWord} (h : Trimmed (parts.slice source))
    (hwords : all source parts = .ok words) : Span.Cover source parts (words.flatMap pieces) ∧
      ∀ w ∈ words, ∀ name, w.keyword = some name → w.NamedBy name source := by
  have hends := endsWith_readAll (ofSpan source parts)
  rw [Words.eq_of_toExcept hwords] at hends
  have htiles := hends.tiles parts_step h.head rfl
  have hread : ∀ w ∈ words, 0 < w.operand.span.length ∧
      ∀ name, w.keyword = some name → w.NamedBy name source := by
    intro w hw
    have hrest := htiles.rest_ne_nil (List.ne_nil_of_mem (List.mem_map_of_mem hw))
    obtain ⟨before, next, hreads, hhead, hstep⟩ :=
      hends.exists_step parts_step h.head (reads_ofSpan_of_ne hrest) w hw
    obtain ⟨hne, hread⟩ := Step.read_of_ofRead hstep
    obtain ⟨-, -, -, -, -, hboth⟩ := parted_of_read hreads hne hhead hread
    exact hboth
  exact ⟨cover_pieces htiles.cover (fun w hw => (hread w hw).1) fun w hw => (hread w hw).2,
    fun w hw => (hread w hw).2⟩

/-- **The words of a `load` tag** cover its parts, and are the words of their text. -/
theorem LoadWord.cover_all (h : Trimmed (parts.slice source)) :
    Span.Cover source parts (all source parts) ∧
      (all source parts).map (·.slice source) = Text.words (parts.slice source) := by
  have hends := endsWith_readAll (ofSpan source parts)
  have htiles := hends.tiles parts_step h.head (error_of_endsWith hends)
  rw [List.map_id] at htiles
  refine ⟨htiles.cover, ?_⟩
  by_cases hnil : (ofSpan source parts).rest = []
  · have hwords : all source parts = [] := by
      by_contra hne
      exact htiles.rest_ne_nil hne hnil
    rw [hwords, show parts.slice source = [] from hnil, Text.words, List.splitOnP_nil]
    rfl
  · have hreads := reads_ofSpan_of_ne hnil
    refine htiles.map_slice hreads fun s hs => ?_
    obtain ⟨before, next, hbefore, -, hstep⟩ := hends.exists_step parts_step h.head hreads s hs
    obtain ⟨-, rfl, -⟩ := of_step hstep
    intro d hd
    rw [hbefore.slice_ahead (wordLength_le _), wordLength, take_length_takeWhile] at hd
    simpa using of_mem_takeWhile hd

/-- **The words of tags cover their parts.** From every cursor the steps through a condition, a call or
the words of a `load` tag come to an end, with the words that are read. In parts without blanks at
their ends, the words of a condition that is read without an error cover the parts. So do the values of
a call with the names in front of them, each of which is followed directly by its sign and its value.
And so do the words of a `load` tag, for which there are no errors, and their texts are the words of the
parts. -/
theorem words_cover (source : List Char) (parts : Span) :
    ((∀ c, ConditionWord.step.EndsWith c (readAll ConditionWord.step c)) ∧
      (∀ c, CallWord.step.EndsWith c (readAll CallWord.step c)) ∧
      ∀ c, LoadWord.step.EndsWith c (readAll LoadWord.step c)) ∧
    (Trimmed (parts.slice source) →
      ((ConditionWord.all source parts).error = none →
        Span.Cover source parts ((ConditionWord.all source parts).words.map ConditionWord.span)) ∧
      (∀ words, CallWord.all source parts = .ok words →
        Span.Cover source parts (words.flatMap CallWord.pieces) ∧
          ∀ w ∈ words, ∀ name, w.keyword = some name → w.NamedBy name source) ∧
      Span.Cover source parts (LoadWord.all source parts) ∧
        (LoadWord.all source parts).map (·.slice source) = Text.words (parts.slice source)) := by
  refine ⟨⟨ConditionWord.endsWith_readAll, CallWord.endsWith_readAll, LoadWord.endsWith_readAll⟩,
    fun h => ⟨ConditionWord.cover_all h, fun words hwords => CallWord.cover_all h hwords, ?_⟩⟩
  exact LoadWord.cover_all h

/-- A condition with a blank in a literal, and arguments of which two have names. -/
theorem words_cover_literals :
    let condition := "\x7b% if a == 'b c' %\x7d".toList
    let call := "\x7b% url 'home' a=1 b='x y' %\x7d".toList
    Trimmed (Span.slice ⟨6, 10⟩ condition) ∧ Trimmed (Span.slice ⟨7, 18⟩ call) ∧
      Span.Cover condition ⟨6, 10⟩ [⟨6, 1⟩, ⟨8, 2⟩, ⟨11, 5⟩] ∧
      Span.Cover call ⟨7, 18⟩ [⟨7, 6⟩, ⟨14, 2⟩, ⟨16, 1⟩, ⟨18, 2⟩, ⟨20, 5⟩] := by
  intro condition call
  have hcondition : Trimmed (Span.slice ⟨6, 10⟩ condition) := by decide +kernel
  have hcall : Trimmed (Span.slice ⟨7, 18⟩ call) := by decide +kernel
  have herror : (ConditionWord.all condition ⟨6, 10⟩).error = none := by decide +kernel
  have hspans : (ConditionWord.all condition ⟨6, 10⟩).words.map ConditionWord.span =
    [⟨6, 1⟩, ⟨8, 2⟩, ⟨11, 5⟩] := by decide +kernel
  have hwords : CallWord.all call ⟨7, 18⟩ = .ok [⟨⟨.text, ⟨7, 6⟩⟩, none⟩,
    ⟨⟨.numeric, ⟨16, 1⟩⟩, some ⟨14, 1⟩⟩, ⟨⟨.text, ⟨20, 5⟩⟩, some ⟨18, 1⟩⟩] := by decide +kernel
  obtain ⟨hcover, -, -⟩ := (words_cover condition ⟨6, 10⟩).2 hcondition
  obtain ⟨-, hcover', -⟩ := (words_cover call ⟨7, 18⟩).2 hcall
  rw [hspans] at hcover
  exact ⟨hcondition, hcall, hcover herror, (hcover' _ hwords).1⟩

end Galley
