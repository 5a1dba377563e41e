import Galley.Proofs.Layout
import Galley.Proofs.Recovery
import Galley.Proofs.TagText

/-!
# The text of a loop header

A `for` tag is taken only if its parts are names with commas between them, the word `in`, an
expression, and perhaps the word `reversed`, with blanks between these. The four readers of a header
each take one piece of this, and what they leave behind is where the next piece begins.

Names are cut at whichever of a comma and a blank comes first. Nothing asks whether a character
stands before a comma, so a name in front of one may be empty. The last name has a character.

* `NameList`: the texts that names can be read from.
* `SeparatesNames`, `NameList.separatesNames_iff`: no comma is the first mark or stands behind
  another one just if no name is empty.
* `Cursor.Parted`: a cursor behind a text and the blanks that end it.
* `LoopReader.nameList_of_namesUpTo`, `LoopReader.parted_of_keyword`,
  `LoopReader.parted_of_iterable`, `LoopReader.rest_of_direction`: the pieces.
* `HeaderText`, `HeaderText.Spells`: the text of a header in its pieces, and what it spells.
* `Compiler.exists_headerText`: a `for` tag that is taken has such a text.
-/

namespace Galley

open Text

variable {source text blanks name first second before behind : List Char} {n : Nat}

/-! ## Lists of names -/

/-- What can be cut off as a name: no blanks, commas, quotes or bars. -/
def IsNameText (name : List Char) : Prop :=
  ∀ d ∈ name, isBlank d = false ∧ d ≠ ',' ∧ LoopReader.isForeign d = false

/-- **The text of some names:** a comma behind each but the last one, and perhaps blanks behind the
comma. Only the last name has to have a character. -/
inductive NameList : List (List Char) → List Char → Prop
  | last {name : List Char} (hname : IsNameText name) (hne : name ≠ []) : NameList [name] name
  | comma {name blanks text : List Char} {names : List (List Char)} (hname : IsNameText name)
    (hblanks : allBlank blanks) (h : NameList names text) :
    NameList (name :: names) (name ++ ',' :: (blanks ++ text))

/-- The last character of a text that is not blank. -/
def lastMark? (text : List Char) : Option Char := text.reverse.find? (!isBlank ·)

/-- **Every comma has a name before it:** it is not the first mark of the text, and the mark before
it is not a comma. -/
def SeparatesNames (text : List Char) : Prop :=
  ∀ before behind, text = before ++ ',' :: behind → ∃ d, lastMark? before = some d ∧ d ≠ ','

theorem lastMark?_append (first second : List Char) :
    lastMark? (first ++ second) = (lastMark? second).or (lastMark? first) := by
  rw [lastMark?, List.reverse_append, List.find?_append]
  rfl

theorem lastMark?_of_allBlank (h : allBlank blanks) : lastMark? blanks = none := by
  refine List.find?_eq_none.2 fun d hd => ?_
  simp [List.all_eq_true.1 h d (List.mem_reverse.1 hd)]

/-- A comma and blanks are no mark but the comma. -/
theorem lastMark?_comma (h : allBlank blanks) (before : List Char) :
    lastMark? (before ++ ',' :: blanks) = some ',' := by
  rw [lastMark?_append, show ',' :: blanks = [','] ++ blanks from rfl, lastMark?_append,
    lastMark?_of_allBlank h]
  rfl

theorem IsNameText.comma_notMem (h : IsNameText name) : ',' ∉ name := fun hmem =>
  (h ',' hmem).2.1 rfl

theorem IsNameText.lastMark? (h : IsNameText name) (hne : name ≠ []) :
    ∃ d, lastMark? name = some d ∧ d ≠ ',' := by
  obtain ⟨d, hd⟩ := List.exists_mem_of_ne_nil name hne
  cases hmark : Galley.lastMark? name with
  | none =>
    have hblank := List.find?_eq_none.1 hmark d (List.mem_reverse.2 hd)
    rw [(h d hd).1] at hblank
    exact absurd rfl hblank
  | some mark =>
    have hmem := List.mem_reverse.1 (List.mem_of_find?_eq_some hmark)
    exact ⟨mark, rfl, (h mark hmem).2.1⟩

/-- A comma behind a text without commas stands in what follows the text. -/
theorem exists_of_append_eq_comma (hfirst : ',' ∉ first)
    (h : first ++ second = before ++ ',' :: behind) :
    ∃ between, before = first ++ between ∧ second = between ++ ',' :: behind := by
  rcases List.append_eq_append_iff.1 h with ⟨between, hbefore, hsecond⟩ | ⟨between, hbefore, hsecond⟩
  · exact ⟨between, hbefore, hsecond⟩
  · cases between with
    | nil => exact ⟨[], by simpa using hbefore.symm, by simpa using hsecond.symm⟩
    | cons d between =>
      obtain ⟨rfl, -⟩ := List.cons.inj hsecond
      exact absurd (by rw [hbefore]; simp) hfirst

/-- What separates a first name from the names behind its comma. -/
theorem separatesNames_comma (hname : IsNameText name) (hblanks : allBlank blanks) :
    SeparatesNames (name ++ ',' :: (blanks ++ text)) ↔ name ≠ [] ∧ SeparatesNames text := by
  constructor
  · intro h
    refine ⟨fun hnil => ?_, fun before behind htext => ?_⟩
    · -- nothing stands before the first comma
      subst hnil
      obtain ⟨d, hd, -⟩ := h [] (blanks ++ text) rfl
      cases hd
    · obtain ⟨d, hd, hcomma⟩ := h (name ++ ',' :: blanks ++ before) behind (by simp [htext])
      rw [lastMark?_append, lastMark?_comma hblanks] at hd
      cases hmark : lastMark? before with
      | none =>
        rw [hmark] at hd
        exact absurd (Option.some.inj hd).symm hcomma
      | some mark =>
        rw [hmark] at hd
        obtain rfl : mark = d := Option.some.inj hd
        exact ⟨mark, rfl, hcomma⟩
  · rintro ⟨hne, h⟩ before behind htext
    obtain ⟨between, rfl, hbetween⟩ := exists_of_append_eq_comma hname.comma_notMem htext
    cases between with
    | nil =>
      rw [List.append_nil]
      exact hname.lastMark? hne
    | cons d between =>
      obtain ⟨rfl, hlater⟩ := List.cons.inj hbetween
      obtain ⟨later, rfl, hsplit⟩ :=
        exists_of_append_eq_comma (not_mem_of_allBlank hblanks rfl) hlater
      obtain ⟨mark, hmark, hcomma⟩ := h later behind hsplit
      refine ⟨mark, ?_, hcomma⟩
      rw [← List.cons_append, ← List.append_assoc, lastMark?_append, hmark]
      rfl

/-- **Every comma has a name before it just if no name is empty.** -/
theorem NameList.separatesNames_iff {names : List (List Char)} (h : NameList names text) :
    SeparatesNames text ↔ [] ∉ names := by
  induction h with
  | last hname hne =>
    refine iff_of_true (fun before behind htext => ?_) (by simpa using hne.symm)
    subst htext
    exact absurd (by simp) hname.comma_notMem
  | comma hname hblanks _ ih =>
    rw [separatesNames_comma hname hblanks, ih, List.mem_cons, not_or, ne_comm]

/-! ## Pieces and blanks -/

theorem wordLength_drop_wordLength (text : List Char) :
    wordLength (text.drop (wordLength text)) = 0 := by
  rw [wordLength, wordLength, drop_length_takeWhile]
  have hnot := List.head?_dropWhile_not (fun d => !isBlank d) text
  cases hrest : text.dropWhile (fun d => !isBlank d) with
  | nil => rfl
  | cons d rest =>
    rw [hrest] at hnot
    rw [List.takeWhile_cons_of_neg (by simpa using hnot)]
    rfl

/-- Where no blank stands a word begins. -/
theorem wordLength_pos (hne : text ≠ []) (hhead : ∀ d ∈ text.head?, isBlank d = false) :
    0 < wordLength text := by
  cases text with
  | nil => exact absurd rfl hne
  | cons d rest => simp [wordLength, hhead d rfl]

namespace Cursor

variable {c next : Cursor}

/-- A cursor stands behind a text and the blanks that **part** it from what follows. If something
follows there are such blanks, and they are all that stand there. -/
structure Parted (c : Cursor) (text blanks : List Char) (next : Cursor) : Prop where
  behind : c.Behind (text ++ blanks) next
  blank : allBlank blanks
  ne_nil : next.rest ≠ [] → blanks ≠ []
  head : ∀ d ∈ next.rest.head?, isBlank d = false

theorem head?_advance_blanks (c : Cursor) :
    ∀ d ∈ (c.advance (blankLength c.rest)).rest.head?, isBlank d = false := by
  intro d hd
  rw [advance, drop_blankLength] at hd
  exact head?_trimStart c.rest d hd

/-- Behind the characters of a word, blanks are passed over. -/
theorem parted_advance (hn : n ≤ c.rest.length) (hword : wordLength (c.rest.drop n) = 0) :
    ∃ blanks, c.Parted (c.rest.take n) blanks
      (c.advance (n + blankLength (c.rest.drop n))) := by
  have hbehind := (behind_advance hn).trans (behind_blanks (c.advance n))
  have hhead := head?_advance_blanks (c.advance n)
  rw [advance_advance] at hbehind hhead
  refine ⟨_, hbehind, allBlank_take_blankLength _, fun hrest hnil => ?_, hhead⟩
  -- something is left, and a blank stands where no word begins
  have hne : c.rest.drop n ≠ [] := fun h => hrest (by simp only [advance, ← List.drop_drop, h]; rfl)
  have hpos := blankLength_pos hne hword
  have hlength := congrArg List.length hnil
  rw [List.length_take, Nat.min_eq_left (blankLength_le _)] at hlength
  exact absurd hlength (Nat.pos_iff_ne_zero.1 hpos)

/-- What a text begins with that a cursor stands behind. -/
theorem Behind.slice_ahead (h : c.Behind (first ++ second) next) (hreads : c.Reads source) :
    (c.ahead first.length).slice source = first := by
  have hrest : c.rest = first ++ (second ++ next.rest) := by rw [h.1, List.append_assoc]
  rw [hreads.slice_ahead (by rw [hrest, List.length_append]; omega), hrest, List.take_left]

/-- The next comma and what stands before it. -/
theorem behind_comma (h : lengthBefore ',' c.rest < c.rest.length) :
    c.Behind (c.rest.take (lengthBefore ',' c.rest) ++ [','])
      (c.advance (lengthBefore ',' c.rest + 1)) := by
  refine ⟨?_, ?_⟩
  · rw [List.append_assoc]
    exact eq_append_cons_of_lengthBefore h
  · rw [List.length_append, List.length_take, Nat.min_eq_left h.le]
    rfl

/-- The next word and the blanks behind it. -/
theorem parted_word (c : Cursor) :
    ∃ blanks, c.Parted (c.rest.take (wordLength c.rest)) blanks
      (c.advance (wordLength c.rest + blankLength (c.rest.drop (wordLength c.rest)))) :=
  parted_advance (wordLength_le c.rest) (wordLength_drop_wordLength c.rest)

/-- **An operand** that is followed by blanks is not empty. -/
theorem parted_of_operand {operand : Operand} {behind : Cursor} (hreads : c.Reads source)
    (hne : c.rest ≠ []) (hhead : ∀ d ∈ c.rest.head?, isBlank d = false)
    (hoperand : c.operand = .ok (operand, behind)) (hnext : behind.separated = .ok next) :
    ∃ text blanks, text ≠ [] ∧ operand.span = c.ahead text.length ∧ c.Behind text behind ∧
      c.Parted text blanks next := by
  obtain ⟨-, n, hn, htook⟩ := (settles_operand hreads hne).of_ok hoperand
  obtain ⟨hspan, rfl⟩ := Prod.mk.inj htook
  obtain ⟨rfl, hword⟩ := (settles_separated (hreads.advance hn)).of_ok hnext
  obtain ⟨blanks, hparted⟩ := parted_advance hn hword
  have hlength : (c.rest.take n).length = n := by rw [List.length_take, Nat.min_eq_left hn]
  refine ⟨c.rest.take n, blanks, fun hnil => ?_, by rw [hlength]; exact hspan, behind_advance hn, ?_⟩
  · obtain rfl : n = 0 := by rwa [hnil, eq_comm] at hlength
    exact absurd hword (wordLength_pos hne hhead).ne'
  · rw [advance_advance]
    exact hparted

end Cursor

/-! ## The readers of a header -/

namespace LoopReader

variable {r next last : LoopReader} {limit : Nat} {span : Span}

/-- A name is cut off without a blank, a comma or a character that is refused. -/
theorem isNameText_take {skip : Nat} {ended : Bool} (hcomma : n ≤ lengthBefore ',' r.cursor.rest)
    (hword : n ≤ wordLength r.cursor.rest)
    (h : r.named n skip ended = (.ok (some span), next)) :
    IsNameText (r.cursor.rest.take n) ∧ span = r.cursor.ahead n ∧ next.namesDone = ended ∧
      next.cursor = r.cursor.advance (skip + blankLength (r.cursor.rest.drop skip)) := by
  unfold named at h
  dsimp only at h
  split at h
  · cases h
  · next hforeign =>
    cases h
    refine ⟨fun d hd => ⟨?_, ne_of_mem_take hcomma hd, ?_⟩, rfl, rfl, rfl⟩
    · have hmem : d ∈ r.cursor.rest.takeWhile fun d => !isBlank d := by
        rw [← take_length_takeWhile]
        exact (List.take_sublist_take_left hword).subset hd
      simpa using of_mem_takeWhile hmem
    · exact Bool.eq_false_iff.2 (List.any_eq_false.1 (Bool.eq_false_iff.2 hforeign) d hd)

/-- **A name that is read** is behind its comma or, if it is the last one, behind its blanks. -/
theorem exists_of_name (hdone : r.namesDone = false)
    (hhead : ∀ d ∈ r.cursor.rest.head?, isBlank d = false) (h : r.name = (.ok (some span), next)) :
    ∃ name blanks, IsNameText name ∧ allBlank blanks ∧ span = r.cursor.ahead name.length ∧
      ((next.namesDone = false ∧ r.cursor.Behind (name ++ ',' :: blanks) next.cursor ∧
          ∀ d ∈ next.cursor.rest.head?, isBlank d = false) ∨
        (next.namesDone = true ∧ name ≠ [] ∧ r.cursor.Parted name blanks next.cursor)) := by
  have hcommas := lengthBefore_le ',' r.cursor.rest
  have hwords := wordLength_le r.cursor.rest
  unfold name at h
  rw [hdone, if_neg Bool.false_ne_true] at h
  dsimp only at h
  split at h
  · cases h
  · next hne =>
    split at h
    · next hlt =>
      obtain ⟨hname, rfl, hmore, hnext⟩ := isNameText_take (Nat.le_refl _) hlt.le h
      have hbehind := (Cursor.behind_comma (hlt.trans_le hwords)).trans
        (r.cursor.advance (lengthBefore ',' r.cursor.rest + 1)).behind_blanks
      have hnone := (r.cursor.advance (lengthBefore ',' r.cursor.rest + 1)).head?_advance_blanks
      rw [Cursor.advance_advance] at hbehind hnone
      rw [List.append_assoc] at hbehind
      exact ⟨_, _, hname, allBlank_take_blankLength _,
        by rw [List.length_take, Nat.min_eq_left hcommas],
        .inl ⟨hmore, hnext ▸ hbehind, hnext ▸ hnone⟩⟩
    · next hge =>
      obtain ⟨hname, rfl, hmore, hnext⟩ := isNameText_take (Nat.le_of_not_lt hge) (Nat.le_refl _) h
      obtain ⟨blanks, hparted⟩ := r.cursor.parted_word
      refine ⟨_, blanks, hname, hparted.blank, by rw [List.length_take, Nat.min_eq_left hwords],
        .inr ⟨hmore, fun hnil => ?_, hnext ▸ hparted⟩⟩
      have hlength := congrArg List.length hnil
      rw [List.length_take, Nat.min_eq_left hwords] at hlength
      exact absurd hlength (wordLength_pos (by simpa using hne) hhead).ne'

theorem rest_of_name_none (hdone : r.namesDone = false) (h : r.name = (.ok none, next)) :
    next.cursor.rest = [] := by
  unfold name at h
  rw [hdone, if_neg Bool.false_ne_true] at h
  dsimp only at h
  split at h
  · next hnil =>
    cases h
    exact List.isEmpty_iff.1 hnil
  · split at h <;>
    · unfold named at h
      dsimp only at h
      split at h <;> cases h

/-- Behind the last name there are no more. -/
theorem namesUpTo_done (hdone : r.namesDone = true) (limit : Nat) :
    namesUpTo limit r = (⟨[], none⟩, r) := by
  cases limit with
  | zero => rfl
  | succ limit => rw [namesUpTo, name, if_pos hdone]

/-- **The names that are read** are those of a list, which stands before the cursor with the blanks
behind it. -/
theorem nameList_of_namesUpTo {spans : List Span} (hdone : r.namesDone = false)
    (hsound : r.Sound source) (hhead : ∀ d ∈ r.cursor.rest.head?, isBlank d = false)
    (hlimit : r.cursor.rest.length < limit) (h : namesUpTo limit r = (⟨spans, none⟩, last))
    (hlast : last.cursor.rest ≠ []) :
    ∃ text blanks, NameList (spans.map (·.slice source)) text ∧
      r.cursor.Parted text blanks last.cursor := by
  -- every name but the last one leaves a reader behind its comma and the blanks there
  induction limit generalizing r spans with
  | zero => exact absurd hlimit (Nat.not_lt_zero _)
  | succ limit ih =>
    have hnext := (settles_name hsound).2
    unfold namesUpTo at h
    split at h
    · next next hname =>
      cases h
      exact absurd (rest_of_name_none hdone hname) hlast
    · cases h
    · next span next hname =>
      obtain ⟨name, blanks, htext, hblanks, rfl, hrest⟩ := exists_of_name hdone hhead hname
      rw [hname] at hnext
      rcases hrest with ⟨hmore, hbehind, hnone⟩ | ⟨hended, hne, hparted⟩
      · have hslice := hbehind.slice_ahead hsound.reads
        obtain ⟨hwords, rfl⟩ := Prod.mk.inj h
        obtain ⟨rfl, herror⟩ := Cursor.Words.mk.inj hwords
        have hshorter : next.cursor.rest.length < limit := by
          have hlength := congrArg List.length hbehind.1
          simp only [List.length_append, List.length_cons] at hlength
          omega
        have hlater : namesUpTo limit next =
            (⟨(namesUpTo limit next).1.words, none⟩, (namesUpTo limit next).2) := by
          rw [← herror]
        obtain ⟨text, gap, hlist, hparted⟩ := ih hmore hnext hnone hshorter hlater
        refine ⟨name ++ ',' :: (blanks ++ text), gap, ?_, ?_, hparted.blank, hparted.ne_nil,
          hparted.head⟩
        · rw [List.map_cons, hslice]
          exact .comma htext hblanks hlist
        · simpa using hbehind.trans hparted.behind
      · have hslice := hparted.behind.slice_ahead hsound.reads
        rw [namesUpTo_done hended] at h
        cases h
        exact ⟨name, blanks, by simpa [hslice] using NameList.last htext hne, hparted⟩

/-- **The word `in`** stands before the cursor with the blanks behind it. -/
theorem parted_of_keyword (h : r.keyword = (.ok (), next)) :
    r.cursor.rest ≠ [] ∧ ∃ blanks, r.cursor.Parted ['i', 'n'] blanks next.cursor := by
  unfold keyword at h
  dsimp only at h
  split at h
  · cases h
  · next hne =>
    split at h
    · cases h
    · next hword =>
      obtain ⟨blanks, hparted⟩ := r.cursor.parted_word
      rw [not_not.1 hword] at hparted
      cases h
      exact ⟨by simpa using hne, blanks, hparted⟩

/-- **The expression** is what the reader of operands takes. -/
theorem parted_of_iterable {operand : Operand} (hsound : r.Sound source)
    (hhead : ∀ d ∈ r.cursor.rest.head?, isBlank d = false) (h : r.iterable = (.ok operand, next)) :
    r.cursor.rest ≠ [] ∧ ∃ text blanks behind, text ≠ [] ∧
      r.cursor.operand = .ok (operand, behind) ∧ operand.span = r.cursor.ahead text.length ∧
      r.cursor.Behind text behind ∧ r.cursor.Parted text blanks next.cursor := by
  unfold iterable at h
  split at h
  · cases h
  · next hempty =>
    have hne : r.cursor.rest ≠ [] := by simpa using hempty
    split at h
    · cases h
    · next operand' behind hoperand =>
      split at h
      · cases h
      · next hnext =>
        cases h
        obtain ⟨text, blanks, htext, hspan, hbehind, hparted⟩ :=
          Cursor.parted_of_operand hsound.reads hne hhead hoperand hnext
        exact ⟨hne, text, blanks, behind, htext, hoperand, hspan, hbehind, hparted⟩

/-- **The word `reversed`** is all that can be left, with blanks behind it. -/
theorem rest_of_direction {backwards : Bool} (h : r.direction = .ok backwards) :
    ∃ blanks, allBlank blanks ∧
      r.cursor.rest = (if backwards then "reversed".toList else []) ++ blanks := by
  unfold direction at h
  dsimp only at h
  split at h
  · next hempty =>
    cases h
    exact ⟨[], rfl, List.isEmpty_iff.1 hempty⟩
  · split at h
    · next hword =>
      split at h
      · next hend =>
        cases h
        have hblank := allBlank_take_blankLength (r.cursor.rest.drop (wordLength r.cursor.rest))
        rw [List.take_of_length_le (by rw [List.length_drop]; omega)] at hblank
        exact ⟨_, hblank, by rw [if_pos rfl, ← hword, List.take_append_drop]⟩
      · cases h
    · cases h

end LoopReader

/-! ## Headers -/

/-- Blanks of which there is at least one. -/
structure IsGap (blanks : List Char) : Prop where
  blank : allBlank blanks
  ne_nil : blanks ≠ []

/-- **The pieces of the text of a header,** without the word `in`. -/
structure HeaderText where
  names : List Char
  behindNames : List Char
  behindIn : List Char
  iterable : List Char
  direction : List Char

namespace HeaderText

/-- What stands before the expression. -/
def opening (t : HeaderText) : List Char :=
  t.names ++ t.behindNames ++ ['i', 'n'] ++ t.behindIn

/-- All pieces together. -/
def whole (t : HeaderText) : List Char := t.opening ++ (t.iterable ++ t.direction)

/-- **What the text of a header spells** at an offset: its names are a list and none is the word
`in`, its iterable is made of the one operand that stands behind this word, and nothing but the word
`reversed` stands behind that. -/
structure Spells (t : HeaderText) (r : Reader) (start : Nat) (header : LoopHeader) : Prop where
  names : NameList (header.names.map String.toList) t.names
  ne_in : ∀ name ∈ header.names, name ≠ "in"
  behindNames : IsGap t.behindNames
  behindIn : IsGap t.behindIn
  iterable : t.iterable ≠ [] ∧ ∃ operand : Operand, operand.kind ≠ .numeric ∧
    operand.span = ⟨start + t.opening.length, t.iterable.length⟩ ∧
    Cursor.operand ⟨start + t.opening.length, t.iterable ++ t.direction⟩ =
      .ok (operand, ⟨start + t.opening.length + t.iterable.length, t.direction⟩) ∧
    r.expression operand = .ok header.iterable
  direction : if header.backwards then ∃ gap, IsGap gap ∧ t.direction = gap ++ "reversed".toList
    else t.direction = []

end HeaderText

/-- What stands behind the expression: blanks and the word `reversed`, or nothing. -/
theorem Trimmed.direction {rest trailing : List Char} {backwards : Bool}
    (h : Trimmed (before ++ (blanks ++ rest))) (hblanks : allBlank blanks)
    (hgap : rest ≠ [] → blanks ≠ []) (htrailing : allBlank trailing)
    (hrest : rest = (if backwards then "reversed".toList else []) ++ trailing) :
    if backwards then ∃ gap, IsGap gap ∧ blanks ++ rest = gap ++ "reversed".toList
    else blanks ++ rest = [] := by
  rw [hrest, ← List.append_assoc, ← List.append_assoc] at h
  obtain rfl := h.eq_nil_of_allBlank htrailing
  rw [List.append_nil] at h hrest
  subst hrest
  cases backwards with
  | true => exact ⟨blanks, ⟨hblanks, hgap (by decide)⟩, rfl⟩
  | false =>
    rw [if_neg Bool.false_ne_true, List.append_nil] at h
    rw [h.eq_nil_of_allBlank hblanks]
    rfl

/-- **The parts of a tag are trimmed,** and they stand where the tag says. -/
theorem TagWords.trimmed_parts {content : List Char} {start : Nat} {words : TagWords}
    (h : read? content start = .ok (some words))
    (hreads : (⟨start, content⟩ : Cursor).Reads source) :
    Trimmed (words.parts.slice source) := by
  obtain ⟨p, rfl, -, rfl⟩ := exists_pieces h
  rw [(p.slice_of_reads start hreads).2]
  exact p.parts_trimmed

namespace Reader

variable {r : Reader} {tag parts : Span} {header : LoopHeader}

theorem ne_in_of_checkLoopNames {previous : Option Span} {spans : List Span}
    (h : r.checkLoopNames previous spans = .ok ()) :
    ∀ s ∈ spans, s.slice r.source ≠ ['i', 'n'] := by
  induction spans generalizing previous with
  | nil => exact List.forall_mem_nil _
  | cons first others ih =>
    unfold checkLoopNames at h
    split at h
    · split at h <;> cases h
    · next hne => exact List.forall_mem_cons.2 ⟨hne, ih h⟩

/-- What a header is made of, and which readers it comes from. -/
theorem exists_of_loopHeader (h : r.loopHeader tag parts = .ok header) :
    ∃ spans operand, header.names = spans.map r.textAt ∧
      (∀ s ∈ spans, s.slice r.source ≠ ['i', 'n']) ∧
      operand.kind ≠ .numeric ∧ r.expression operand = .ok header.iterable ∧
      ∃ named worded valued, (LoopReader.ofParts r.source parts).names = (⟨spans, none⟩, named) ∧
        named.keyword = (.ok (), worded) ∧ worded.iterable = (.ok operand, valued) ∧
        valued.direction = .ok header.backwards := by
  unfold loopHeader at h
  dsimp only at h
  obtain ⟨_, hcheck, h⟩ := bind_eq_ok.1 h
  obtain ⟨spans, hspans, h⟩ := bind_eq_ok.1 h
  have hwords := Cursor.Words.eq_of_toExcept hspans
  rw [hwords] at hcheck
  cases spans with
  | nil => cases h
  | cons first others =>
    obtain ⟨_, hin, h⟩ := bind_eq_ok.1 h
    obtain ⟨operand, hoperand, h⟩ := bind_eq_ok.1 h
    obtain ⟨backwards, hbackwards, h⟩ := bind_eq_ok.1 h
    split at h
    · cases h
    · next hkind =>
      obtain ⟨iterable, hexpression, h⟩ := bind_eq_ok.1 h
      cases h
      exact ⟨first :: others, operand, rfl, ne_in_of_checkLoopNames hcheck, hkind, hexpression,
        _, _, _, Prod.ext hwords rfl, Prod.ext hin rfl, Prod.ext hoperand rfl, hbackwards⟩

/-- **A header that is read** has a text that spells it. -/
theorem exists_headerText (hparts : parts.Within r.source)
    (htrimmed : Trimmed (parts.slice r.source)) (h : r.loopHeader tag parts = .ok header) :
    ∃ t : HeaderText, parts.slice r.source = t.whole ∧ t.Spells r parts.start header := by
  obtain ⟨spans, operand, hheader, hin, hkind, hexpression, named, worded, valued, hnames, hkeyword,
    hoperand, hbackwards⟩ := exists_of_loopHeader h
  have hstart := LoopReader.sound_ofParts hparts
  have hsound := (LoopReader.sound_names hstart).2
  rw [hnames] at hsound
  have hsound' := (LoopReader.settles_keyword hsound).2
  rw [hkeyword] at hsound'
  -- the pieces follow each other, each with the blanks behind it
  obtain ⟨hrest, gap', hword⟩ := LoopReader.parted_of_keyword hkeyword
  obtain ⟨names, gap, hlist, hparted⟩ :=
    LoopReader.nameList_of_namesUpTo rfl hstart htrimmed.head (Nat.lt_succ_self _) hnames hrest
  obtain ⟨hrest', text, blanks, behind, hne, hread, hspan, hbehind, hvalued⟩ :=
    LoopReader.parted_of_iterable hsound' hword.head hoperand
  obtain ⟨trailing, htrailing, hdirection⟩ := LoopReader.rest_of_direction hbackwards
  let t : HeaderText := ⟨names, gap, gap', text, behind.rest⟩
  have hopening : (LoopReader.ofParts r.source parts).cursor.Behind t.opening worded.cursor := by
    simpa [HeaderText.opening, t] using hparted.behind.trans hword.behind
  have hwhole : parts.slice r.source = t.whole := by
    rw [HeaderText.whole, ← hbehind.1]
    exact hopening.1
  have hleft : behind.rest = blanks ++ valued.cursor.rest := by
    refine List.append_cancel_left (hbehind.1.symm.trans ?_)
    rw [hvalued.behind.1, List.append_assoc]
  refine ⟨t, hwhole, ?_, fun name hname hnot => ?_, ⟨hparted.blank, hparted.ne_nil hrest⟩,
    ⟨hword.blank, hword.ne_nil hrest'⟩, ⟨hne, operand, hkind, ?_, ?_, hexpression⟩, ?_⟩
  · have hslices : (spans.map r.textAt).map String.toList = spans.map (·.slice r.source) := by
      simp [textAt, Function.comp_def]
    rw [hheader, hslices]
    exact hlist
  · rw [hheader] at hname
    obtain ⟨s, hs, rfl⟩ := List.mem_map.1 hname
    refine hin s hs ?_
    rw [← String.toList_ofList (l := s.slice r.source)]
    exact congrArg String.toList hnot
  · rw [hspan, Cursor.ahead, hopening.2]
    rfl
  · have hplace : worded.cursor.start = parts.start + t.opening.length := hopening.2
    rw [← hplace, ← hbehind.1, ← hbehind.2]
    exact hread
  · rw [hwhole, HeaderText.whole, ← List.append_assoc] at htrimmed
    have hdir : t.direction = blanks ++ valued.cursor.rest := hleft
    rw [hdir] at htrimmed ⊢
    exact htrimmed.direction hvalued.blank hvalued.ne_nil htrailing hdirection

end Reader

/-! ## Tags -/

namespace Compiler

variable {c : Compiler} {t : Token} {parts : Span}

/-- A `for` tag opens a loop with the header that is read from its parts. -/
theorem step_for (hv : c.verbatim = none) (hfor : c.Tagged t "for" parts) :
    c.step t =
      (c.reader.loopHeader t.span parts).map fun header => c.enter (.loop t.span header) := by
  rw [step_tag hv hfor.kind, tag_eq_openTag hfor (awaits_eq_false (by decide))]
  cases hheader : c.reader.loopHeader t.span parts with
  | error e =>
    simp only [openTag, hheader]
    rfl
  | ok header =>
    simp only [openTag, hheader]
    rfl

/-- The parts of a tag in the text are trimmed. -/
theorem Tagged.trimmed_parts {name : String} (h : c.Tagged t name parts)
    (ht : t.StandsIn c.source) : Trimmed (parts.slice c.source) := by
  obtain ⟨words, hwords, -, rfl⟩ := h.words
  exact TagWords.trimmed_parts hwords (ht.content (by rw [h.kind]; decide))

/-- **A `for` tag is taken only in its form.** If a compiler takes the tag, its parts are the text
of a header: names with a comma behind each but the last one, the word `in`, one expression and
perhaps the word `reversed`, with blanks between these and behind commas only. The text spells the
header of the loop that is opened, with these names in their order. None of them is the word `in` or
holds a blank, a comma, a quote or a bar; and none is empty just if no comma stands at the start of
the names or behind another comma with at most blanks between. Every other tag is refused, with an
error that is lexical or syntactic. -/
theorem headerText_of_step (hv : c.verbatim = none) (ht : t ∈ Token.scan c.source)
    (hfor : c.Tagged t "for" parts) :
    (∀ c', c.step t = .ok c' → ∃ (header : LoopHeader) (text : HeaderText),
      c' = c.enter (.loop t.span header) ∧ parts.slice c.source = text.whole ∧
        text.Spells c.reader parts.start header ∧
        (SeparatesNames text.names ↔ ∀ name ∈ header.names, name ≠ "")) ∧
      ∀ e, c.step t = .error e → e.cause.family = .lexical ∨ e.cause.family = .syntactic := by
  have hstands := Token.standsIn_of_mem_scan ht
  have hparts := hfor.parts_within hstands
  rw [step_for hv hfor]
  refine ⟨fun c' h => ?_, fun e h => ?_⟩
  · obtain ⟨header, hheader, rfl⟩ := map_eq_ok h
    obtain ⟨text, hwhole, hspells⟩ :=
      Reader.exists_headerText hparts (hfor.trimmed_parts hstands) hheader
    refine ⟨header, text, rfl, hwhole, hspells, ?_⟩
    rw [hspells.names.separatesNames_iff]
    refine ⟨fun hnil name hname hempty => hnil ?_, fun hall hnil => ?_⟩
    · exact List.mem_map.2 ⟨name, hname, by rw [hempty]; rfl⟩
    · obtain ⟨name, hname, hempty⟩ := List.mem_map.1 hnil
      exact hall name hname (String.toList_eq_nil_iff.1 hempty)
  · have hsettles := Reader.settles_loopHeader (r := c.reader) hstands.within hparts
    exact ((hsettles.map (Q := fun _ => True) fun _ _ => trivial).proper h).family

/-- Two names and the direction of their loop. -/
theorem headerText_of_step_pair :
    ∃ text : HeaderText, "a, b in x reversed".toList = text.whole ∧
      text.Spells ⟨"{% for a, b in x reversed %}".toList, [], 0⟩ 7
        ⟨["a", "b"], ⟨7, 4⟩, ⟨.path ⟨15, 1⟩ "x" [], []⟩, true⟩ ∧
      SeparatesNames text.names := by
  have hfor : ({ source := "{% for a, b in x reversed %}".toList, libraries := [] } :
      Compiler).Tagged ⟨.tag, ⟨0, 28⟩⟩ "for" ⟨7, 18⟩ := ⟨rfl, ⟨⟨3, 3⟩, ⟨7, 18⟩⟩, rfl, rfl, rfl⟩
  have hheader : (⟨"{% for a, b in x reversed %}".toList, [], 0⟩ : Reader).loopHeader
      ⟨0, 28⟩ ⟨7, 18⟩ = .ok ⟨["a", "b"], ⟨7, 4⟩, ⟨.path ⟨15, 1⟩ "x" [], []⟩, true⟩ := rfl
  have hstep := step_for rfl hfor
  obtain ⟨htaken, -⟩ := headerText_of_step rfl (by decide +kernel) hfor
  obtain ⟨header, text, hc, hwhole, hspells, hiff⟩ :=
    htaken _ (hstep.trans (congrArg (Except.map _) hheader))
  obtain rfl := (Part.loop.inj (congrArg Frame.part (List.cons.inj (congrArg frames hc)).1)).2
  exact ⟨text, hwhole, hspells, hiff.2 (by decide)⟩

/-- Nothing stands before the comma, and the loop has a name without characters. -/
theorem headerText_of_step_comma :
    compile "{% for ,a in x %}{% endfor %}".toList [] =
      .ok [.loop ⟨0, 17⟩ ⟨["", "a"], ⟨7, 2⟩, ⟨.path ⟨13, 1⟩ "x" [], []⟩, false⟩ [] []] := by
  have hscan : Token.scan "{% for ,a in x %}{% endfor %}".toList =
      [⟨.tag, ⟨0, 17⟩⟩, ⟨.tag, ⟨17, 12⟩⟩] := by decide +kernel
  rw [compile, hscan]
  rfl

end Compiler

end Galley
