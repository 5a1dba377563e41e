import Galley.Proofs.Layout

/-!
# The text that a chain takes account of

What is written in a chain is its value, the names of its filters, their arguments, and the bars and
colons between them. One place is passed over: between the name of a filter and the colon of its
argument any text may stand. So a chain that is read without an error takes account of all its
characters exactly if nothing but blanks stands in these places.

* `FilterWord.Covers`, `FilterWord.Skips`: the places in a filter that are read or passed over.
* `EachAt`: what holds of every character of a text and its place.
* `Piece.eachAt_text`, `Piece.eachAt_words`, `ChainPieces.eachAt_text`: a character that is not
  blank is read or is a separator, or it is passed over.
* `Chain.accounted_iff`: the chains that take account of all their text.
-/

namespace Galley

open Text

/-! ## Places -/

/-- A place in a span. -/
def Span.Covers (s : Span) (place : Nat) : Prop := s.start ≤ place ∧ place < s.stop

/-- A place in the name of a filter or in its argument. -/
def FilterWord.Covers (w : FilterWord) (place : Nat) : Prop :=
  w.name.Covers place ∨ ∃ a, w.argument = some a ∧ a.span.Covers place

/-- **A place that is passed over**: it lies behind the name of a filter and before the colon of its
argument, which is the last place before the argument. -/
def FilterWord.Skips (w : FilterWord) (place : Nat) : Prop :=
  ∃ a, w.argument = some a ∧ w.name.stop ≤ place ∧ place + 1 < a.span.start

/-- **A chain takes account of its text** if every character that is not blank lies in its value, in
the name of a filter or in an argument, or is a bar or a colon. -/
def Chain.Accounted (content : List Char) (start : Nat) (value : Operand)
    (words : List FilterWord) : Prop :=
  ∀ i c, content[i]? = some c → isBlank c = false →
    value.span.Covers (start + i) ∨ (∃ w ∈ words, w.Covers (start + i)) ∨ c = '|' ∨ c = ':'

/-- Something holds of every character of a text, the first of which has the place `start`. -/
def EachAt (start : Nat) (text : List Char) (P : Nat → Char → Prop) : Prop :=
  ∀ i c, text[i]? = some c → P (start + i) c

variable {start place : Nat} {P : Nat → Char → Prop}

theorem eachAt_nil (start : Nat) (P : Nat → Char → Prop) : EachAt start [] P := nofun

theorem eachAt_cons {c : Char} {rest : List Char} :
    EachAt start (c :: rest) P ↔ P start c ∧ EachAt (start + 1) rest P := by
  constructor
  · intro h
    refine ⟨h 0 c rfl, fun i d hd => ?_⟩
    have := h (i + 1) d (by simpa using hd)
    rwa [Nat.add_comm i 1, ← Nat.add_assoc] at this
  · rintro ⟨hfirst, hrest⟩ i d hd
    cases i with
    | zero =>
      cases hd
      exact hfirst
    | succ i =>
      have := hrest i d (by simpa using hd)
      rwa [Nat.add_assoc, Nat.add_comm 1 i] at this

theorem eachAt_append {first second : List Char} :
    EachAt start (first ++ second) P ↔
      EachAt start first P ∧ EachAt (start + first.length) second P := by
  induction first generalizing start with
  | nil => simp [eachAt_nil]
  | cons c rest ih =>
    rw [List.cons_append, eachAt_cons, eachAt_cons, ih, and_assoc, List.length_cons,
      Nat.add_comm rest.length 1, Nat.add_assoc]

/-- Something that holds between two places. -/
theorem eachAt_of_forall {text : List Char}
    (h : ∀ place, start ≤ place → place < start + text.length → ∀ c ∈ text, P place c) :
    EachAt start text P := by
  intro i c hc
  have hlt := (List.getElem?_eq_some_iff.1 hc).1
  exact h (start + i) (Nat.le_add_right _ _) (Nat.add_lt_add_left hlt _) c (List.mem_of_getElem? hc)

/-- What is only said of characters that are not blank. -/
theorem eachAt_blanks {text : List Char} {Q : Nat → Char → Prop} (h : allBlank text) :
    EachAt start text fun place c => isBlank c = false → Q place c := by
  intro i c hc hnot
  rw [List.all_eq_true.1 h c (List.mem_of_getElem? hc)] at hnot
  cases hnot

/-! ## The places of a filter -/

namespace Piece

variable {p : Piece} {pieces : List Piece}

/-- The places of a filter that are read or passed over lie in its text. -/
theorem bounds_of_covers_or_skips
    (h : (p.word start).Covers place ∨ (p.word start).Skips place) :
    start ≤ place ∧ place < start + p.text.length := by
  have hlength := p.length_text
  have hargument (a : ArgumentPiece) (ha : p.argument = some a) :
      p.argumentText.length = a.gap.length + (a.text.length + 1) := by
    simp only [argumentText, ha, List.length_append, List.length_cons]
  rcases h with (⟨h1, h2⟩ | ⟨o, ho, h1, h2⟩) | ⟨o, ho, h1, h2⟩
  · simp only [word, Span.stop] at h1 h2
    omega
  · obtain ⟨a, ha, rfl⟩ := Option.map_eq_some_iff.1 ho
    have := hargument a ha
    simp only [Span.stop] at h1 h2
    omega
  · obtain ⟨a, ha, rfl⟩ := Option.map_eq_some_iff.1 ho
    have := hargument a ha
    simp only [word, Span.stop] at h1 h2
    omega

/-- **In the text of a filter** a character that is not blank is passed over, or it is read or is a
separator. -/
theorem eachAt_text (hp : p.Valid) (start : Nat) :
    EachAt start p.text fun place c => isBlank c = false →
      ((p.word start).Covers place ∨ c = '|' ∨ c = ':' ↔ ¬ (p.word start).Skips place) := by
  -- nothing is passed over before the end of the name, or from the argument on
  have hbefore {place : Nat} (h : place < start + p.blanks.length + p.name.length) :
      ¬ (p.word start).Skips place := by
    rintro ⟨a, -, hstop, -⟩
    simp only [word, Span.stop] at hstop
    omega
  have hbehind {place : Nat}
      (h : start + p.blanks.length + p.name.length + p.argumentText.length ≤ place) :
      ¬ (p.word start).Skips place := by
    rintro ⟨o, ho, hstop, hlt⟩
    obtain ⟨a, ha, rfl⟩ := Option.map_eq_some_iff.1 ho
    simp only [argumentText, ha, List.length_append, List.length_cons] at h hlt
    omega
  refine eachAt_append.2 ⟨eachAt_blanks hp.blanks, eachAt_append.2 ⟨?_, eachAt_append.2 ⟨?_,
    eachAt_append.2 ⟨eachAt_blanks hp.spaces, ?_⟩⟩⟩⟩
  · -- the name
    refine eachAt_of_forall fun place hle hlt c _ _ => iff_of_true (.inl (.inl ?_)) (hbefore hlt)
    exact ⟨hle, hlt⟩
  · cases ha : p.argument with
    | none =>
      rw [argumentText, ha]
      exact eachAt_nil _ _
    | some a =>
      have hword : (p.word start).argument = some ⟨a.kind,
          ⟨start + p.blanks.length + p.name.length + a.gap.length + 1, a.text.length⟩⟩ := by
        rw [word, ha]
        rfl
      rw [argumentText, ha]
      refine eachAt_append.2 ⟨?_, eachAt_cons.2 ⟨?_, ?_⟩⟩
      · -- the text before the colon
        refine eachAt_of_forall fun place hle hlt c hc _ => ?_
        have hskips : (p.word start).Skips place := ⟨_, hword, hle, Nat.succ_lt_succ hlt⟩
        refine iff_of_false ?_ (not_not_intro hskips)
        rintro ((⟨-, hstop⟩ | ⟨o, ho, hstart, -⟩) | hsep | hsep)
        · simp only [word, Span.stop] at hstop
          omega
        · rw [hword] at ho
          cases ho
          simp only at hstart
          omega
        · exact (hp.gap a ha c hc).1 hsep
        · exact (hp.gap a ha c hc).2 hsep
      · -- the colon
        refine fun _ => iff_of_true (.inr (.inr rfl)) ?_
        rintro ⟨o, ho, -, hlt⟩
        rw [hword] at ho
        cases ho
        simp only at hlt
        omega
      · -- the argument
        refine eachAt_of_forall fun place hle hlt c _ _ => ?_
        refine iff_of_true (.inl (.inr ⟨_, hword, hle, hlt⟩)) ?_
        rintro ⟨o, ho, -, hlt'⟩
        rw [hword] at ho
        cases ho
        simp only at hlt'
        omega
  · -- the separator
    refine eachAt_of_forall fun place hle _ c hc _ => iff_of_true (.inr ?_) (hbehind (by omega))
    rcases hp.separator with hsep | hsep | hsep <;> rw [hsep] at hc
    · cases hc
    · exact .inl (List.mem_singleton.1 hc)
    · exact .inr (List.mem_singleton.1 hc)

/-- The words of filters lie in their texts. -/
theorem bounds_of_mem_words {w : FilterWord} (hw : w ∈ words start pieces)
    (h : w.Covers place ∨ w.Skips place) :
    start ≤ place ∧ place < start + (pieces.flatMap text).length := by
  induction pieces generalizing start with
  | nil => cases hw
  | cons p rest ih =>
    rw [List.flatMap_cons, List.length_append]
    rcases List.mem_cons.1 hw with rfl | hw
    · have := bounds_of_covers_or_skips h
      omega
    · have := ih hw
      omega

/-- **In the text of filters** a character that is not blank is passed over by one of them, or it is
read by one of them or is a separator. -/
theorem eachAt_words (hp : ∀ p ∈ pieces, p.Valid) (start : Nat) :
    EachAt start (pieces.flatMap text) fun place c => isBlank c = false →
      ((∃ w ∈ words start pieces, w.Covers place) ∨ c = '|' ∨ c = ':' ↔
        ¬ ∃ w ∈ words start pieces, w.Skips place) := by
  induction pieces generalizing start with
  | nil => exact eachAt_nil _ _
  | cons p rest ih =>
    obtain ⟨hfirst, hrest⟩ := List.forall_mem_cons.1 hp
    have hexists (Q : FilterWord → Prop) : (∃ w ∈ words start (p :: rest), Q w) ↔
        Q (p.word start) ∨ ∃ w ∈ words (start + p.text.length) rest, Q w := by
      simp only [words, List.mem_cons, or_and_right, exists_or, exists_eq_left]
    refine eachAt_append.2 ⟨?_, ?_⟩
    · -- the filters behind this one are not yet reached
      intro i c hc hblank
      have hlt := (List.getElem?_eq_some_iff.1 hc).1
      have hnone (Q : FilterWord → Prop)
          (hQ : ∀ w, Q w → w.Covers (start + i) ∨ w.Skips (start + i)) :
          ¬ ∃ w ∈ words (start + p.text.length) rest, Q w := by
        rintro ⟨w, hw, h⟩
        have := bounds_of_mem_words hw (hQ w h)
        omega
      rw [hexists, hexists, or_iff_left (hnone _ fun _ => .inl),
        or_iff_left (hnone _ fun _ => .inr)]
      exact eachAt_text hfirst start i c hc hblank
    · -- this one is passed
      intro i c hc hblank
      have hnot (h : (p.word start).Covers (start + p.text.length + i) ∨
          (p.word start).Skips (start + p.text.length + i)) : False := by
        have := bounds_of_covers_or_skips h
        omega
      rw [hexists, hexists, or_iff_right (hnot ∘ .inl), or_iff_right (hnot ∘ .inr)]
      exact ih hrest _ i c hc hblank

/-- The words of filters are the words of their pieces, each at its place. -/
theorem exists_of_mem_words {w : FilterWord} (hw : w ∈ words start pieces) :
    ∃ first p last, pieces = first ++ p :: last ∧
      w = p.word (start + (first.flatMap text).length) := by
  induction pieces generalizing start with
  | nil => cases hw
  | cons p rest ih =>
    rcases List.mem_cons.1 hw with rfl | hw
    · exact ⟨[], p, rest, rfl, rfl⟩
    · obtain ⟨first, q, last, rfl, rfl⟩ := ih hw
      refine ⟨p :: first, q, last, rfl, ?_⟩
      rw [List.flatMap_cons, List.length_append, Nat.add_assoc]

/-- **Directly behind the name** of a filter stands its colon, or its argument has text before it. -/
theorem colon_iff_forall_not_skips (hp : p.Valid) (start : Nat) (behind : List Char) :
    (∀ place, ¬ (p.word start).Skips place) ↔
      ((p.word start).argument ≠ none →
        (p.text ++ behind)[(p.word start).name.stop - start]? = some ':') := by
  have hstop : (p.word start).name.stop - start = p.blanks.length + p.name.length := by
    simp only [word, Span.stop]
    omega
  have hat : (p.text ++ behind)[p.blanks.length + p.name.length]? =
      (p.argumentText ++ (p.spaces ++ (p.separator ++ behind)))[0]? := by
    simp only [text, List.append_assoc]
    rw [List.getElem?_append_right (Nat.le_add_right _ _), Nat.add_sub_cancel_left,
      List.getElem?_append_right (Nat.le_refl _), Nat.sub_self]
  rw [hstop, hat]
  cases ha : p.argument with
  | none =>
    have hnone : (p.word start).argument = none := by rw [word, ha]; rfl
    refine iff_of_true ?_ (absurd hnone)
    rintro place ⟨a, hsome, -⟩
    rw [hnone] at hsome
    cases hsome
  | some a =>
    have hword : (p.word start).argument = some ⟨a.kind,
        ⟨start + p.blanks.length + p.name.length + a.gap.length + 1, a.text.length⟩⟩ := by
      rw [word, ha]
      rfl
    have hargument : p.argumentText = a.gap ++ ':' :: a.text := by rw [argumentText, ha]
    rw [hargument]
    cases hgap : a.gap with
    | nil =>
      refine iff_of_true ?_ fun _ => rfl
      rintro place ⟨o, ho, hle, hlt⟩
      rw [hword] at ho
      cases ho
      simp only [word, Span.stop, hgap, List.length_nil] at hle hlt
      omega
    | cons d gap =>
      refine iff_of_false ?_ ?_
      · intro hnot
        refine hnot (start + p.blanks.length + p.name.length) ⟨_, hword, Nat.le_refl _, ?_⟩
        simp only [hgap, List.length_cons]
        omega
      · intro hcolon
        have := hcolon (by simp [hword])
        cases this
        exact (hp.gap a ha ':' (hgap ▸ List.mem_cons_self)).2 rfl

end Piece

/-! ## Whole chains -/

namespace ChainPieces

variable {p : ChainPieces} {kind : OperandKind}

/-- **In the text of a chain** a character that is not blank is passed over by a filter, or it is
read or is a separator. -/
theorem eachAt_text (hp : p.Valid kind) (start : Nat) :
    EachAt start p.text fun place c => isBlank c = false →
      ((p.valueSpan start).Covers place ∨ (∃ w ∈ p.words start, w.Covers place) ∨ c = '|' ∨ c = ':' ↔
        ¬ ∃ w ∈ p.words start, w.Skips place) := by
  have hlater {place : Nat} {w : FilterWord} (hw : w ∈ p.words start) (h : w.Skips place) :
      start + p.blanks.length + p.value.length + p.spaces.length + p.bar.length ≤ place :=
    (Piece.bounds_of_mem_words hw (.inr h)).1
  refine eachAt_append.2 ⟨eachAt_blanks hp.blanks, eachAt_append.2 ⟨?_, eachAt_append.2
    ⟨eachAt_blanks hp.spaces, eachAt_append.2 ⟨?_, eachAt_append.2 ⟨?_, eachAt_blanks hp.trailing⟩⟩⟩⟩⟩
  · -- the value
    refine eachAt_of_forall fun place hle hlt c _ _ => iff_of_true (.inl ⟨hle, hlt⟩) ?_
    rintro ⟨w, hw, h⟩
    have := hlater hw h
    omega
  · -- the first bar
    rcases hp.bar with ⟨hnil, -⟩ | ⟨blanks, hblanks, hbar⟩
    · rw [hnil]
      exact eachAt_nil _ _
    · rw [hbar] at hlater ⊢
      refine eachAt_cons.2 ⟨fun _ => iff_of_true (.inr (.inr (.inl rfl))) ?_, eachAt_blanks hblanks⟩
      rintro ⟨w, hw, h⟩
      have := hlater hw h
      simp only [List.length_cons] at this
      omega
  · -- the filters
    intro i c hc hblank
    rw [or_iff_right (fun h => ?_)]
    · exact Piece.eachAt_words hp.filters (p.filtersStart start) i c hc hblank
    · have := h.2
      simp only [valueSpan, Span.stop] at this
      omega

/-- Directly behind the name of each filter with an argument stands a colon, or text is passed
over. -/
theorem colons_iff_forall_not_skips (hp : p.Valid kind) (start : Nat) :
    (∀ w ∈ p.words start, ∀ place, ¬ w.Skips place) ↔
      ∀ w ∈ p.words start, w.argument ≠ none → p.text[w.name.stop - start]? = some ':' := by
  refine forall₂_congr fun w hw => ?_
  obtain ⟨first, q, last, hfilters, rfl⟩ := Piece.exists_of_mem_words hw
  have hq : q.Valid := hp.filters q (by simp [hfilters])
  have htext : p.text = (p.blanks ++ p.value ++ p.spaces ++ p.bar ++ first.flatMap Piece.text) ++
      (q.text ++ (last.flatMap Piece.text ++ p.trailing)) := by
    simp [text, hfilters]
  generalize hstart : p.filtersStart start + (first.flatMap Piece.text).length = place at *
  have hlen : (p.blanks ++ p.value ++ p.spaces ++ p.bar ++ first.flatMap Piece.text).length =
      place - start := by
    simp only [List.length_append]
    simp only [filtersStart] at hstart
    omega
  have hle : start ≤ place := by
    simp only [filtersStart] at hstart
    omega
  have hstop : place ≤ (q.word place).name.stop := by
    simp only [Piece.word, Span.stop]
    omega
  have hat : p.text[(q.word place).name.stop - start]? =
      (q.text ++ (last.flatMap Piece.text ++ p.trailing))[(q.word place).name.stop - place]? := by
    rw [htext, List.getElem?_append_right (by omega), hlen]
    congr 1
    omega
  rw [hat]
  exact Piece.colon_iff_forall_not_skips hq place _

end ChainPieces

namespace Chain

/-- **A chain takes account of its text** exactly if nothing but blanks stands before the colons of
its arguments. Nothing at all stands before them, and then it does, exactly if each filter with an
argument has its colon directly behind its name. -/
theorem accounted_iff {content : List Char} {start : Nat} {value : Operand} {filters : Cursor}
    (hread : read? content start = .ok (some (value, filters)))
    (hdrained : (Cursor.readAll filterStep filters).error = none) :
    (Accounted content start value (Cursor.readAll filterStep filters).words ↔
      ∀ i c, content[i]? = some c →
        (∃ w ∈ (Cursor.readAll filterStep filters).words, w.Skips (start + i)) → isBlank c) ∧
    (Accounted content start value (Cursor.readAll filterStep filters).words ∧
        (∀ w ∈ (Cursor.readAll filterStep filters).words, ∀ place, ¬ w.Skips place) ↔
      ∀ w ∈ (Cursor.readAll filterStep filters).words, w.argument ≠ none →
        content[w.name.stop - start]? = some ':') := by
  obtain ⟨p, hp, rfl, hvalue, hwords⟩ := exists_chainPieces hread hdrained
  have heach := ChainPieces.eachAt_text hp start
  have hfirst : Accounted p.text start value (p.words start) ↔ ∀ i c, p.text[i]? = some c →
      (∃ w ∈ p.words start, w.Skips (start + i)) → isBlank c := by
    rw [Accounted, hvalue]
    refine forall₃_congr fun i c hc => ?_
    cases hblank : isBlank c with
    | true => exact iff_of_true nofun fun _ => rfl
    | false =>
      rw [heach i c hc hblank]
      exact ⟨fun h hskips => absurd hskips (h rfl), fun h _ hskips => nomatch h hskips⟩
  rw [hwords]
  refine ⟨hfirst, ?_⟩
  rw [← ChainPieces.colons_iff_forall_not_skips hp, hfirst]
  exact and_iff_right_of_imp fun h i c _ ⟨w, hw, hskips⟩ => absurd hskips (h w hw _)

/-- A bar in a quoted argument and blanks around filters are taken account of. -/
theorem accounted_quoted :
    Accounted " a|default:'b|c' | lower ".toList 2 ⟨.path, ⟨3, 1⟩⟩
        [⟨⟨5, 7⟩, some ⟨.text, ⟨13, 5⟩⟩⟩, ⟨⟨21, 5⟩, none⟩] ∧
      ∀ w ∈ [⟨⟨5, 7⟩, some ⟨.text, ⟨13, 5⟩⟩⟩, ⟨⟨21, 5⟩, none⟩], ∀ place,
        ¬ FilterWord.Skips w place := by
  have hread : read? " a|default:'b|c' | lower ".toList 2 =
      .ok (some (⟨.path, ⟨3, 1⟩⟩, ⟨5, "default:'b|c' | lower".toList⟩)) := rfl
  have hdrained :
      (Cursor.readAll filterStep ⟨5, "default:'b|c' | lower".toList⟩).error = none := rfl
  refine (accounted_iff hread hdrained).2.2 ?_
  decide +kernel

/-- **The text before a colon is lost.** The chain is read without an error, and nothing says that
`xyz` stands in it. -/
theorem not_accounted_before_colon :
    read? "a|default xyz:1".toList 0 =
        .ok (some (⟨.path, ⟨0, 1⟩⟩, ⟨2, "default xyz:1".toList⟩)) ∧
      (Cursor.readAll filterStep ⟨2, "default xyz:1".toList⟩).error = none ∧
      ¬ Accounted "a|default xyz:1".toList 0 ⟨.path, ⟨0, 1⟩⟩
        (Cursor.readAll filterStep ⟨2, "default xyz:1".toList⟩).words := by
  refine ⟨rfl, rfl, fun h => ?_⟩
  have hwords : (Cursor.readAll filterStep ⟨2, "default xyz:1".toList⟩).words =
      [⟨⟨2, 7⟩, some ⟨.numeric, ⟨14, 1⟩⟩⟩] := rfl
  rw [hwords] at h
  -- the `x` stands between the name and the colon
  rcases h 10 'x' rfl rfl with hvalue | ⟨w, hw, hcovers⟩ | hbar | hcolon
  · exact absurd hvalue.2 (by decide)
  · cases List.mem_singleton.1 hw
    rcases hcovers with hname | ⟨o, ho, hargument⟩
    · exact absurd hname.2 (by decide)
    · cases ho
      exact absurd hargument.1 (by decide)
  · cases hbar
  · cases hcolon

end Chain

end Galley
