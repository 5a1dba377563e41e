import Galley.Proofs.Account
import Galley.Proofs.Literals
import Mathlib

/-!
# The bars of a chain

Each filter of a chain stands behind a bar of its own, and each bar before a filter. Two places break
this: a colon behind an argument ends a filter just as a bar does, and behind the bar at the end of a
chain there is no filter. So bars and filters belong together exactly in the chains without these two.

* `Chain.bars`: the places of the bars, those in the value and in arguments apart.
* `Chain.Introduces`, `Chain.Barred`: each bar stands before its filter, and no colon does.
* `placesOf`: the places of characters in a text.
* `Piece.forall₂_bars`: filters one behind the other.
* `Chain.barred_iff`: **bars and filters belong together exactly if no colon stands between two filters
  and no bar behind the last one.**
-/

namespace Galley

open Text

variable {start place : Nat}

/-! ## Bars -/

instance (s : Span) (place : Nat) : Decidable (s.Covers place) := inferInstanceAs (Decidable (_ ∧ _))

/-- Where a filter ends, with its argument. -/
def FilterWord.stop (w : FilterWord) : Nat :=
  match w.argument with
  | none => w.name.stop
  | some a => a.span.stop

/-- A place in the argument of a filter. -/
def FilterWord.quotes (w : FilterWord) (place : Nat) : Bool :=
  w.argument.any fun a => a.span.Covers place

/-- The places of some characters of a text, the first of which has the place `start`. -/
def placesOf (start : Nat) (text : List Char) (P : Nat → Char → Bool) : List Nat :=
  match text with
  | [] => []
  | c :: rest => if P start c then start :: placesOf (start + 1) rest P else placesOf (start + 1) rest P

namespace Chain

/-- **The bars of a chain**, without those in its value and in its arguments. -/
def bars (content : List Char) (start : Nat) (value : Operand) (words : List FilterWord) : List Nat :=
  placesOf start content fun place c =>
    c = '|' && !decide (value.span.Covers place) && !words.any (·.quotes place)

/-- **A bar introduces a filter** if nothing but blanks stands between it and the name. -/
def Introduces (content : List Char) (start bar : Nat) (w : FilterWord) : Prop :=
  bar < w.name.start ∧ ∀ place c, bar < place → place < w.name.start →
    content[place - start]? = some c → isBlank c

/-- No colon stands between two filters that follow each other. -/
def ColonFree (content : List Char) (start : Nat) (words : List FilterWord) : Prop :=
  words.IsChain fun w next => ∀ place, w.stop ≤ place → place < next.name.start →
    content[place - start]? ≠ some ':'

/-- No bar stands behind the last filter, or behind the value if there is none. -/
def EndsBare (content : List Char) (start : Nat) (value : Operand) (words : List FilterWord) : Prop :=
  ∀ place, words.getLast?.elim value.span.stop FilterWord.stop ≤ place →
    content[place - start]? ≠ some '|'

/-- **Bars and filters belong together**: there are as many bars as filters, each bar introduces its own
filter, and no colon takes the place of a bar. -/
structure Barred (content : List Char) (start : Nat) (value : Operand) (words : List FilterWord) :
    Prop where
  introduced : List.Forall₂ (Introduces content start) (bars content start value words) words
  colonFree : ColonFree content start words

end Chain

namespace FilterWord

variable {w : FilterWord}

theorem quotes_iff : w.quotes place ↔ ∃ a, w.argument = some a ∧ a.span.Covers place := by
  unfold quotes
  cases w.argument with
  | none => exact iff_of_false nofun nofun
  | some a => simp

/-- Arguments are read, and lie before the end of the filter. -/
theorem covers_of_quotes (h : w.quotes place) : w.Covers place := .inr (quotes_iff.1 h)

theorem lt_stop_of_quotes (h : w.quotes place) : place < w.stop := by
  obtain ⟨a, ha, -, hlt⟩ := quotes_iff.1 h
  rw [stop, ha]
  exact hlt

end FilterWord

/-! ## Places of characters -/

section Places

variable {text : List Char} {P Q : Nat → Char → Bool} {f : Nat → Option Char}

theorem placesOf_append (start : Nat) (first second : List Char) (P : Nat → Char → Bool) :
    placesOf start (first ++ second) P =
      placesOf start first P ++ placesOf (start + first.length) second P := by
  induction first generalizing start with
  | nil => rfl
  | cons c rest ih =>
    rw [List.cons_append, placesOf, placesOf, ih, List.length_cons, Nat.add_comm rest.length 1,
      ← Nat.add_assoc]
    split
    · rfl
    · rfl

theorem placesOf_congr (h : EachAt start text fun place c => P place c = Q place c) :
    placesOf start text P = placesOf start text Q := by
  induction text generalizing start with
  | nil => rfl
  | cons c rest ih =>
    obtain ⟨hc, hrest⟩ := eachAt_cons.1 h
    rw [placesOf, placesOf, hc, ih hrest]

theorem placesOf_eq_nil (h : EachAt start text fun place c => P place c = false) :
    placesOf start text P = [] := by
  induction text generalizing start with
  | nil => rfl
  | cons c rest ih =>
    obtain ⟨hc, hrest⟩ := eachAt_cons.1 h
    rw [placesOf, hc, ih hrest]
    rfl

/-- A text that stands at its place has a character in it, or it is nowhere between its ends. -/
theorem forall_ne_iff_not_mem {c : Char} (h : EachAt start text fun place d => f place = some d) :
    (∀ place, start ≤ place → place < start + text.length → f place ≠ some c) ↔ c ∉ text := by
  constructor
  · intro hne hmem
    obtain ⟨i, hi⟩ := List.getElem?_of_mem hmem
    have hlt := (List.getElem?_eq_some_iff.1 hi).1
    exact hne (start + i) (Nat.le_add_right _ _) (Nat.add_lt_add_left hlt _) (h i c hi)
  · intro hnot place hle hlt heq
    obtain ⟨i, rfl⟩ := Nat.exists_eq_add_of_le hle
    have hlt := Nat.lt_of_add_lt_add_left hlt
    have hget : f (start + i) = some text[i] := h i text[i] (List.getElem?_eq_getElem hlt)
    rw [heq] at hget
    exact hnot (Option.some.inj hget ▸ List.getElem_mem hlt)

/-- The same for all that stands behind a place. -/
theorem forall_ne_iff_of_end {c : Char} (h : EachAt start text fun place d => f place = some d)
    (hend : ∀ place, start + text.length ≤ place → f place = none) :
    (∀ place, start ≤ place → f place ≠ some c) ↔ c ∉ text := by
  rw [← forall_ne_iff_not_mem h]
  refine ⟨fun hne place hle _ => hne place hle, fun hne place hle => ?_⟩
  rcases Nat.lt_or_ge place (start + text.length) with hlt | hge
  · exact hne place hle hlt
  · rw [hend place hge]
    nofun

/-- The characters of a text that is all blank. -/
theorem isBlank_at {c : Char} (h : EachAt start text fun place d => f place = some d)
    (hblank : allBlank text) (hle : start ≤ place) (hlt : place < start + text.length)
    (hc : f place = some c) : isBlank c := by
  obtain ⟨i, rfl⟩ := Nat.exists_eq_add_of_le hle
  have hlt := Nat.lt_of_add_lt_add_left hlt
  have hget : f (start + i) = some text[i] := h i text[i] (List.getElem?_eq_getElem hlt)
  rw [hc] at hget
  cases hget
  exact List.all_eq_true.1 hblank _ (List.getElem_mem hlt)

end Places

/-! ## The bars behind filters -/

namespace Piece

variable {p : Piece} {pieces : List Piece} {f : Nat → Option Char} {trailing : List Char}

/-- The bars that stand behind filters. -/
def bars : Nat → List Piece → List Nat
  | _, [] => []
  | start, p :: rest =>
    (if p.separator = ['|'] then [start + p.text.length - 1] else []) ++
      bars (start + p.text.length) rest

theorem stop_word (p : Piece) (start : Nat) :
    (p.word start).stop = start + p.blanks.length + p.name.length + p.argumentText.length := by
  unfold FilterWord.stop argumentText word
  cases p.argument with
  | none => rfl
  | some a =>
    simp only [Option.map_some, Span.stop, List.length_append, List.length_cons]
    omega

theorem name_start_word (p : Piece) (start : Nat) :
    (p.word start).name.start = start + p.blanks.length := rfl

/-- **In the text of a filter** there is one bar outside of the argument, if it ends with one. -/
theorem placesOf_text (hp : p.Valid) (start : Nat) :
    placesOf start p.text (fun place c => c = '|' && !(p.word start).quotes place) =
      if p.separator = ['|'] then [start + p.text.length - 1] else [] := by
  have hno {start' : Nat} {part : List Char} (h : '|' ∉ part) :
      placesOf start' part (fun place c => c = '|' && !(p.word start).quotes place) = [] := by
    refine placesOf_eq_nil fun i c hc => ?_
    have hne : c ≠ '|' := fun heq => h (heq ▸ List.mem_of_getElem? hc)
    simp [hne]
  have hbar : isBlank '|' = false := by decide +kernel
  have hname : '|' ∉ p.name := fun hmem => by
    have := hp.name '|' hmem
    revert this
    decide +kernel
  -- a bar in the argument is part of it
  have hargument : placesOf (start + p.blanks.length + p.name.length) p.argumentText
      (fun place c => c = '|' && !(p.word start).quotes place) = [] := by
    cases ha : p.argument with
    | none =>
      rw [argumentText, ha]
      rfl
    | some a =>
      have hword : (p.word start).argument = some ⟨a.kind,
          ⟨start + p.blanks.length + p.name.length + a.gap.length + 1, a.text.length⟩⟩ := by
        rw [word, ha]
        rfl
      rw [argumentText, ha]
      refine placesOf_eq_nil (eachAt_append.2 ⟨?_, eachAt_cons.2 ⟨rfl, ?_⟩⟩)
      · intro i c hc
        have hne := (hp.gap a ha c (List.mem_of_getElem? hc)).1
        simp [hne]
      · refine eachAt_of_forall fun place hle hlt c _ => ?_
        have hquotes : (p.word start).quotes place = true := by
          rw [FilterWord.quotes, hword]
          exact decide_eq_true ⟨hle, hlt⟩
        rw [hquotes]
        exact Bool.and_false _
  have hlength := p.length_text
  change placesOf start (p.blanks ++ (p.name ++ (p.argumentText ++ (p.spaces ++ p.separator)))) _ = _
  rw [placesOf_append, placesOf_append, placesOf_append, placesOf_append,
    hno (not_mem_of_allBlank hp.blanks hbar), hno hname, hargument,
    hno (not_mem_of_allBlank hp.spaces hbar)]
  have hquotes {place : Nat} (hle : (p.word start).stop ≤ place) :
      (p.word start).quotes place = false :=
    Bool.eq_false_iff.2 fun h => Nat.not_lt.2 hle (FilterWord.lt_stop_of_quotes h)
  rw [stop_word] at hquotes
  rcases hp.separator with hsep | hsep | hsep
  · rw [hsep, if_neg (by decide)]
    rfl
  · have hplace : start + p.blanks.length + p.name.length + p.argumentText.length +
        p.spaces.length = start + p.text.length - 1 := by
      rw [hsep, List.length_singleton] at hlength
      omega
    rw [hsep, if_pos rfl, placesOf, hquotes (by omega), hplace]
    rfl
  · rw [hsep, if_neg (by decide)]
    rfl

/-- **In the text of filters** the bars outside of arguments stand behind the filters. -/
theorem placesOf_flatMap (hp : ∀ p ∈ pieces, p.Valid) (start : Nat) :
    placesOf start (pieces.flatMap text)
        (fun place c => c = '|' && !(words start pieces).any (·.quotes place)) =
      bars start pieces := by
  induction pieces generalizing start with
  | nil => rfl
  | cons p rest ih =>
    obtain ⟨hfirst, hrest⟩ := List.forall_mem_cons.1 hp
    rw [List.flatMap_cons, placesOf_append, bars, ← placesOf_text hfirst, ← ih hrest]
    congr 1
    · -- the filters behind this one are not yet reached
      refine placesOf_congr fun i c hc => ?_
      have hlt := (List.getElem?_eq_some_iff.1 hc).1
      have hnone : (words (start + p.text.length) rest).any (·.quotes (start + i)) = false := by
        refine List.any_eq_false.2 fun w hw hquotes => ?_
        have := bounds_of_mem_words hw (.inl (FilterWord.covers_of_quotes hquotes))
        omega
      simp only [words, List.any_cons, hnone, Bool.or_false]
    · -- this one is passed
      refine placesOf_congr fun i c _ => ?_
      have hnot : (p.word start).quotes (start + p.text.length + i) = false := by
        refine Bool.eq_false_iff.2 fun hquotes => ?_
        have := bounds_of_covers_or_skips (.inl (FilterWord.covers_of_quotes hquotes))
        omega
      simp only [words, List.any_cons, hnot, Bool.false_or]

/-! ## What stands between filters -/

/-- What stands behind a filter. -/
theorem eachAt_behind {after : List Char} {P : Nat → Char → Prop}
    (h : EachAt start (p.text ++ after) P) :
    EachAt (p.word start).stop (p.spaces ++ (p.separator ++ after)) P := by
  have htext : p.text ++ after =
      (p.blanks ++ (p.name ++ p.argumentText)) ++ (p.spaces ++ (p.separator ++ after)) := by
    simp only [text, List.append_assoc]
  rw [htext, eachAt_append] at h
  have hstop : (p.word start).stop =
      start + (p.blanks ++ (p.name ++ p.argumentText)).length := by
    rw [stop_word, List.length_append, List.length_append]
    omega
  rw [hstop]
  exact h.2

/-- **No colon stands between filters** exactly if a bar stands behind each but the last. -/
theorem isChain_bar_iff (hp : ∀ p ∈ pieces, p.Valid) (hs : Separated pieces)
    (h : EachAt start (pieces.flatMap text) fun place c => f place = some c) :
    (words start pieces).IsChain (fun w next =>
        ∀ place, w.stop ≤ place → place < next.name.start → f place ≠ some ':') ↔
      pieces.IsChain fun p _ => p.separator = ['|'] := by
  induction pieces generalizing start with
  | nil => exact iff_of_true List.IsChain.nil List.IsChain.nil
  | cons p rest ih =>
    obtain ⟨hfirst, hrest⟩ := List.forall_mem_cons.1 hp
    cases rest with
    | nil => exact iff_of_true (List.IsChain.singleton _) (List.IsChain.singleton _)
    | cons q rest =>
      obtain ⟨hsep, hs⟩ := List.isChain_cons_cons.1 hs
      have hq := hrest q List.mem_cons_self
      have hih := ih hrest hs (eachAt_append.1 h).2
      -- between the two stand the separator and blanks
      have hbetween : (∀ place, (p.word start).stop ≤ place →
          place < (q.word (start + p.text.length)).name.start → f place ≠ some ':') ↔
            p.separator = ['|'] := by
        have htext : (p :: q :: rest).flatMap text =
            (p.text ++ q.blanks) ++ (q.name ++ (q.argumentText ++ (q.spaces ++ q.separator)) ++
              rest.flatMap text) := by
          simp only [List.flatMap_cons, text, List.append_assoc]
        rw [htext, eachAt_append] at h
        have hne := forall_ne_iff_not_mem (c := ':') (eachAt_behind h.1)
        have hend : (p.word start).stop + (p.spaces ++ (p.separator ++ q.blanks)).length =
            (q.word (start + p.text.length)).name.start := by
          rw [stop_word, name_start_word, length_text]
          simp only [List.length_append]
          omega
        rw [hend] at hne
        rw [hne]
        have hcolon : isBlank ':' = false := by decide +kernel
        rw [List.mem_append, List.mem_append, not_or, not_or]
        have h1 := not_mem_of_allBlank hfirst.spaces hcolon
        have h2 := not_mem_of_allBlank hq.blanks hcolon
        rcases hfirst.separator with hsep' | hsep' | hsep'
        · exact absurd hsep' hsep
        · rw [hsep']
          exact iff_of_true ⟨h1, by decide, h2⟩ rfl
        · rw [hsep']
          exact iff_of_false (fun h => h.2.1 (List.mem_singleton.2 rfl)) (by decide)
      rw [List.isChain_cons_cons, ← hbetween, ← hih]
      exact List.isChain_cons_cons

/-- The last filter has no bar behind it exactly if it does not end with one. -/
theorem forall_ne_bar_iff (hp : ∀ p ∈ pieces, p.Valid) (hne : pieces ≠ [])
    (h : EachAt start (pieces.flatMap text ++ trailing) fun place c => f place = some c)
    (htrailing : allBlank trailing)
    (hend : ∀ place, start + (pieces.flatMap text ++ trailing).length ≤ place → f place = none)
    (other : Nat) :
    (∀ place, (words start pieces).getLast?.elim other FilterWord.stop ≤ place →
        f place ≠ some '|') ↔ ∀ p ∈ pieces.getLast?, p.separator ≠ ['|'] := by
  induction pieces generalizing start with
  | nil => exact absurd rfl hne
  | cons p rest ih =>
    obtain ⟨hfirst, hrest⟩ := List.forall_mem_cons.1 hp
    cases rest with
    | nil =>
      rw [List.flatMap_singleton] at h hend
      have hlength : start + (p.text ++ trailing).length =
          (p.word start).stop + (p.spaces ++ (p.separator ++ trailing)).length := by
        rw [List.length_append, length_text, stop_word]
        simp only [List.length_append]
        omega
      rw [hlength] at hend
      have hbehind := forall_ne_iff_of_end (c := '|') (eachAt_behind h) hend
      have hbar : isBlank '|' = false := by decide +kernel
      have h1 := not_mem_of_allBlank hfirst.spaces hbar
      have h2 := not_mem_of_allBlank htrailing hbar
      refine hbehind.trans ?_
      rw [List.mem_append, List.mem_append, not_or, not_or]
      rcases hfirst.separator with hsep | hsep | hsep
      all_goals simp [hsep, h1, h2]
    | cons q rest =>
      rw [List.flatMap_cons, List.append_assoc] at h hend
      rw [List.length_append, ← Nat.add_assoc] at hend
      have hih := ih hrest (List.cons_ne_nil _ _) (eachAt_append.1 h).2 hend
      exact hih

/-- **Filters behind bars**: if a bar stands behind each but the last, and one before the first, then
each bar introduces the filter behind it, unless the last bar has no filter behind it. -/
theorem forall₂_bars (hp : ∀ p ∈ pieces, p.Valid) (hne : pieces ≠ [])
    (hbars : pieces.IsChain fun p _ => p.separator = ['|'])
    (h : EachAt start (pieces.flatMap text) fun place c => f place = some c) (bar : Nat)
    (hbar : bar < start)
    (hblank : ∀ place c, bar < place → place < start → f place = some c → isBlank c) :
    List.Forall₂ (fun bar w => bar < w.name.start ∧ ∀ place c, bar < place →
        place < w.name.start → f place = some c → isBlank c)
      (bar :: bars start pieces) (words start pieces) ↔
    ∀ p ∈ pieces.getLast?, p.separator ≠ ['|'] := by
  induction pieces generalizing start bar with
  | nil => exact absurd rfl hne
  | cons p rest ih =>
    obtain ⟨hfirst, hrest⟩ := List.forall_mem_cons.1 hp
    rw [List.flatMap_cons] at h
    have hintroduced : bar < (p.word start).name.start ∧ ∀ place c, bar < place →
        place < (p.word start).name.start → f place = some c → isBlank c := by
      rw [name_start_word]
      refine ⟨by omega, fun place c hgt hlt hc => ?_⟩
      rcases Nat.lt_or_ge place start with hbefore | hge
      · exact hblank place c hgt hbefore hc
      · exact isBlank_at (eachAt_append.1 (eachAt_append.1 h).1).1 hfirst.blanks hge hlt hc
    cases rest with
    | nil =>
      rw [words, words, List.forall₂_cons, and_iff_right hintroduced, bars, bars, List.append_nil,
        List.forall₂_nil_right_iff]
      simp
    | cons q rest =>
      obtain ⟨hsep, hbars⟩ := List.isChain_cons_cons.1 hbars
      have hpos := length_text_pos hfirst
      have hih := ih hrest (List.cons_ne_nil _ _) hbars (eachAt_append.1 h).2
        (start + p.text.length - 1) (by omega) fun place c hgt hlt => by omega
      rw [bars, if_pos hsep, words, List.forall₂_cons, List.singleton_append, hih, List.getLast?_cons_cons]
      exact and_iff_right hintroduced

end Piece

/-! ## Whole chains -/

namespace ChainPieces

variable {p : ChainPieces} {kind : OperandKind} {value : Operand}

/-- Where the first bar stands. -/
def barStart (start : Nat) (p : ChainPieces) : Nat :=
  start + p.blanks.length + p.value.length + p.spaces.length

/-- **In the text of a chain** the bars outside of the value and of arguments are the first one and those
behind filters. -/
theorem bars_text (hp : p.Valid kind) (hvalue : value.span = p.valueSpan start) :
    Chain.bars p.text start value (p.words start) =
      (if p.bar = [] then [] else [p.barStart start]) ++ Piece.bars (p.filtersStart start) p.filters := by
  have hbar : isBlank '|' = false := by decide +kernel
  have hno {start' : Nat} {part : List Char} (h : '|' ∉ part) :
      placesOf start' part (fun place c => c = '|' && !decide (value.span.Covers place) &&
        !(p.words start).any (·.quotes place)) = [] := by
    refine placesOf_eq_nil fun i c hc => ?_
    have hne : c ≠ '|' := fun heq => h (heq ▸ List.mem_of_getElem? hc)
    simp [hne]
  have hlater {place : Nat} (h : (p.words start).any (·.quotes place)) :
      p.filtersStart start ≤ place := by
    obtain ⟨w, hw, hquotes⟩ := List.any_eq_true.1 h
    exact (Piece.bounds_of_mem_words hw (.inl (FilterWord.covers_of_quotes hquotes))).1
  have hbehind {place : Nat} (h : p.barStart start ≤ place) :
      decide (value.span.Covers place) = false := by
    refine decide_eq_false fun hcovers => ?_
    have hlt := hcovers.2
    rw [hvalue] at hlt
    simp only [valueSpan, Span.stop, barStart] at hlt h
    omega
  have hstart : p.filtersStart start = p.barStart start + p.bar.length := rfl
  have hcovered : placesOf (start + p.blanks.length) p.value (fun place c => c = '|' &&
      !decide (value.span.Covers place) && !(p.words start).any (·.quotes place)) = [] := by
    refine placesOf_eq_nil (eachAt_of_forall fun place hle hlt c _ => ?_)
    have hcovers : decide (value.span.Covers place) = true := by
      rw [hvalue]
      exact decide_eq_true ⟨hle, hlt⟩
    rw [hcovers, Bool.not_true, Bool.and_false, Bool.false_and]
  change placesOf start (p.blanks ++ (p.value ++ (p.spaces ++ (p.bar ++
    (p.filters.flatMap Piece.text ++ p.trailing))))) _ = _
  rw [placesOf_append, placesOf_append, placesOf_append, placesOf_append, placesOf_append,
    hno (not_mem_of_allBlank hp.blanks hbar), hcovered, hno (not_mem_of_allBlank hp.spaces hbar),
    hno (not_mem_of_allBlank hp.trailing hbar), List.nil_append, List.nil_append, List.nil_append,
    List.append_nil]
  congr 1
  · rcases hp.bar with ⟨hnil, -⟩ | ⟨blanks, hblanks, hfirst⟩
    · rw [if_pos hnil, hnil]
      rfl
    · have hnot : (p.words start).any (·.quotes (p.barStart start)) = false := by
        refine Bool.eq_false_iff.2 fun h => ?_
        have := hlater h
        rw [hstart, hfirst, List.length_cons] at this
        omega
      rw [if_neg (by rw [hfirst]; exact List.cons_ne_nil _ _), hfirst, placesOf, hno (not_mem_of_allBlank hblanks hbar)]
      change (if (_ && !decide (value.span.Covers (p.barStart start)) &&
        !(p.words start).any (·.quotes (p.barStart start))) = true then [p.barStart start] else []) = _
      rw [hbehind (Nat.le_refl _), hnot]
      rfl
  · rw [← Piece.placesOf_flatMap hp.filters]
    refine placesOf_congr fun i c _ => ?_
    change (c = '|' && !decide (value.span.Covers (p.filtersStart start + i)) && _) = _
    rw [hbehind (by omega), Bool.not_false, Bool.and_true]
    rfl

theorem standsIn_text (p : ChainPieces) (start : Nat) :
    EachAt start p.text fun place c => p.text[place - start]? = some c := by
  intro i c hc
  rwa [Nat.add_sub_cancel_left]

theorem none_of_le (p : ChainPieces) {start place : Nat} (h : start + p.text.length ≤ place) :
    p.text[place - start]? = none :=
  List.getElem?_eq_none (by omega)

/-- Without a filter nothing may stand behind the value but blanks. -/
theorem endsBare_iff_of_nil (hp : p.Valid kind) (hvalue : value.span = p.valueSpan start)
    (hnil : p.filters = []) : Chain.EndsBare p.text start value (p.words start) ↔ p.bar = [] := by
  have hbar : isBlank '|' = false := by decide +kernel
  have hbehind := (eachAt_append.1 (eachAt_append.1 (p.standsIn_text start)).2).2
  have hend := forall_ne_iff_of_end (c := '|') hbehind fun place h => p.none_of_le <| by
    simp only [text, List.length_append] at h ⊢
    omega
  have hstop : value.span.stop = start + p.blanks.length + p.value.length := by rw [hvalue]; rfl
  rw [words, hnil]
  change (∀ place, value.span.stop ≤ place → _) ↔ _
  rw [hstop, hend, hnil]
  have h1 := not_mem_of_allBlank hp.spaces hbar
  have h2 := not_mem_of_allBlank hp.trailing hbar
  rcases hp.bar with ⟨hbar, -⟩ | ⟨blanks, -, hbar⟩
  · simp [hbar, h1, h2]
  · simp [hbar]

end ChainPieces

namespace Chain

/-- **Bars and filters belong together** exactly if no colon stands between two filters and no bar
behind the last one, or behind the value if there is none. -/
theorem barred_iff {content : List Char} {start : Nat} {value : Operand} {filters : Cursor}
    (hread : read? content start = .ok (some (value, filters)))
    (hdrained : (Cursor.readAll filterStep filters).error = none) :
    Barred content start value (Cursor.readAll filterStep filters).words ↔
      ColonFree content start (Cursor.readAll filterStep filters).words ∧
        EndsBare content start value (Cursor.readAll filterStep filters).words := by
  obtain ⟨p, hp, rfl, hvalue, hwords⟩ := exists_chainPieces hread hdrained
  rw [hwords]
  have hbars := ChainPieces.bars_text hp hvalue
  have hboth : Barred p.text start value (p.words start) ↔
      List.Forall₂ (Introduces p.text start) (bars p.text start value (p.words start))
        (p.words start) ∧ ColonFree p.text start (p.words start) :=
    ⟨fun h => ⟨h.introduced, h.colonFree⟩, fun h => ⟨h.1, h.2⟩⟩
  rw [hboth, and_comm]
  refine and_congr_right fun hfree => ?_
  by_cases hnil : p.filters = []
  · rw [ChainPieces.endsBare_iff_of_nil hp hvalue hnil, hbars, ChainPieces.words, hnil, Piece.bars,
      Piece.words, List.append_nil, List.forall₂_nil_right_iff]
    simp
  · -- the filters stand behind the first bar and blanks
    obtain ⟨blanks, hblanks, hbar⟩ := hp.bar.resolve_left fun h => hnil h.2
    have hbehind := (eachAt_append.1 (eachAt_append.1 (eachAt_append.1 (p.standsIn_text start)).2).2).2
    obtain ⟨hfirst, hfilters⟩ := eachAt_append.1 hbehind
    have hstart : p.filtersStart start = p.barStart start + 1 + blanks.length := by
      rw [ChainPieces.filtersStart, hbar, List.length_cons, ChainPieces.barStart]
      omega
    have hlast := Piece.forall_ne_bar_iff hp.filters hnil hfilters hp.trailing
      (fun place h => p.none_of_le <| by
        simp only [ChainPieces.text, List.length_append] at h ⊢
        omega) value.span.stop
    have hchain := (Piece.isChain_bar_iff hp.filters hp.separated (eachAt_append.1 hfilters).1).1 hfree
    rw [hbar] at hfirst
    have hintroduced := Piece.forall₂_bars hp.filters hnil hchain (eachAt_append.1 hfilters).1
      (p.barStart start)
      (show p.barStart start < p.filtersStart start by omega)
      fun place c hgt (hlt : place < p.filtersStart start) hc =>
        isBlank_at (eachAt_cons.1 hfirst).2 hblanks hgt (hstart ▸ hlt) hc
    rw [hbars, if_neg (by rw [hbar]; exact List.cons_ne_nil _ _), List.singleton_append]
    exact hintroduced.trans hlast.symm

/-- A bar in a quoted argument is none of them. -/
theorem barred_quoted :
    Barred " a|default:'b|c' | lower ".toList 2 ⟨.path, ⟨3, 1⟩⟩
      [⟨⟨5, 7⟩, some ⟨.text, ⟨13, 5⟩⟩⟩, ⟨⟨21, 5⟩, none⟩] := by
  have hread : read? " a|default:'b|c' | lower ".toList 2 =
      .ok (some (⟨.path, ⟨3, 1⟩⟩, ⟨5, "default:'b|c' | lower".toList⟩)) := rfl
  have hdrained :
      (Cursor.readAll filterStep ⟨5, "default:'b|c' | lower".toList⟩).error = none := rfl
  refine (barred_iff hread hdrained).2 ⟨List.isChain_pair.2 fun place hle hlt => ?_, ?_⟩
  · have hbetween : ∀ place < 21, 18 ≤ place →
        " a|default:'b|c' | lower ".toList[place - 2]? ≠ some ':' := by decide +kernel
    exact hbetween place hlt hle
  · have hbehind : ∀ place < 27, 26 ≤ place →
        " a|default:'b|c' | lower ".toList[place - 2]? ≠ some '|' := by decide +kernel
    intro place hle
    rcases Nat.lt_or_ge place 27 with hlt | hge
    · exact hbehind place hlt hle
    · rw [List.getElem?_eq_none (Nat.sub_le_sub_right hge 2)]
      nofun

/-- **A colon in the place of a bar.** The chain is read without an error, and has two filters but one
bar. -/
theorem not_barred_behind_argument :
    read? "a|add:1:lower".toList 0 = .ok (some (⟨.path, ⟨0, 1⟩⟩, ⟨2, "add:1:lower".toList⟩)) ∧
      (Cursor.readAll filterStep ⟨2, "add:1:lower".toList⟩).error = none ∧
      (Cursor.readAll filterStep ⟨2, "add:1:lower".toList⟩).words =
        [⟨⟨2, 3⟩, some ⟨.numeric, ⟨6, 1⟩⟩⟩, ⟨⟨8, 5⟩, none⟩] ∧
      bars "a|add:1:lower".toList 0 ⟨.path, ⟨0, 1⟩⟩
        [⟨⟨2, 3⟩, some ⟨.numeric, ⟨6, 1⟩⟩⟩, ⟨⟨8, 5⟩, none⟩] = [1] ∧
      ¬ Barred "a|add:1:lower".toList 0 ⟨.path, ⟨0, 1⟩⟩
        [⟨⟨2, 3⟩, some ⟨.numeric, ⟨6, 1⟩⟩⟩, ⟨⟨8, 5⟩, none⟩] := by
  have hbars : bars "a|add:1:lower".toList 0 ⟨.path, ⟨0, 1⟩⟩
      [⟨⟨2, 3⟩, some ⟨.numeric, ⟨6, 1⟩⟩⟩, ⟨⟨8, 5⟩, none⟩] = [1] := by decide +kernel
  refine ⟨rfl, rfl, rfl, hbars, fun h => ?_⟩
  have hcount := h.introduced.length_eq
  rw [hbars] at hcount
  cases hcount

end Chain

end Galley
