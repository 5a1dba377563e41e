import Galley.Proofs.Steps
import Galley.Words.Chain

/-!
# Filter chains stand in the text

The value of a chain, the names of its filters and their arguments are spans of the template text.

* `FilterWord.StandsIn`: a filter whose name and argument lie in the text.
* `Chain.settles_read`: the value, and the cursor at the first filter.
* `Chain.settles_filterWord`, `Chain.sound_filterStep`: one filter after the other.
-/

namespace Galley

open Cursor Text

variable {source content : List Char} {c : Cursor} {start : Nat}

/-- A filter word stands in a text with its name and its argument. -/
structure FilterWord.StandsIn (w : FilterWord) (source : List Char) : Prop where
  name : w.name.Within source
  argument : ∀ a, w.argument = some a → a.StandsIn source

namespace Chain

theorem settles_head (h : c.Reads source) (hne : c.rest ≠ []) :
    Settles source (c.TookOperand source) (head c) := by
  unfold head
  split
  · next hr => exact settles_translation h hr
  · next first rest _ hr =>
    split
    · next hq => exact settles_literal h hr hq
    · split
      · exact tookOperand_numeral h
      · exact name
  · next hr => exact absurd hr hne
where
  name : Settles source (c.TookOperand source) (head.name c) := by
    have hle := pathLength_le c.rest
    have hlen := h.add_length_le
    have htake : (c.rest.take (pathLength c.rest)).length = pathLength c.rest := by
      rw [List.length_take]
      omega
    unfold head.name
    dsimp only
    split
    · exact settles_lexical (h.within (Nat.le_trans (Nat.le_add_left _ _)
        (blankLength_add_length_trim_le c.rest))) rfl
    · split
      · refine (settles_checkPath (by rw [List.length_dropLast, htake]; omega)).bind fun _ _ => ?_
        have := wordLength_le (c.advance (pathLength c.rest)).rest
        exact settles_lexical ((h.advance hle).within (by omega)) rfl
      · refine (settles_checkPath (by rw [htake]; omega)).bind fun _ _ => ?_
        have hn := took_take hle
        exact settles_pure ⟨Operand.standsIn_of_took h hn (.inr rfl), _, hn⟩

theorem reads_filters (h : c.Reads source) : (filters c).Reads source := by
  have hle := lengthBefore_le '|' c.rest
  unfold filters
  dsimp only
  split
  · exact (h.advance hle).finish
  · exact (h.advance (by omega)).trimmed

theorem start_le_filters (c : Cursor) : c.start ≤ (filters c).start := by
  unfold filters
  dsimp only
  split
  · exact Nat.le_add_right _ _
  · exact Nat.le_trans (Nat.le_add_right _ _) (Nat.le_add_right _ _)

/-- A gap that is no more than blanks, or is refused where it stands. -/
theorem settles_checkGap {o : Operand} (h : c.Reads source) (hs : o.span.stop = c.start) :
    Settles source (fun _ => True) (checkGap o c) := by
  have hgap : (c.rest.take (lengthBefore '|' c.rest)).length ≤ c.rest.length :=
    (List.take_sublist _ _).length_le
  have hlen := h.add_length_le
  unfold checkGap
  dsimp only
  split
  · trivial
  · split
    · have := (trimEnd_prefix_self (c.rest.take (lengthBefore '|' c.rest))).length_le
      refine settles_lexical ?_ rfl
      simp only [Span.Within, Span.stop] at hs ⊢
      omega
    · have := blankLength_add_length_trim_le (c.rest.take (lengthBefore '|' c.rest))
      refine settles_lexical ?_ rfl
      simp only [Span.Within, Span.stop]
      omega

/-- **A chain** has its value and its filters in the text. -/
theorem settles_read (h : (⟨start, content⟩ : Cursor).Reads source) :
    Settles source (fun chain => ∀ value behind, chain = some (value, behind) →
      value.StandsIn source ∧ behind.Reads source ∧ start ≤ value.span.start ∧
        start ≤ behind.start) (read? content start) := by
  unfold read?
  dsimp only
  split
  · exact settles_pure nofun
  · next hne =>
    have hbare : (⟨start + (content.length - (trimStart content).length), trimStart content⟩ :
        Cursor).Reads source := by
      have := blankLength_add_length_trimStart content
      rw [← drop_blankLength, show content.length - (content.drop (blankLength content)).length =
        blankLength content by rw [drop_blankLength]; omega]
      exact h.advance (blankLength_le content)
    refine (settles_head hbare (by simpa using hne)).bind fun r ⟨hstands, n, hn, heq⟩ => ?_
    have hbehind : r.2.Reads source := (hbare.took ⟨hn, heq⟩).2
    have hfilters := start_le_filters r.2
    simp only [Prod.mk.injEq] at heq
    refine (settles_checkGap hbehind ?_).bind fun _ _ => settles_pure ?_
    · rw [heq.1, heq.2]
      rfl
    · intro value behind hsome
      cases hsome
      refine ⟨hstands, reads_filters hbehind, ?_, ?_⟩
      · rw [heq.1]
        exact Nat.le_add_right _ _
      · refine Nat.le_trans ?_ hfilters
        rw [heq.2]
        exact Nat.le_trans (Nat.le_add_right _ _) (Nat.le_add_right _ _)

/-- What the reader of an argument answers: the argument, if there is one, and a cursor further on. -/
def TookArgument (source : List Char) (c : Cursor) (r : Option Operand × Cursor) : Prop :=
  (∀ a, r.1 = some a → a.StandsIn source) ∧ c.Follows r.2

theorem tookArgument_some {o : Operand} {b behind : Cursor} (hb : c.Follows b)
    (h : b.TookOperand source (o, behind)) : TookArgument source c (some o, behind) := by
  obtain ⟨hstands, n, hn, heq⟩ := h
  simp only [Prod.mk.injEq] at heq
  refine ⟨fun a ha => ?_, hb.trans ⟨n, hn, heq.2⟩⟩
  cases ha
  exact hstands

theorem settles_argument (h : c.Reads source) :
    Settles source (TookArgument source c) (argument c) := by
  have hcolon := lengthBefore_le ':' c.rest
  unfold argument
  dsimp only
  split
  · exact settles_pure ⟨nofun, 0, Nat.zero_le _, rfl⟩
  · next hno =>
    simp only [Bool.or_eq_true, decide_eq_true_eq, not_or] at hno
    have hm : lengthBefore ':' c.rest + 1 ≤ c.rest.length := by omega
    have hbehind : (c.advance (lengthBefore ':' c.rest + 1)).Reads source := h.advance hm
    have hf : c.Follows (c.advance (lengthBefore ':' c.rest + 1)) := ⟨_, hm, rfl⟩
    split
    · -- nothing stands behind the colon
      have hlen := h.add_length_le
      refine settles_lexical ?_ rfl
      simp only [Span.Within, Span.stop, Cursor.advance]
      omega
    · next hr =>
      refine (settles_translated hbehind hr).map fun r hr => ?_
      obtain ⟨n, hn, hl, h5⟩ := hr
      exact tookArgument_some hf ⟨Operand.standsIn_translated hbehind hn hl h5, _, hn⟩
    · exact settles_lexical (hbehind.within (wordLength_le _)) rfl
    · next first rest _ _ hr =>
      split
      · next hq =>
        refine (settles_quotedText hbehind hr hq).map fun r hr => ?_
        obtain ⟨n, hn, hl, h2⟩ := hr
        exact tookArgument_some hf ⟨Operand.standsIn_text hbehind hn hl h2, _, hn⟩
      · split
        · exact tookArgument_some hf (tookOperand_numeral hbehind)
        · refine (settles_path hbehind).map fun r hr => ?_
          obtain ⟨n, hn⟩ := hr
          exact tookArgument_some hf ⟨Operand.standsIn_of_took hbehind hn (.inr rfl), _, hn⟩

theorem settles_separator (h : c.Reads source) :
    Settles source (c.Follows ·) (separator c) := by
  have hlen := h.add_length_le
  unfold separator
  dsimp only
  split
  · exact settles_pure ⟨_, Nat.min_le_right _ _, rfl⟩
  · -- the gap is a part of what is left to read
    have hgap := blankLength_add_length_trim_le
      (c.rest.take (min (lengthBefore '|' c.rest) (lengthBefore ':' c.rest)))
    rw [List.length_take] at hgap
    refine settles_lexical ?_ rfl
    simp only [Span.Within, Span.stop]
    omega

/-- **A filter** is taken with its argument and what separates it from the next one. -/
theorem settles_filterWord (h : c.Reads source) :
    Settles source (fun r => r.1.StandsIn source ∧ c.Passed r.2 ∧ c.start ≤ r.1.name.start ∧
      r.1.name.Before r.2.start) (filterWord c) := by
  have hblank := blankLength_le c.rest
  have hstart : (c.advance (blankLength c.rest)).Reads source := h.advance hblank
  have hname := (List.takeWhile_sublist (l := (c.advance (blankLength c.rest)).rest)
    isNameChar).length_le
  unfold filterWord
  dsimp only
  split
  · exact settles_lexical (hstart.within (lengthBefore_le _ _)) rfl
  · next hno =>
    simp only [Bool.or_eq_true, decide_eq_true_eq, not_or] at hno
    have hf : c.Follows (c.advance (blankLength c.rest)) := ⟨_, hblank, rfl⟩
    have hp : (c.advance (blankLength c.rest)).Passed ((c.advance (blankLength c.rest)).advance _) :=
      ⟨_, Nat.pos_of_ne_zero hno.1, hname, rfl⟩
    refine (settles_argument (hstart.advance hname)).bind fun r ⟨hargument, hbehind⟩ => ?_
    refine (settles_separator ((hstart.advance hname).follows hbehind)).bind fun next hnext => ?_
    have hlast := (hbehind.trans hnext).start_le
    refine settles_pure ⟨⟨hstart.within hname, hargument⟩, ?_, hf.start_le, ?_, hlast⟩
    · exact (hf.passed hp).follows (hbehind.trans hnext)
    · exact Nat.lt_of_lt_of_le hp.start_lt hlast

theorem sound_filterStep : filterStep.Sound source (·.StandsIn source) :=
  Step.sound_ofRead fun _ hc _ => (settles_filterWord hc).mono fun _ h => ⟨h.1, h.2.1⟩

/-- **The filters of a chain** stand behind the cursor that they are read from. -/
theorem start_le_of_mem_words (h : c.Reads source) :
    ∀ word ∈ (readAll filterStep c).words, c.start ≤ word.name.start := by
  have hplace (c : Cursor) (word : FilterWord) (next : Cursor) (hc : c.Reads source)
      (hstep : filterStep c = some (.ok word, next)) :
      c.start ≤ word.name.start ∧ word.name.Before next.start :=
    ((settles_filterWord hc).of_ok (Step.read_of_ofRead hstep).2).2.2
  exact (sound_filterStep.pairwise_readUpTo (·.name) hplace _ h).1

end Chain

end Galley
