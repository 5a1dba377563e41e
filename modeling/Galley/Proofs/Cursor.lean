import Galley.Compile.Expression
import Galley.Proofs.Outcome

/-!
# Cursors on a text

A cursor reads a text if what it has left to read stands in the text where the cursor says. Every
reader of literals and paths keeps this: it answers a span of characters that it took, and the
cursor behind them.

* `Cursor.Reads`: the invariant.
* `Cursor.Took`: the result of a reader that took characters.
* `Cursor.Follows`, `Cursor.Passed`: a cursor behind another one, and one further on.
* `Operand.StandsIn`: an operand lies in a text, and if it is a literal it has its quotes.
* `settles_operand`, `settles_path`, `settles_separated`: the readers.
-/

namespace Galley

variable {α : Type} {source rest : List Char} {c : Cursor} {n : Nat} {span : Span}

/-! ## The invariant -/

namespace Cursor

/-- A cursor **reads** a text if what is left to read stands in the text where the cursor starts. -/
def Reads (c : Cursor) (source : List Char) : Prop :=
  c.start ≤ source.length ∧ c.rest <+: source.drop c.start

/-- A reader **took** the next `n` characters. -/
def Took (c : Cursor) (n : Nat) (r : Span × Cursor) : Prop :=
  n ≤ c.rest.length ∧ r = (c.ahead n, c.advance n)

theorem took_take (h : n ≤ c.rest.length) : c.Took n (c.take n) := ⟨h, rfl⟩

theorem advance_advance (c : Cursor) (m n : Nat) : (c.advance m).advance n = c.advance (m + n) := by
  simp only [advance, List.drop_drop, Nat.add_assoc]

theorem length_advance (c : Cursor) (n : Nat) : (c.advance n).rest.length = c.rest.length - n :=
  List.length_drop

/-- A cursor **follows** another one if it is behind some of its characters. -/
def Follows (c next : Cursor) : Prop := ∃ n, n ≤ c.rest.length ∧ next = c.advance n

/-- It **passed** the other one if it is behind at least one of them. -/
def Passed (c next : Cursor) : Prop := ∃ n, 0 < n ∧ n ≤ c.rest.length ∧ next = c.advance n

theorem Follows.trans {b next : Cursor} (h : c.Follows b) (h' : b.Follows next) :
    c.Follows next := by
  obtain ⟨m, hm, rfl⟩ := h
  obtain ⟨n, hn, rfl⟩ := h'
  rw [length_advance] at hn
  exact ⟨m + n, by omega, advance_advance c m n⟩

theorem Follows.passed {b next : Cursor} (h : c.Follows b) (h' : b.Passed next) :
    c.Passed next := by
  obtain ⟨m, hm, rfl⟩ := h
  obtain ⟨n, hpos, hn, rfl⟩ := h'
  rw [length_advance] at hn
  exact ⟨m + n, by omega, by omega, advance_advance c m n⟩

theorem Passed.follows {b next : Cursor} (h : c.Passed b) (h' : b.Follows next) :
    c.Passed next := by
  obtain ⟨m, hpos, hm, rfl⟩ := h
  obtain ⟨n, hn, rfl⟩ := h'
  rw [length_advance] at hn
  exact ⟨m + n, by omega, by omega, advance_advance c m n⟩

theorem Passed.shorter {next : Cursor} (h : c.Passed next) : next.rest.length < c.rest.length := by
  obtain ⟨n, hpos, hn, rfl⟩ := h
  rw [length_advance]
  omega

theorem Follows.start_le {next : Cursor} (h : c.Follows next) : c.start ≤ next.start := by
  obtain ⟨n, -, rfl⟩ := h
  exact Nat.le_add_right _ _

theorem Passed.start_lt {next : Cursor} (h : c.Passed next) : c.start < next.start := by
  obtain ⟨n, hpos, -, rfl⟩ := h
  exact Nat.lt_add_of_pos_right hpos

namespace Reads

theorem add_length_le (h : c.Reads source) : c.start + c.rest.length ≤ source.length := by
  have := h.2.length_le
  rw [List.length_drop] at this
  have := h.1
  omega

/-- The characters ahead lie in the text. -/
theorem within (h : c.Reads source) (hn : n ≤ c.rest.length) : (c.ahead n).Within source := by
  have := h.add_length_le
  simp only [Span.Within, Span.stop, ahead]
  omega

/-- The characters ahead are those that are left to read. -/
theorem slice_ahead (h : c.Reads source) (hn : n ≤ c.rest.length) :
    (c.ahead n).slice source = c.rest.take n := by
  obtain ⟨-, behind, hb⟩ := h
  rw [Span.slice, ahead, ← hb, List.take_append_of_le_length hn]

theorem advance (h : c.Reads source) (hn : n ≤ c.rest.length) : (c.advance n).Reads source := by
  have := h.add_length_le
  obtain ⟨behind, hb⟩ := h.2
  refine ⟨by simp only [Cursor.advance]; omega, behind, ?_⟩
  simp only [Cursor.advance]
  rw [← List.drop_drop, ← hb, List.drop_append_of_le_length hn]

/-- A cursor that stops earlier reads the text, too. -/
theorem shorten (h : c.Reads source) (hr : rest <+: c.rest) : (⟨c.start, rest⟩ : Cursor).Reads source :=
  ⟨h.1, hr.trans h.2⟩

/-- Without its outer blanks. -/
theorem trimmed (h : c.Reads source) :
    (⟨c.start + Text.blankLength c.rest, Text.trim c.rest⟩ : Cursor).Reads source :=
  (h.advance (Text.blankLength_le c.rest)).shorten (Text.trim_prefix_drop c.rest)

theorem follows {next : Cursor} (h : c.Reads source) (hf : c.Follows next) : next.Reads source := by
  obtain ⟨n, hn, rfl⟩ := hf
  exact h.advance hn

theorem passed {next : Cursor} (h : c.Reads source) (hp : c.Passed next) : next.Reads source := by
  obtain ⟨n, -, hn, rfl⟩ := hp
  exact h.advance hn

theorem finish (h : c.Reads source) : c.finish.Reads source := h.shorten List.nil_prefix

theorem took (h : c.Reads source) {r : Span × Cursor} (hr : c.Took n r) :
    r.1.Within source ∧ r.2.Reads source := by
  obtain ⟨hn, rfl⟩ := hr
  exact ⟨h.within hn, h.advance hn⟩

end Reads

theorem reads_ofSpan (h : span.Within source) : (ofSpan source span).Reads source := by
  refine ⟨?_, _, List.take_append_drop _ _⟩
  have : span.start + span.length ≤ source.length := h
  simp only [ofSpan]
  omega

/-! ## Literals -/

/-- A quote that closes a literal is the last of the characters that it is found with. -/
theorem closingQuote?_spec {quote : Char} {text : List Char}
    (h : closingQuote? quote text = some n) :
    n ≤ text.length ∧ ∃ body, text.take n = body ++ [quote] := by
  induction text using closingQuote?.induct quote generalizing n with
  | case1 => cases h
  | case2 => cases h
  | case3 x rest ih =>
    obtain ⟨m, hm, rfl⟩ := Option.map_eq_some_iff.1 h
    obtain ⟨hle, body, hb⟩ := ih hm
    exact ⟨by simpa using hle, '\\' :: x :: body, by simp [hb]⟩
  | case4 rest h1 h2 =>
    simp only [closingQuote?, if_true, Option.some.injEq] at h
    subst h
    exact ⟨by simp, [], by simp⟩
  | case5 c rest h1 h2 hne ih =>
    simp only [closingQuote?, hne, if_false] at h
    obtain ⟨m, hm, rfl⟩ := Option.map_eq_some_iff.1 h
    obtain ⟨hle, body, hb⟩ := ih hm
    exact ⟨by simpa using hle, c :: body, by simp [hb]⟩

theorem isLiteral_of_quotes {quote : Char} {body : List Char} (hq : isQuote quote) :
    isLiteral (quote :: (body ++ [quote])) := by
  simp [isLiteral, hq, List.getLast?_cons, List.getLast?_append]

/-- **A string literal** is taken with its quotes. -/
theorem settles_quotedText {quote : Char} (h : c.Reads source) (hr : c.rest = quote :: rest)
    (hq : isQuote quote) :
    Settles source (fun r => ∃ n, c.Took n r ∧ isLiteral (c.rest.take n) ∧ 2 ≤ n)
      (c.quotedText quote) := by
  unfold quotedText
  rw [hr, List.drop_one, List.tail_cons]
  cases hc : closingQuote? quote rest with
  | none => exact settles_lexical (h.within (by simp [hr])) rfl
  | some n =>
    obtain ⟨hle, body, hb⟩ := closingQuote?_spec hc
    have hlen := congrArg List.length hb
    simp only [List.length_take, List.length_append, List.length_singleton] at hlen
    refine ⟨n + 1, took_take (by rw [hr]; simpa using hle), ?_, by omega⟩
    rw [List.take_succ_cons, hb]
    exact isLiteral_of_quotes hq

/-- **A literal to be translated** is taken with its parentheses, and a literal stands in them. -/
theorem settles_translated (h : c.Reads source) (hr : c.rest = '_' :: '(' :: rest) :
    Settles source (fun r => ∃ n, c.Took n r ∧ isLiteral ((c.rest.drop 2).take (n - 3)) ∧ 5 ≤ n)
      c.translated := by
  have hlen : c.rest.length = rest.length + 2 := by rw [hr]; rfl
  have hinner : (c.advance 2).Reads source := h.advance (by omega)
  have hrest : (c.advance 2).rest = rest := by simp [Cursor.advance, hr]
  unfold translated
  dsimp only
  rw [hrest]
  cases rest with
  | nil => exact settles_lexical (h.within (by omega)) rfl
  | cons quote rest =>
    dsimp only
    split
    · exact settles_lexical (h.within (by omega)) rfl
    · next hq =>
      have hq : isQuote quote := by simpa using hq
      refine (settles_quotedText hinner hrest hq).bind fun r hr' => ?_
      obtain ⟨n, ⟨hn, rfl⟩, hlit, h2⟩ := hr'
      rw [hrest] at hn hlit
      dsimp only
      split
      · -- the parenthesis is one more character
        next hclose =>
        have : n < (quote :: rest).length := by
          have := congrArg List.length hclose
          simp only [Cursor.advance, List.length_drop, List.length_cons, hlen] at this ⊢
          omega
        refine settles_pure ⟨n + 3, took_take (by omega), ?_, by omega⟩
        rwa [hr, Nat.add_sub_cancel]
      · exact settles_lexical (h.within (by simp only [ahead]; omega)) rfl

/-! ## Numbers and names -/

theorem numeralLength_le (text : List Char) : numeralLength text ≤ text.length := by
  cases text with
  | nil => exact Nat.le_refl _
  | cons c rest =>
    simp only [numeralLength]
    split
    · exact Nat.succ_le_succ (List.takeWhile_sublist _).length_le
    · exact Nat.zero_le _

theorem expressionLength_le (quote : Option Char) (text : List Char) :
    expressionLength quote text ≤ text.length := by
  induction text generalizing quote with
  | nil => exact Nat.le_refl _
  | cons c rest ih =>
    simp only [expressionLength]
    split
    · exact Nat.succ_le_succ (ih _)
    · split
      · exact Nat.succ_le_succ (ih _)
      · split
        · exact Nat.succ_le_succ (ih _)
        · exact Nat.zero_le _

theorem pathLength_le (text : List Char) : pathLength text ≤ text.length :=
  (List.takeWhile_sublist _).length_le

/-- The pieces of a text, each with the character that ends it, have one character more. -/
theorem length_flatMap_splitOn (x : Char) (text : List Char) :
    ((Text.splitOn x text).flatMap (· ++ [x])).length = text.length + 1 := by
  induction text with
  | nil => rfl
  | cons c rest ih =>
    simp only [Text.splitOn]
    split
    · simp only [List.flatMap_cons, List.length_append, List.length_nil, List.length_cons, ih]
      omega
    · split
      · next hs =>
        rw [hs] at ih
        simp at ih
      · next first others hs =>
        rw [hs] at ih
        simp only [List.flatMap_cons, List.length_append, List.length_cons] at ih ⊢
        omega

theorem badSegment?_le {start : Nat} {segments : List (List Char)} (x : Char)
    (h : badSegment? start segments = some span) :
    span.stop + 1 ≤ start + (segments.flatMap (· ++ [x])).length := by
  induction segments generalizing start with
  | nil => cases h
  | cons segment others ih =>
    simp only [badSegment?] at h
    simp only [List.flatMap_cons, List.length_append, List.length_singleton]
    split at h
    · cases h
      simp [Span.stop]
    · cases h
      simp only [Span.stop]
      omega
    · have := ih h
      omega

/-- Checking a path that lies in the text. -/
theorem settles_checkPath {path : List Char} {start : Nat} (h : start + path.length ≤ source.length) :
    Settles source (fun _ => True) (checkPath path start) := by
  unfold checkPath
  split
  · next span hb =>
    have := badSegment?_le '.' hb
    rw [length_flatMap_splitOn] at this
    exact settles_lexical (Nat.le_trans (Nat.le_of_succ_le_succ this) h) rfl
  · trivial

theorem settles_path (h : c.Reads source) :
    Settles source (fun r => ∃ n, c.Took n r) c.path := by
  have hle := pathLength_le c.rest
  have := h.add_length_le
  refine (settles_checkPath (by rw [List.length_take]; omega)).bind fun _ _ => ?_
  exact settles_pure ⟨_, took_take hle⟩

/-! ## Operands -/

theorem settles_separated (h : c.Reads source) :
    Settles source
      (fun next => next = c.advance (Text.blankLength c.rest) ∧ Text.wordLength c.rest = 0)
      c.separated := by
  unfold separated
  split
  · next hn => exact settles_pure ⟨rfl, hn⟩
  · next n hn => exact settles_lexical (h.within (Text.wordLength_le c.rest)) rfl

end Cursor

/-- An operand **stands in** a text if its span lies there and if a literal has its quotes. -/
structure Operand.StandsIn (o : Operand) (source : List Char) : Prop where
  within : o.span.Within source
  text : o.kind = .text → isLiteral (o.span.slice source) ∧ 2 ≤ o.span.length
  translated : o.kind = .translated →
    isLiteral (Span.slice ⟨o.span.start + 2, o.span.length - 3⟩ source) ∧ 5 ≤ o.span.length

namespace Operand

open Cursor

variable {r : Span × Cursor}

theorem standsIn_of_took {kind : OperandKind} (h : c.Reads source) (hr : c.Took n r)
    (hk : kind = .numeric ∨ kind = .path) : (⟨kind, r.1⟩ : Operand).StandsIn source := by
  refine ⟨(h.took hr).1, fun hkind => ?_, fun hkind => ?_⟩ <;>
  · rcases hk with rfl | rfl <;> cases hkind

theorem standsIn_text (h : c.Reads source) (hr : c.Took n r) (hl : isLiteral (c.rest.take n))
    (hn : 2 ≤ n) : (⟨.text, r.1⟩ : Operand).StandsIn source := by
  refine ⟨(h.took hr).1, fun _ => ?_, fun hkind => by cases hkind⟩
  obtain ⟨hle, rfl⟩ := hr
  exact ⟨by rwa [h.slice_ahead hle], hn⟩

theorem standsIn_translated (h : c.Reads source) (hr : c.Took n r)
    (hl : isLiteral ((c.rest.drop 2).take (n - 3))) (hn : 5 ≤ n) :
    (⟨.translated, r.1⟩ : Operand).StandsIn source := by
  refine ⟨(h.took hr).1, fun hkind => (by cases hkind), fun _ => ?_⟩
  obtain ⟨hle, rfl⟩ := hr
  have hslice : Span.slice ⟨c.start + 2, n - 3⟩ source = (c.rest.drop 2).take (n - 3) :=
    (h.advance (by omega)).slice_ahead (by simp only [Cursor.advance, List.length_drop]; omega)
  rw [← hslice] at hl
  exact ⟨hl, hn⟩

end Operand

/-- What a reader of operands answers. -/
def Cursor.TookOperand (source : List Char) (c : Cursor) (r : Operand × Cursor) : Prop :=
  r.1.StandsIn source ∧ ∃ n, c.Took n (r.1.span, r.2)

open Cursor

/-- The three kinds of operand that a first character tells. -/
theorem settles_literal {first : Char} (h : c.Reads source)
    (hr : c.rest = first :: rest) (hq : isQuote first) :
    Settles source (c.TookOperand source)
      ((c.quotedText first).map fun (span, behind) => (⟨.text, span⟩, behind)) := by
  refine (settles_quotedText h hr hq).map fun r hr => ?_
  obtain ⟨n, hn, hl, h2⟩ := hr
  exact ⟨Operand.standsIn_text h hn hl h2, n, hn⟩

theorem settles_translation (h : c.Reads source) (hr : c.rest = '_' :: '(' :: rest) :
    Settles source (c.TookOperand source)
      (c.translated.map fun (span, behind) => (⟨.translated, span⟩, behind)) := by
  refine (settles_translated h hr).map fun r hr => ?_
  obtain ⟨n, hn, hl, h5⟩ := hr
  exact ⟨Operand.standsIn_translated h hn hl h5, n, hn⟩

theorem tookOperand_numeral (h : c.Reads source) :
    c.TookOperand source (⟨.numeric, c.numeral.1⟩, c.numeral.2) :=
  have hn := took_take (numeralLength_le c.rest)
  ⟨Operand.standsIn_of_took h hn (.inl rfl), _, hn⟩

theorem Cursor.TookOperand.start_eq {r : Operand × Cursor} (h : c.TookOperand source r) :
    r.1.span.start = c.start := by
  obtain ⟨-, n, -, heq⟩ := h
  rw [(Prod.mk.inj heq).1]
  rfl

/-- An operand and the blanks behind it. If it has no character, it stands before a blank. -/
theorem Cursor.TookOperand.passed {o : Operand} {behind next : Cursor}
    (h : c.TookOperand source (o, behind)) (hreads : c.Reads source) (hne : c.rest ≠ [])
    (hs : behind.separated = .ok next) : c.Passed next := by
  obtain ⟨-, n, hn, heq⟩ := h
  simp only [Prod.mk.injEq] at heq
  obtain ⟨-, rfl⟩ := heq
  obtain ⟨rfl, hword⟩ := (settles_separated (hreads.advance hn)).of_ok hs
  have hblanks := Text.blankLength_le (c.advance n).rest
  rcases Nat.eq_zero_or_pos n with rfl | hpos
  · -- no character was taken, so blanks are
    have hpos : 0 < Text.blankLength c.rest := Text.blankLength_pos hne hword
    exact ⟨Text.blankLength c.rest, hpos, Text.blankLength_le c.rest, rfl⟩
  · have htook : c.Passed (c.advance n) := ⟨n, hpos, hn, rfl⟩
    exact htook.follows ⟨_, hblanks, rfl⟩

/-- **The operand that stands next** is taken, if there is something left to read. -/
theorem settles_operand (h : c.Reads source) (hne : c.rest ≠ []) :
    Settles source (c.TookOperand source) c.operand := by
  unfold operand
  split
  · next hr => exact settles_translation h hr
  · next first rest _ hr =>
    split
    · next hq => exact settles_literal h hr hq
    · split
      · exact tookOperand_numeral h
      · have hn := took_take (expressionLength_le none c.rest)
        exact ⟨Operand.standsIn_of_took h hn (.inr rfl), _, hn⟩
  · next hr => exact absurd hr hne

end Galley
