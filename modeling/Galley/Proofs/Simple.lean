import Galley.Proofs.Account
import Galley.Proofs.Plain

/-!
# Chains that are plain

A chain is plain if it is written in the simplest way: without blanks outside of its arguments,
without a text before a colon, and with simple arguments. An argument that is not simple leads
astray, and nothing that follows it in a chain leads back: the last quote of a literal then always
opens another one.

* `OperandKind.Simple`: the arguments.
* `Quoting.Astray`, `OperandKind.Written.astray_run`: what leads astray.
* `Piece.Tight`, `Piece.run_flatMap_eq_outside`: filters, one behind the other.
* `ChainPieces.plain_iff_simple`: the chains that are plain.
-/

namespace Galley

open Text Cursor

variable {c quote : Char} {text : List Char}

/-! ## Values in a chain -/

/-- **A simple argument** is a path, a number that does not begin with a dash, or a literal that does
not have its own quote in it, and none that is to be translated. -/
def OperandKind.Simple : OperandKind → List Char → Prop
  | .numeric, digits => digits.head? ≠ some '-'
  | .text, literal => ∃ quote inner, quote ∉ inner ∧ literal = quote :: (inner ++ [quote])
  | .translated, _ => False
  | .path, _ => True

namespace Quoting

variable {s : Quoting}

/-- A state that no further part of a chain leads out of. -/
def Astray (s : Quoting) : Prop := s = lost ∨ ∃ quote, isQuote quote ∧ s = inside quote

/-- A state outside of the quotes of a kind. -/
def Without (quote : Char) (s : Quoting) : Prop :=
  s = lost ∨ s = outside ∨ ∃ other, isQuote other ∧ other ≠ quote ∧ s = inside other

theorem Astray.ne_outside (h : s.Astray) : s ≠ outside := by
  rcases h with rfl | ⟨quote, -, rfl⟩ <;> nofun

theorem Astray.run_of_not_isQuote (h : s.Astray) (ht : ∀ c ∈ text, isQuote c = false) :
    (s.run text).Astray := by
  rcases h with rfl | ⟨quote, hq, rfl⟩
  · exact .inl (run_lost text)
  · have hnot : quote ∉ text := fun hmem => by
      rw [ht quote hmem] at hq
      cases hq
    rw [run_inside hnot]
    exact .inr ⟨quote, hq, rfl⟩

theorem Without.step (h : s.Without quote) (hc : c ≠ quote) : (s.step c).Without quote := by
  rcases h with rfl | rfl | ⟨other, hother, hne, rfl⟩
  · exact .inl rfl
  · rw [Quoting.step]
    split
    · next hq => exact .inr (.inr ⟨c, hq, hc, rfl⟩)
    · split
      · exact .inr (.inl rfl)
      · exact .inl rfl
  · rw [Quoting.step]
    split
    · exact .inr (.inl rfl)
    · exact .inr (.inr ⟨other, hother, hne, rfl⟩)

/-- Outside of quotes a backslash is lost, and inside of others it takes nothing along. -/
theorem Without.step_backslash (h : s.Without quote) (c : Char) :
    ((s.step '\\').step c).Without quote := by
  rcases h with rfl | rfl | ⟨other, hother, hne, rfl⟩
  · exact .inl rfl
  · have hlost : outside.step '\\' = lost := by decide +kernel
    rw [hlost]
    exact .inl rfl
  · have hback : '\\' ≠ other := by
      rintro rfl
      exact absurd hother (by decide)
    rw [Quoting.step, if_neg hback, Quoting.step]
    split
    · exact .inr (.inl rfl)
    · exact .inr (.inr ⟨other, hother, hne, rfl⟩)

theorem Without.run_literalBody (h : s.Without quote) (hb : LiteralBody quote text) :
    (s.run text).Without quote := by
  induction hb generalizing s with
  | nil => exact h
  | escaped c _ ih => exact ih (h.step_backslash c)
  | plain _ hc _ ih => exact ih (h.step hc)

/-- A quote leads astray if none of its kind is open. -/
theorem Without.astray_step (h : s.Without quote) (hq : isQuote quote) : (s.step quote).Astray := by
  rcases h with rfl | rfl | ⟨other, hother, hne, rfl⟩
  · exact .inl rfl
  · exact .inr ⟨quote, hq, step_outside_quote hq⟩
  · exact .inr ⟨other, hother, if_neg hne.symm⟩

theorem Without.astray_run (h : s.Without quote) (hq : isQuote quote) (hb : LiteralBody quote text) :
    (s.run (text ++ [quote])).Astray := by
  rw [run_append]
  exact (h.run_literalBody hb).astray_step hq

/-- A literal leads back to no state outside of quotes. Its first quote may close one that is open,
but its last one opens the next. -/
theorem Astray.run_isQuoted (h : s.Astray) (ht : IsQuoted text) : (s.run text).Astray := by
  obtain ⟨quote, body, hq, hbody, rfl⟩ := ht
  rw [run_cons]
  refine Without.astray_run ?_ hq hbody
  rcases h with rfl | ⟨other, hother, rfl⟩
  · exact .inl rfl
  · rw [step]
    split
    · exact .inr (.inl rfl)
    · next hne => exact .inr (.inr ⟨other, hother, Ne.symm hne, rfl⟩)

/-- Behind a quote in its body a literal is no longer open. -/
theorem without_of_mem (hq : isQuote quote) (hb : LiteralBody quote text) (hmem : quote ∈ text) :
    ((inside quote).run text).Without quote := by
  induction hb with
  | nil => cases hmem
  | escaped c hb ih =>
    have hback : (inside quote).step '\\' = inside quote := by
      refine if_neg ?_
      rintro rfl
      exact absurd hq (by decide)
    rw [run_cons, hback, run_cons, step]
    split
    · exact Without.run_literalBody (.inr (.inl rfl)) hb
    · next hc =>
      refine ih ?_
      rcases List.mem_cons.1 hmem with rfl | hmem
      · exact absurd hq (by decide)
      · exact (List.mem_cons.1 hmem).resolve_left (Ne.symm hc)
  | plain _ hc _ ih =>
    rw [run_cons, step, if_neg hc]
    exact ih ((List.mem_cons.1 hmem).resolve_left (Ne.symm hc))

end Quoting

theorem isPlain_of_isNumeric (h : isNumeric c) (hne : c ≠ '-') : isPlain c := by
  simp only [isNumeric, Bool.or_eq_true, decide_eq_true_eq] at h
  rcases h with ((h | h) | h) | h
  · have hsmall : c.toNat < 0x80 := by
      simp only [Char.isDigit, Bool.and_eq_true, decide_eq_true_eq, UInt32.le_iff_toNat_le] at h
      exact Nat.lt_of_le_of_lt h.2 (by decide)
    simp [isPlain, isNameChar, hsmall, Char.isAlphanum, h]
  · exact absurd h hne
  · simp [isPlain, h]
  · rw [h]
    decide +kernel

theorem isPlain_of_path (h : isNameChar c ∨ c = '.') : isPlain c := by
  simp only [isPlain, Bool.or_eq_true, decide_eq_true_eq]
  exact .inl (.inl h)

namespace OperandKind

open Quoting

variable {kind : OperandKind}

theorem Written.astray_run {s : Quoting} (h : kind.Written text) (hs : s.Astray) :
    (s.run text).Astray := by
  cases kind with
  | numeric =>
    refine hs.run_of_not_isQuote fun c hc => ?_
    by_cases hne : c = '-'
    · rw [hne]
      rfl
    · exact not_isQuote_of_isPlain (isPlain_of_isNumeric (h.1 c hc) hne)
  | text => exact hs.run_isQuoted h
  | translated =>
    obtain ⟨literal, hliteral, rfl⟩ := h
    have hopen : (s.run ['_', '(']).Astray :=
      hs.run_of_not_isQuote (List.forall_mem_cons.2 ⟨rfl, List.forall_mem_singleton.2 rfl⟩)
    have hclosed : (((s.run ['_', '(']).run literal).run [')']).Astray :=
      (hopen.run_isQuoted hliteral).run_of_not_isQuote (List.forall_mem_singleton.2 rfl)
    rwa [← run_append, ← run_append] at hclosed
  | path =>
    exact hs.run_of_not_isQuote fun c hc => not_isQuote_of_isPlain (isPlain_of_path (h c hc))

/-- **A value** leads from outside of quotes to outside of quotes if it is simple, and astray if it
is not. -/
theorem Written.run_outside (h : kind.Written text) :
    (kind.Simple text → outside.run text = outside) ∧
      (¬ kind.Simple text → (outside.run text).Astray) := by
  cases kind with
  | numeric =>
    cases text with
    | nil => exact ⟨fun _ => rfl, fun hnot => absurd nofun hnot⟩
    | cons c rest =>
      refine ⟨fun hsimple => run_outside_plain ?_, fun hnot => ?_⟩
      · refine List.forall_mem_cons.2 ⟨isPlain_of_isNumeric (h.1 c List.mem_cons_self) ?_, ?_⟩
        · rintro rfl
          exact hsimple rfl
        · exact fun d hd => isPlain_of_isNumeric (h.1 d (List.mem_cons_of_mem _ hd)) (h.2 d hd)
      · obtain rfl : c = '-' :=
          Classical.byContradiction fun hne => hnot fun hc => hne (by simpa using hc)
        exact .inl (run_lost rest)
  | text =>
    obtain ⟨quote, body, hq, hbody, rfl⟩ := h
    have hiff : OperandKind.text.Simple (quote :: (body ++ [quote])) ↔ quote ∉ body := by
      constructor
      · rintro ⟨other, inner, hinner, heq⟩
        obtain ⟨rfl, heq⟩ := List.cons.inj heq
        rwa [(List.append_left_inj _).1 heq]
      · exact fun hnot => ⟨quote, body, hnot, rfl⟩
    rw [hiff, run_cons, step_outside_quote hq]
    refine ⟨fun hnot => ?_, fun hmem => ?_⟩
    · rw [run_append, run_inside hnot]
      exact if_pos rfl
    · rw [run_append]
      exact (without_of_mem hq hbody (Classical.not_not.1 hmem)).astray_step hq
  | translated =>
    obtain ⟨literal, -, rfl⟩ := h
    refine ⟨False.elim, fun _ => ?_⟩
    rw [run_cons, run_cons]
    have hlost : (outside.step '_').step '(' = lost := by decide +kernel
    rw [hlost]
    exact .inl (run_lost _)
  | path =>
    have houtside := run_outside_plain fun c hc => isPlain_of_path (h c hc)
    exact ⟨fun _ => houtside, fun hnot => absurd trivial hnot⟩

end OperandKind

/-! ## Filters and chains -/

/-- A place in an argument of filters. -/
def InArgument (words : List FilterWord) (place : Nat) : Prop :=
  ∃ w ∈ words, ∃ a, w.argument = some a ∧ a.span.Covers place

theorem inArgument_cons {w : FilterWord} {words : List FilterWord} {place : Nat} :
    InArgument (w :: words) place ↔
      (∃ a, w.argument = some a ∧ a.span.Covers place) ∨ InArgument words place := by
  simp only [InArgument, List.mem_cons, or_and_right, exists_or, exists_eq_left]

/-- Blanks in a place that has none. -/
theorem eq_nil_of_eachAt {start : Nat} {Q : Nat → Prop} (hblank : allBlank text)
    (h : EachAt start text fun place c => isBlank c → Q place)
    (hnot : ∀ place, start ≤ place → place < start + text.length → ¬ Q place) : text = [] := by
  cases text with
  | nil => rfl
  | cons c rest =>
    have hc := (eachAt_cons.1 h).1 (List.all_eq_true.1 hblank c List.mem_cons_self)
    refine absurd hc (hnot start (Nat.le_refl _) ?_)
    rw [List.length_cons]
    omega

namespace Piece

open Quoting

variable {p : Piece} {pieces : List Piece} {start : Nat} {s : Quoting}

/-- A filter is **tight** if it has no blanks around it, and nothing before its colon. -/
structure Tight (p : Piece) : Prop where
  blanks : p.blanks = []
  spaces : p.spaces = []
  gap : ∀ a, p.argument = some a → a.gap = []

/-- The argument of a filter is simple, if it has one. -/
def Simple (p : Piece) : Prop := ∀ a, p.argument = some a → a.kind.Simple a.text

theorem text_of_tight (h : p.Tight) : p.text = p.name ++ (p.argumentText ++ p.separator) := by
  rw [text, h.blanks, h.spaces, List.nil_append, List.nil_append]

theorem isPlain_of_mem_name (hp : p.Valid) : ∀ c ∈ p.name, isPlain c :=
  fun c hc => isPlain_of_isNameChar (hp.name c hc)

theorem isPlain_of_mem_separator (hp : p.Valid) : ∀ c ∈ p.separator, isPlain c := by
  rcases hp.separator with h | h | h <;> rw [h]
  · exact List.forall_mem_nil _
  · exact List.forall_mem_singleton.2 rfl
  · exact List.forall_mem_singleton.2 rfl

theorem argumentText_of_none (h : p.argument = none) : p.argumentText = [] := by
  rw [argumentText, h]

theorem argumentText_of_tight {a : ArgumentPiece} (h : p.Tight) (ha : p.argument = some a) :
    p.argumentText = ':' :: a.text := by
  rw [argumentText, ha]
  dsimp only
  rw [h.gap a ha, List.nil_append]

theorem astray_run (hp : p.Valid) (ht : p.Tight) (hs : s.Astray) : (s.run p.text).Astray := by
  rw [text_of_tight ht, run_append, run_append]
  have hname := hs.run_of_not_isQuote fun c hc =>
    not_isQuote_of_isPlain (isPlain_of_mem_name hp c hc)
  refine Astray.run_of_not_isQuote ?_ fun c hc =>
    not_isQuote_of_isPlain (isPlain_of_mem_separator hp c hc)
  cases ha : p.argument with
  | none =>
    rw [argumentText_of_none ha]
    exact hname
  | some a =>
    have hcolon : ((s.run p.name).run [':']).Astray :=
      hname.run_of_not_isQuote (List.forall_mem_singleton.2 rfl)
    rw [argumentText_of_tight ht ha]
    exact (hp.argument a ha).astray_run hcolon

/-- **A filter** leads from outside of quotes to outside of quotes if its argument is simple, and
astray if it is not. -/
theorem run_outside (hp : p.Valid) (ht : p.Tight) :
    (p.Simple → outside.run p.text = outside) ∧ (¬ p.Simple → (outside.run p.text).Astray) := by
  rw [text_of_tight ht, run_append, run_append, run_outside_plain (isPlain_of_mem_name hp)]
  have hseparator := isPlain_of_mem_separator hp
  cases ha : p.argument with
  | none =>
    rw [argumentText_of_none ha]
    refine ⟨fun _ => run_outside_plain hseparator, fun hnot => absurd (fun a hsome => ?_) hnot⟩
    rw [ha] at hsome
    cases hsome
  | some a =>
    have hiff : p.Simple ↔ a.kind.Simple a.text := by
      refine ⟨fun h => h a ha, fun h b hb => ?_⟩
      rw [ha] at hb
      cases hb
      exact h
    rw [argumentText_of_tight ht ha, hiff, run_cons, step_outside_plain (by decide)]
    obtain ⟨hsimple, hnot⟩ := (hp.argument a ha).run_outside
    refine ⟨fun h => ?_, fun h => ?_⟩
    · rw [hsimple h]
      exact run_outside_plain hseparator
    · exact (hnot h).run_of_not_isQuote fun c hc => not_isQuote_of_isPlain (hseparator c hc)

theorem astray_run_flatMap (hp : ∀ p ∈ pieces, p.Valid) (ht : ∀ p ∈ pieces, p.Tight)
    (hs : s.Astray) : (s.run (pieces.flatMap Piece.text)).Astray := by
  induction pieces generalizing s with
  | nil => exact hs
  | cons p rest ih =>
    obtain ⟨hpfirst, hprest⟩ := List.forall_mem_cons.1 hp
    obtain ⟨htfirst, htrest⟩ := List.forall_mem_cons.1 ht
    rw [List.flatMap_cons, run_append]
    exact ih hprest htrest (astray_run hpfirst htfirst hs)

/-- **Filters** end outside of quotes exactly if all their arguments are simple. -/
theorem run_flatMap_eq_outside (hp : ∀ p ∈ pieces, p.Valid) (ht : ∀ p ∈ pieces, p.Tight) :
    outside.run (pieces.flatMap Piece.text) = outside ↔ ∀ p ∈ pieces, p.Simple := by
  induction pieces with
  | nil => exact iff_of_true rfl (List.forall_mem_nil _)
  | cons p rest ih =>
    obtain ⟨hpfirst, hprest⟩ := List.forall_mem_cons.1 hp
    obtain ⟨htfirst, htrest⟩ := List.forall_mem_cons.1 ht
    obtain ⟨hsimple, hnot⟩ := run_outside hpfirst htfirst
    rw [List.forall_mem_cons, List.flatMap_cons, run_append]
    by_cases h : p.Simple
    · rw [hsimple h, ih hprest htrest]
      exact (and_iff_right h).symm
    · refine iff_of_false ?_ fun hall => h hall.1
      exact (astray_run_flatMap hprest htrest (hnot h)).ne_outside

/-- A filter is tight if it has no blanks outside of its argument and nothing is passed over. -/
theorem tight_of_word (hp : p.Valid) (hskips : ∀ place, ¬ (p.word start).Skips place)
    (h : EachAt start p.text fun place c =>
      isBlank c → ∃ a, (p.word start).argument = some a ∧ a.span.Covers place) : p.Tight := by
  obtain ⟨hblanks, h⟩ := eachAt_append.1 h
  obtain ⟨-, h⟩ := eachAt_append.1 h
  obtain ⟨-, h⟩ := eachAt_append.1 h
  obtain ⟨hspaces, -⟩ := eachAt_append.1 h
  refine ⟨eq_nil_of_eachAt hp.blanks hblanks ?_, eq_nil_of_eachAt hp.spaces hspaces ?_, ?_⟩
  · rintro place - hlt ⟨o, ho, hcovers, -⟩
    obtain ⟨a, -, rfl⟩ := Option.map_eq_some_iff.1 ho
    dsimp only at hcovers
    omega
  · rintro place hle - ⟨o, ho, -, hcovers⟩
    obtain ⟨a, ha, rfl⟩ := Option.map_eq_some_iff.1 ho
    simp only [argumentText, ha, List.length_append, List.length_cons, Span.stop] at hle hcovers
    omega
  · intro a ha
    refine Classical.byContradiction fun hne => ?_
    have hpos := List.length_pos_iff.2 hne
    refine hskips (start + p.blanks.length + p.name.length) ⟨_, by rw [word, ha]; rfl, ?_, ?_⟩
    · exact Nat.le_refl _
    · dsimp only
      omega

/-- Filters are tight if they have no blanks outside of their arguments and nothing is passed over
in them. -/
theorem tight_of_eachAt (hp : ∀ p ∈ pieces, p.Valid)
    (hskips : ∀ w ∈ words start pieces, ∀ place, ¬ w.Skips place)
    (h : EachAt start (pieces.flatMap Piece.text) fun place c =>
      isBlank c → InArgument (words start pieces) place) : ∀ p ∈ pieces, p.Tight := by
  induction pieces generalizing start with
  | nil => exact List.forall_mem_nil _
  | cons p rest ih =>
    obtain ⟨hpfirst, hprest⟩ := List.forall_mem_cons.1 hp
    obtain ⟨hsfirst, hsrest⟩ := List.forall_mem_cons.1 hskips
    obtain ⟨hfirst, hrest⟩ := eachAt_append.1 h
    refine List.forall_mem_cons.2 ⟨?_, ih hprest hsrest ?_⟩
    · -- the others are not yet reached
      have hlast (place : Nat) (hlt : place < start + p.text.length) :
          ¬ InArgument (words (start + p.text.length) rest) place := by
        rintro ⟨w, hw, a, ha, hcovers⟩
        have := bounds_of_mem_words hw (.inl (.inr ⟨a, ha, hcovers⟩))
        omega
      refine tight_of_word hpfirst hsfirst fun i c hc hblank => ?_
      have hlt := (List.getElem?_eq_some_iff.1 hc).1
      exact (inArgument_cons.1 (hfirst i c hc hblank)).resolve_right (hlast _ (by omega))
    · -- the first filter is passed
      intro i c hc hblank
      refine (inArgument_cons.1 (hrest i c hc hblank)).resolve_left fun ⟨a, ha, hcovers⟩ => ?_
      have := bounds_of_covers_or_skips (p := p) (.inl (.inr ⟨a, ha, hcovers⟩))
      omega

theorem drop_of_append {source first last : List Char} (h : source.drop start = first ++ last) :
    source.drop (start + first.length) = last := by
  rw [← List.drop_drop, h, List.drop_left]

/-- The arguments of filters are those of their words, each as it stands in the text. -/
theorem forall_simple_iff {source behind : List Char}
    (h : source.drop start = pieces.flatMap Piece.text ++ behind) :
    (∀ p ∈ pieces, p.Simple) ↔ ∀ w ∈ words start pieces, ∀ a, w.argument = some a →
      a.kind.Simple (a.span.slice source) := by
  induction pieces generalizing start with
  | nil => exact iff_of_true (List.forall_mem_nil _) (List.forall_mem_nil _)
  | cons p rest ih =>
    rw [List.flatMap_cons, List.append_assoc] at h
    have hrest : source.drop (start + p.text.length) = rest.flatMap Piece.text ++ behind :=
      drop_of_append h
    rw [words, List.forall_mem_cons, List.forall_mem_cons, ih hrest]
    refine and_congr_left fun _ => ?_
    have hslice (a : ArgumentPiece) (ha : p.argument = some a) :
        Span.slice ⟨start + p.blanks.length + p.name.length + a.gap.length + 1, a.text.length⟩
          source = a.text := by
      have htext : p.text = (p.blanks ++ p.name ++ a.gap ++ [':']) ++
          (a.text ++ (p.spaces ++ p.separator)) := by
        simp [text, argumentText, ha]
      have hlen : start + p.blanks.length + p.name.length + a.gap.length + 1 =
          start + (p.blanks ++ p.name ++ a.gap ++ [':']).length := by
        simp only [List.length_append, List.length_singleton]
        omega
      rw [htext, List.append_assoc _ (a.text ++ _)] at h
      rw [Span.slice, hlen, drop_of_append h, List.append_assoc a.text]
      exact List.take_left
    constructor
    · intro hsimple o ho
      obtain ⟨a, ha, rfl⟩ := Option.map_eq_some_iff.1 ho
      rw [hslice a ha]
      exact hsimple a ha
    · intro hsimple a ha
      have := hsimple _ (Option.map_eq_some_iff.2 ⟨a, ha, rfl⟩)
      rwa [hslice a ha] at this

end Piece

namespace ChainPieces

open Quoting

variable {p : ChainPieces} {start : Nat}

/-- **A chain is plain** exactly if all its arguments are simple, if it has no blanks outside of them
and nothing is passed over in it. -/
theorem plain_iff_simple {source behind : List Char} (hp : p.Valid .path)
    (hdrop : source.drop start = p.text ++ behind)
    (hskips : ∀ w ∈ p.words start, ∀ place, ¬ w.Skips place)
    (h : EachAt start p.text fun place c => isBlank c → InArgument (p.words start) place) :
    Plain p.text ↔ ∀ w ∈ p.words start, ∀ a, w.argument = some a →
      a.kind.Simple (a.span.slice source) := by
  have hlater {place : Nat} (hin : InArgument (p.words start) place) :
      p.filtersStart start ≤ place ∧
        place < p.filtersStart start + (p.filters.flatMap Piece.text).length := by
    obtain ⟨w, hw, a, ha, hcovers⟩ := hin
    exact Piece.bounds_of_mem_words hw (.inl (.inr ⟨a, ha, hcovers⟩))
  unfold filtersStart at hlater
  obtain ⟨hblanks, h⟩ := eachAt_append.1 h
  obtain ⟨-, h⟩ := eachAt_append.1 h
  obtain ⟨hspaces, h⟩ := eachAt_append.1 h
  obtain ⟨hbar, h⟩ := eachAt_append.1 h
  obtain ⟨hfilters, htrailing⟩ := eachAt_append.1 h
  have hno1 : p.blanks = [] := eq_nil_of_eachAt hp.blanks hblanks fun place _ hlt hin => by
    have := hlater hin
    omega
  have hno2 : p.spaces = [] := eq_nil_of_eachAt hp.spaces hspaces fun place _ hlt hin => by
    have := hlater hin
    omega
  have hno3 : p.trailing = [] := eq_nil_of_eachAt hp.trailing htrailing fun place hle _ hin => by
    have := hlater hin
    omega
  have hbarPlain : outside.run p.bar = outside := by
    rcases hp.bar with ⟨hnil, -⟩ | ⟨blanks, hall, hcons⟩
    · rw [hnil]
      rfl
    · rw [hcons] at hbar hlater ⊢
      have : blanks = [] := eq_nil_of_eachAt hall (eachAt_cons.1 hbar).2 fun place _ hlt hin => by
        have := hlater hin
        simp only [List.length_cons] at this
        omega
      rw [this]
      rfl
  have htight := Piece.tight_of_eachAt hp.filters hskips hfilters
  have hvalue : outside.run p.value = outside :=
    run_outside_plain fun c hc => isPlain_of_path (hp.value c hc)
  rw [plain_iff_run, text, hno1, hno2, hno3]
  simp only [List.nil_append, List.append_nil, run_append, hvalue, hbarPlain]
  rw [Piece.run_flatMap_eq_outside hp.filters htight]
  suffices hfrom : source.drop (p.filtersStart start) =
      p.filters.flatMap Piece.text ++ (p.trailing ++ behind) from Piece.forall_simple_iff hfrom
  have hlen : p.filtersStart start =
      start + (p.blanks ++ p.value ++ p.spaces ++ p.bar).length := by
    simp only [filtersStart, List.length_append]
    omega
  have htext : p.text = (p.blanks ++ p.value ++ p.spaces ++ p.bar) ++
      (p.filters.flatMap Piece.text ++ p.trailing) := by
    simp [text]
  rw [htext, List.append_assoc _ (_ ++ p.trailing)] at hdrop
  rw [hlen, Piece.drop_of_append hdrop, List.append_assoc]

end ChainPieces

end Galley
