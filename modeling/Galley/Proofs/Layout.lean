import Galley.Proofs.Cursor
import Galley.Words.Chain
import Mathlib.Data.List.Chain

/-!
# How a chain is written

The text of a chain that is read without an error is the text of its value and those of its filters,
one behind the other. A filter is cut into pieces: its name, an argument behind a colon if it has
one, and the bar or colon that ends it, with blanks before and behind. Between a name and the colon
of its argument any text may stand that has no bar and no colon.

* `Cursor.Behind`: a cursor behind a text that another one begins with.
* `OperandKind.Written`: how a value of a kind is written.
* `Piece`, `Piece.Valid`, `Piece.word`: a filter in its pieces, and the word that is read from it.
* `Chain.exists_piece`, `Chain.exists_pieces`: one filter; all filters of a chain.
* `ChainPieces`, `Chain.exists_chainPieces`: a whole chain.
-/

namespace Galley

open Text

variable {c behind next : Cursor} {rest : List Char} {span : Span} {n : Nat}

namespace Cursor

/-- A cursor stands **behind** a text that another one begins with. -/
def Behind (c : Cursor) (text : List Char) (next : Cursor) : Prop :=
  c.rest = text ++ next.rest ∧ next.start = c.start + text.length

theorem Behind.trans {first second : List Char} (h : c.Behind first behind)
    (h' : behind.Behind second next) : c.Behind (first ++ second) next := by
  obtain ⟨hrest, hstart⟩ := h
  obtain ⟨hrest', hstart'⟩ := h'
  refine ⟨by rw [hrest, hrest', List.append_assoc], ?_⟩
  rw [hstart', hstart, List.length_append, Nat.add_assoc]

theorem behind_advance (h : n ≤ c.rest.length) : c.Behind (c.rest.take n) (c.advance n) := by
  refine ⟨(List.take_append_drop n c.rest).symm, ?_⟩
  rw [List.length_take, Nat.min_eq_left h]
  rfl

theorem behind_blanks (c : Cursor) :
    c.Behind (c.rest.take (blankLength c.rest)) (c.advance (blankLength c.rest)) :=
  behind_advance (blankLength_le c.rest)

end Cursor

/-! ## How values are written -/

/-- What may stand in a literal: a quote of its own only behind a backslash. -/
inductive LiteralBody (quote : Char) : List Char → Prop
  | nil : LiteralBody quote []
  | escaped (c : Char) {rest : List Char} (h : LiteralBody quote rest) :
    LiteralBody quote ('\\' :: c :: rest)
  | plain {c : Char} {rest : List Char} (hc : c ≠ '\\') (hq : c ≠ quote)
    (h : LiteralBody quote rest) : LiteralBody quote (c :: rest)

/-- A string literal with its quotes. -/
def IsQuoted (text : List Char) : Prop :=
  ∃ quote body, Cursor.isQuote quote ∧ LiteralBody quote body ∧ text = quote :: (body ++ [quote])

/-- **How a value of a kind is written.** -/
def OperandKind.Written : OperandKind → List Char → Prop
  | numeric, digits => (∀ c ∈ digits, Cursor.isNumeric c) ∧ ∀ c ∈ digits.tail, c ≠ '-'
  | text, literal => IsQuoted literal
  | translated, call => ∃ literal, IsQuoted literal ∧ call = '_' :: '(' :: (literal ++ [')'])
  | path, names => ∀ c ∈ names, isNameChar c ∨ c = '.'

namespace Cursor

/-- A reader **read** a value of a kind: it answers the span of its text and the cursor behind it. -/
def ReadAs (c : Cursor) (kind : OperandKind) (r : Span × Cursor) : Prop :=
  ∃ text, kind.Written text ∧ c.Behind text r.2 ∧ r.1 = c.ahead text.length

theorem literalBody_of_closingQuote? {quote : Char} {text : List Char}
    (h : closingQuote? quote text = some n) :
    ∃ body, LiteralBody quote body ∧ text = body ++ quote :: text.drop n ∧ n = body.length + 1 := by
  induction text using closingQuote?.induct quote generalizing n with
  | case1 => cases h
  | case2 => cases h
  | case3 x rest ih =>
    obtain ⟨m, hm, rfl⟩ := Option.map_eq_some_iff.1 h
    obtain ⟨body, hbody, heq, rfl⟩ := ih hm
    exact ⟨'\\' :: x :: body, .escaped x hbody, by simpa using heq, rfl⟩
  | case4 rest h1 h2 =>
    simp only [closingQuote?, if_true, Option.some.injEq] at h
    subst h
    exact ⟨[], .nil, rfl, rfl⟩
  | case5 c rest h1 h2 hne ih =>
    simp only [closingQuote?, hne, if_false] at h
    obtain ⟨m, hm, rfl⟩ := Option.map_eq_some_iff.1 h
    obtain ⟨body, hbody, heq, rfl⟩ := ih hm
    refine ⟨c :: body, .plain ?_ hne hbody, by simpa using heq, rfl⟩
    -- a backslash has a character behind it, which it takes along
    rintro rfl
    cases rest with
    | nil => exact h1 rfl rfl
    | cons x rest => exact h2 x rest rfl rfl

theorem readAs_quotedText {quote : Char} (hr : c.rest = quote :: rest) (hq : isQuote quote)
    (h : c.quotedText quote = .ok (span, next)) : c.ReadAs .text (span, next) := by
  unfold quotedText at h
  rw [hr, List.drop_one, List.tail_cons] at h
  cases hn : closingQuote? quote rest with
  | none => simp [hn] at h
  | some n =>
    obtain ⟨body, hbody, heq, rfl⟩ := literalBody_of_closingQuote? hn
    rw [hn] at h
    cases h
    have hlen : (quote :: (body ++ [quote])).length = body.length + 1 + 1 := by simp
    refine ⟨quote :: (body ++ [quote]), ⟨quote, body, hq, hbody, rfl⟩, ⟨?_, ?_⟩, ?_⟩
    · rw [hr]
      simpa [advance, hr] using heq
    · rw [hlen]
      rfl
    · rw [hlen]

theorem readAs_translated (hr : c.rest = '_' :: '(' :: rest)
    (h : c.translated = .ok (span, next)) : c.ReadAs .translated (span, next) := by
  unfold translated at h
  have hrest : (c.advance 2).rest = rest := by simp [advance, hr]
  dsimp only at h
  rw [hrest] at h
  cases rest with
  | nil => cases h
  | cons quote rest =>
    dsimp only at h
    split at h
    · cases h
    · next hq =>
      rw [bind_eq_ok] at h
      obtain ⟨⟨inner, behind⟩, hinner, h⟩ := h
      obtain ⟨literal, hliteral, ⟨htext, -⟩, rfl⟩ := readAs_quotedText hrest (by simpa using hq) hinner
      dsimp only at h
      split at h
      · next last hlast =>
        cases h
        have heq : c.rest = '_' :: '(' :: (literal ++ [')']) ++ last := by
          rw [hr, ← hrest, htext, hlast]
          simp
        have hlen : ('_' :: '(' :: (literal ++ [')'])).length = literal.length + 3 := by simp
        refine ⟨'_' :: '(' :: (literal ++ [')']), ⟨literal, hliteral, rfl⟩, ⟨?_, ?_⟩, ?_⟩
        · have hdrop : (c.advance (literal.length + 3)).rest = last := by
            rw [advance, heq, ← hlen, List.drop_left]
          exact heq.trans (by rw [← hdrop]; rfl)
        · rw [hlen]
          rfl
        · rw [hlen]
          rfl
      · cases h

theorem readAs_numeral (c : Cursor) : c.ReadAs .numeric c.numeral := by
  have hle := numeralLength_le c.rest
  refine ⟨c.rest.take (numeralLength c.rest), ?_, behind_advance hle, ?_⟩
  · cases c.rest with
    | nil => exact ⟨List.forall_mem_nil _, List.forall_mem_nil _⟩
    | cons first rest =>
      simp only [numeralLength]
      split
      · next hfirst =>
        have htake : (first :: rest).take
            ((rest.takeWhile fun d => isNumeric d && d ≠ '-').length + 1) =
              first :: rest.takeWhile fun d => isNumeric d && d ≠ '-' := by
          rw [List.take_succ_cons, take_length_takeWhile]
        rw [htake]
        have hrest : ∀ d ∈ rest.takeWhile fun d => isNumeric d && d ≠ '-',
            isNumeric d ∧ d ≠ '-' := by
          intro d hd
          simpa using of_mem_takeWhile hd
        refine ⟨List.forall_mem_cons.2 ⟨hfirst, fun d hd => (hrest d hd).1⟩, fun d hd => ?_⟩
        exact (hrest d hd).2
      · exact ⟨List.forall_mem_nil _, List.forall_mem_nil _⟩
  · rw [List.length_take, Nat.min_eq_left hle]
    rfl

theorem written_path (text : List Char) : OperandKind.path.Written (text.take (pathLength text)) := by
  rw [pathLength, take_length_takeWhile]
  intro d hd
  simpa using of_mem_takeWhile hd

theorem readAs_take_path (c : Cursor) : c.ReadAs .path (c.take (pathLength c.rest)) := by
  have hle := pathLength_le c.rest
  refine ⟨_, written_path c.rest, behind_advance hle, ?_⟩
  rw [List.length_take, Nat.min_eq_left hle]
  rfl

theorem readAs_path (h : c.path = .ok (span, next)) : c.ReadAs .path (span, next) := by
  unfold path at h
  rw [bind_eq_ok] at h
  obtain ⟨_, -, h⟩ := h
  cases h
  exact readAs_take_path c

end Cursor

/-! ## Filters in their pieces -/

/-- An argument in its pieces: what stands before the colon, its kind, and its own text. -/
structure ArgumentPiece where
  gap : List Char
  kind : OperandKind
  text : List Char

/-- A filter in its pieces. -/
structure Piece where
  blanks : List Char
  name : List Char
  argument : Option ArgumentPiece
  /-- The blanks behind the name and argument. -/
  spaces : List Char
  separator : List Char

namespace Piece

/-- The text of the argument with what stands before it. -/
def argumentText (p : Piece) : List Char :=
  match p.argument with
  | none => []
  | some a => a.gap ++ ':' :: a.text

/-- **The text of a filter.** -/
def text (p : Piece) : List Char :=
  p.blanks ++ (p.name ++ (p.argumentText ++ (p.spaces ++ p.separator)))

/-- **The word that is read** from a filter whose text begins at an offset. -/
def word (start : Nat) (p : Piece) : FilterWord where
  name := ⟨start + p.blanks.length, p.name.length⟩
  argument := p.argument.map fun a =>
    ⟨a.kind, ⟨start + p.blanks.length + p.name.length + a.gap.length + 1, a.text.length⟩⟩

/-- The words that are read from filters one behind the other. -/
def words : Nat → List Piece → List FilterWord
  | _, [] => []
  | start, p :: rest => p.word start :: words (start + p.text.length) rest

/-- Pieces of a filter are **valid** if each of them is what it stands for. -/
structure Valid (p : Piece) : Prop where
  blanks : allBlank p.blanks
  name : ∀ c ∈ p.name, isNameChar c
  name_ne : p.name ≠ []
  gap : ∀ a, p.argument = some a → ∀ c ∈ a.gap, c ≠ '|' ∧ c ≠ ':'
  argument : ∀ a, p.argument = some a → a.kind.Written a.text
  spaces : allBlank p.spaces
  separator : p.separator = [] ∨ p.separator = ['|'] ∨ p.separator = [':']

/-- Filters one behind the other are **separated** if nothing but the last one lacks a bar or colon
behind it. -/
def Separated (pieces : List Piece) : Prop := pieces.IsChain fun p _ => p.separator ≠ []

theorem length_text (p : Piece) : p.text.length = p.blanks.length + (p.name.length +
    (p.argumentText.length + (p.spaces.length + p.separator.length))) := by
  simp only [text, List.length_append]

theorem length_text_pos {p : Piece} (h : p.Valid) : 0 < p.text.length := by
  have := List.length_pos_iff.2 h.name_ne
  have := p.length_text
  omega

end Piece

namespace Chain

/-- What the reader of arguments read: nothing, or an argument behind a colon. -/
def ReadArgument (c : Cursor) (r : Option Operand × Cursor) : Prop :=
  r = (none, c) ∨ ∃ a : ArgumentPiece, (∀ d ∈ a.gap, d ≠ '|' ∧ d ≠ ':') ∧ a.kind.Written a.text ∧
    c.Behind (a.gap ++ ':' :: a.text) r.2 ∧
    r.1 = some ⟨a.kind, ⟨c.start + a.gap.length + 1, a.text.length⟩⟩

theorem readArgument_of_readAs {kind : OperandKind} {gap : List Char} {behind : Cursor}
    (hgap : ∀ d ∈ gap, d ≠ '|' ∧ d ≠ ':') (hbehind : c.Behind (gap ++ [':']) behind)
    (h : behind.ReadAs kind (span, next)) : ReadArgument c (some ⟨kind, span⟩, next) := by
  obtain ⟨text, hwritten, hnext, rfl⟩ := h
  refine .inr ⟨⟨gap, kind, text⟩, hgap, hwritten, ?_, ?_⟩
  · have := hbehind.trans hnext
    rwa [List.append_assoc] at this
  · have hstart := hbehind.2
    rw [List.length_append, List.length_singleton, ← Nat.add_assoc] at hstart
    rw [Cursor.ahead, hstart]

theorem readArgument {r : Option Operand × Cursor} (h : argument c = .ok r) : ReadArgument c r := by
  unfold argument at h
  dsimp only at h
  split at h
  · cases h
    exact .inl rfl
  · next hno =>
    simp only [Bool.or_eq_true, decide_eq_true_eq, not_or] at hno
    have hcolon : lengthBefore ':' c.rest < c.rest.length :=
      Nat.lt_of_le_of_ne (lengthBefore_le ':' c.rest) hno.1
    have hgap : ∀ d ∈ c.rest.take (lengthBefore ':' c.rest), d ≠ '|' ∧ d ≠ ':' := fun d hd =>
      ⟨ne_of_mem_take (Nat.not_lt.1 hno.2) hd, ne_of_mem_take (Nat.le_refl _) hd⟩
    have hbehind : c.Behind (c.rest.take (lengthBefore ':' c.rest) ++ [':'])
        (c.advance (lengthBefore ':' c.rest + 1)) := by
      refine ⟨?_, ?_⟩
      · rw [List.append_assoc]
        exact eq_append_cons_of_lengthBefore hcolon
      · rw [List.length_append, List.length_take, Nat.min_eq_left (Nat.le_of_lt hcolon)]
        rfl
    split at h
    · cases h
    · next hr =>
      obtain ⟨⟨span, next⟩, hread, rfl⟩ := map_eq_ok h
      exact readArgument_of_readAs hgap hbehind (Cursor.readAs_translated hr hread)
    · cases h
    · next first rest _ _ hr =>
      split at h
      · next hq =>
        obtain ⟨⟨span, next⟩, hread, rfl⟩ := map_eq_ok h
        exact readArgument_of_readAs hgap hbehind (Cursor.readAs_quotedText hr hq hread)
      · split at h
        · cases h
          exact readArgument_of_readAs hgap hbehind (Cursor.readAs_numeral _)
        · obtain ⟨⟨span, next⟩, hread, rfl⟩ := map_eq_ok h
          exact readArgument_of_readAs hgap hbehind (Cursor.readAs_path hread)

/-- Behind a filter blanks stand, and a bar, a colon or nothing at all. -/
theorem exists_separator (h : separator c = .ok next) :
    ∃ spaces sep, allBlank spaces ∧ (sep = [] ∨ sep = ['|'] ∨ sep = [':']) ∧
      c.Behind (spaces ++ sep) next ∧ (sep = [] → next.rest = []) := by
  have hbar := lengthBefore_le '|' c.rest
  have hcolon := lengthBefore_le ':' c.rest
  unfold separator at h
  dsimp only at h
  split at h
  · next hblank =>
    cases h
    rcases Nat.lt_or_ge (min (lengthBefore '|' c.rest) (lengthBefore ':' c.rest)) c.rest.length
      with hlt | hge
    · -- the nearer of the two ends the filter
      rw [Nat.min_eq_left hlt]
      have hlen (n : Nat) (hn : n < c.rest.length) (d : Char) :
          (c.advance (n + 1)).start = c.start + (c.rest.take n ++ [d]).length := by
        rw [List.length_append, List.length_take, Nat.min_eq_left (Nat.le_of_lt hn)]
        rfl
      rcases Nat.le_total (lengthBefore '|' c.rest) (lengthBefore ':' c.rest) with hle | hle
      · rw [Nat.min_eq_left hle] at hblank hlt ⊢
        refine ⟨_, ['|'], hblank, .inr (.inl rfl), ⟨?_, hlen _ hlt _⟩, nofun⟩
        rw [List.append_assoc]
        exact eq_append_cons_of_lengthBefore hlt
      · rw [Nat.min_eq_right hle] at hblank hlt ⊢
        refine ⟨_, [':'], hblank, .inr (.inr rfl), ⟨?_, hlen _ hlt _⟩, nofun⟩
        rw [List.append_assoc]
        exact eq_append_cons_of_lengthBefore hlt
    · have hmin : min (lengthBefore '|' c.rest) (lengthBefore ':' c.rest) = c.rest.length := by omega
      rw [hmin, List.take_length] at hblank
      rw [hmin, Nat.min_eq_right (Nat.le_succ _)]
      refine ⟨c.rest, [], hblank, .inl rfl, ?_, fun _ => List.drop_length⟩
      rw [List.append_nil]
      have := Cursor.behind_advance (Nat.le_refl c.rest.length)
      rwa [List.take_length] at this
  · cases h

/-- **A filter** is read from its pieces. -/
theorem exists_piece {w : FilterWord} (h : filterWord c = .ok (w, next)) :
    ∃ p : Piece, p.Valid ∧ c.Behind p.text next ∧ w = p.word c.start ∧
      (p.separator = [] → next.rest = []) := by
  unfold filterWord at h
  have hblanks := Cursor.behind_blanks c
  have hallBlank := allBlank_take_blankLength c.rest
  have hstart : (c.advance (blankLength c.rest)).start =
      c.start + (c.rest.take (blankLength c.rest)).length := hblanks.2
  generalize c.rest.take (blankLength c.rest) = blanks at hblanks hallBlank hstart
  generalize c.advance (blankLength c.rest) = c' at h hblanks hstart
  dsimp only at h
  split at h
  · cases h
  · next hname =>
    simp only [Bool.or_eq_true, decide_eq_true_eq, not_or] at hname
    have hle : (c'.rest.takeWhile isNameChar).length ≤ c'.rest.length :=
      (List.takeWhile_sublist _).length_le
    have hbehind := Cursor.behind_advance hle
    rw [take_length_takeWhile] at hbehind
    have hall : ∀ d ∈ c'.rest.takeWhile isNameChar, isNameChar d := fun _ => of_mem_takeWhile
    have hne : c'.rest.takeWhile isNameChar ≠ [] := fun hnil => hname.1 (by rw [hnil]; rfl)
    have hahead : c'.ahead (c'.rest.takeWhile isNameChar).length =
        ⟨c.start + blanks.length, (c'.rest.takeWhile isNameChar).length⟩ := by
      rw [Cursor.ahead, hstart]
    have hargstart : (c'.advance (c'.rest.takeWhile isNameChar).length).start =
        c.start + blanks.length + (c'.rest.takeWhile isNameChar).length := by
      rw [hbehind.2, hstart]
    rw [bind_eq_ok] at h
    obtain ⟨⟨value, behind⟩, hvalue, h⟩ := h
    rw [bind_eq_ok] at h
    obtain ⟨last, hlast, h⟩ := h
    cases h
    generalize c'.rest.takeWhile isNameChar = name at *
    obtain ⟨spaces, sep, hspaces, hsep, hend, hlastly⟩ := exists_separator hlast
    rcases readArgument hvalue with heq | ⟨a, hgap, hwritten, hargument, hspan⟩
    · cases heq
      refine ⟨⟨blanks, name, none, spaces, sep⟩,
        ⟨hallBlank, hall, hne, ?_, ?_, hspaces, hsep⟩, ?_, ?_, hlastly⟩
      · rintro _ ⟨⟩
      · rintro _ ⟨⟩
      · exact hblanks.trans (hbehind.trans hend)
      · rw [hahead]
        rfl
    · refine ⟨⟨blanks, name, some a, spaces, sep⟩,
        ⟨hallBlank, hall, hne, ?_, ?_, hspaces, hsep⟩, ?_, ?_, hlastly⟩
      · rintro _ ⟨⟩
        exact hgap
      · rintro _ ⟨⟩
        exact hwritten
      · exact hblanks.trans (hbehind.trans (hargument.trans hend))
      · dsimp only at hspan
        rw [hahead, hspan, hargstart]
        rfl

theorem exists_pieces_of_readUpTo {limit : Nat} (hl : c.rest.length ≤ limit)
    (h : (Cursor.readUpTo filterStep limit c).error = none) :
    ∃ pieces : List Piece, (∀ p ∈ pieces, p.Valid) ∧ Piece.Separated pieces ∧
      c.rest = pieces.flatMap Piece.text ∧
      (Cursor.readUpTo filterStep limit c).words = Piece.words c.start pieces := by
  induction limit generalizing c with
  | zero => exact ⟨[], nofun, List.IsChain.nil, List.length_eq_zero_iff.1 (by omega), rfl⟩
  | succ limit ih =>
    unfold Cursor.readUpTo at h ⊢
    cases hs : filterStep c with
    | none =>
      have hnil : c.rest = [] := by
        unfold filterStep Cursor.Step.ofRead at hs
        split at hs
        · next he => simpa using he
        · split at hs <;> cases hs
      exact ⟨[], nofun, List.IsChain.nil, hnil, rfl⟩
    | some r =>
      obtain ⟨x, next⟩ := r
      cases x with
      | error e => simp [hs] at h
      | ok w =>
        have hw : filterWord c = .ok (w, next) := by
          unfold filterStep Cursor.Step.ofRead at hs
          split at hs
          · cases hs
          · split at hs
            · next hread =>
              cases hs
              exact hread
            · cases hs
        obtain ⟨p, hp, hbehind, rfl, hlastly⟩ := exists_piece hw
        have hpos := Piece.length_text_pos hp
        have hlen := congrArg List.length hbehind.1
        rw [List.length_append] at hlen
        rw [hs] at h
        obtain ⟨pieces, hpieces, hseparated, hrest, hwords⟩ := ih (c := next) (by omega) h
        refine ⟨p :: pieces, List.forall_mem_cons.2 ⟨hp, hpieces⟩, ?_, ?_, ?_⟩
        · cases pieces with
          | nil => exact List.IsChain.singleton p
          | cons q rest =>
            -- something is left to read behind this filter
            refine List.IsChain.cons_cons (fun hnil => ?_) hseparated
            have hq := Piece.length_text_pos (hpieces q List.mem_cons_self)
            have hlen := congrArg List.length (hrest.symm.trans (hlastly hnil))
            rw [List.flatMap_cons, List.length_append, List.length_nil] at hlen
            omega
        · rw [hbehind.1, hrest, List.flatMap_cons]
        · simp only [hwords, Piece.words, hbehind.2]

/-- **The filters of a chain** that are read without an error are the words of pieces that add up to
its text. -/
theorem exists_pieces (h : (Cursor.readAll filterStep c).error = none) :
    ∃ pieces : List Piece, (∀ p ∈ pieces, p.Valid) ∧ Piece.Separated pieces ∧
      c.rest = pieces.flatMap Piece.text ∧
      (Cursor.readAll filterStep c).words = Piece.words c.start pieces :=
  exists_pieces_of_readUpTo (Nat.le_refl _) h

end Chain

/-! ## Whole chains -/

/-- A chain in its pieces. -/
structure ChainPieces where
  blanks : List Char
  value : List Char
  /-- The blanks behind the value. -/
  spaces : List Char
  /-- The first bar with the blanks behind it, or nothing. -/
  bar : List Char
  filters : List Piece
  trailing : List Char

namespace ChainPieces

/-- **The text of a chain.** -/
def text (p : ChainPieces) : List Char :=
  p.blanks ++ (p.value ++ (p.spaces ++ (p.bar ++ (p.filters.flatMap Piece.text ++ p.trailing))))

/-- The place of the value of a chain whose text begins at an offset. -/
def valueSpan (start : Nat) (p : ChainPieces) : Span := ⟨start + p.blanks.length, p.value.length⟩

/-- Where the filters begin. -/
def filtersStart (start : Nat) (p : ChainPieces) : Nat :=
  start + p.blanks.length + p.value.length + p.spaces.length + p.bar.length

/-- The words that are read from the filters. -/
def words (start : Nat) (p : ChainPieces) : List FilterWord :=
  Piece.words (p.filtersStart start) p.filters

/-- Pieces of a chain are **valid** if each of them is what it stands for. -/
structure Valid (p : ChainPieces) (kind : OperandKind) : Prop where
  blanks : allBlank p.blanks
  value : kind.Written p.value
  spaces : allBlank p.spaces
  bar : (p.bar = [] ∧ p.filters = []) ∨ ∃ blanks, allBlank blanks ∧ p.bar = '|' :: blanks
  filters : ∀ f ∈ p.filters, f.Valid
  separated : Piece.Separated p.filters
  trailing : allBlank p.trailing

end ChainPieces

namespace Chain

theorem readAs_head {o : Operand} (h : head c = .ok (o, next)) : c.ReadAs o.kind (o.span, next) := by
  unfold head at h
  split at h
  · next hr =>
    obtain ⟨⟨span, next⟩, hread, heq⟩ := map_eq_ok h
    cases heq
    exact Cursor.readAs_translated hr hread
  · next first rest _ hr =>
    split at h
    · next hq =>
      obtain ⟨⟨span, next⟩, hread, heq⟩ := map_eq_ok h
      cases heq
      exact Cursor.readAs_quotedText hr hq hread
    · split at h
      · cases h
        exact Cursor.readAs_numeral c
      · unfold head.name at h
        dsimp only at h
        split at h
        · cases h
        · split at h
          · rw [bind_eq_ok] at h
            obtain ⟨_, -, h⟩ := h
            cases h
          · rw [bind_eq_ok] at h
            obtain ⟨_, -, h⟩ := h
            cases h
            exact Cursor.readAs_take_path c
  · cases h

/-- Only blanks stand between the value of a chain and its first bar. -/
theorem allBlank_of_checkGap {o : Operand} {u : Unit} (h : checkGap o c = .ok u) :
    allBlank (c.rest.take (lengthBefore '|' c.rest)) := by
  unfold checkGap at h
  dsimp only at h
  split at h
  · assumption
  · split at h <;> cases h

/-- The filters stand behind the first bar, without the blanks around them. -/
theorem exists_filters (c : Cursor) :
    ∃ bar trailing, c.rest =
        c.rest.take (lengthBefore '|' c.rest) ++ (bar ++ ((filters c).rest ++ trailing)) ∧
      (filters c).start = c.start + (c.rest.take (lengthBefore '|' c.rest)).length + bar.length ∧
      ((bar = [] ∧ (filters c).rest = []) ∨ ∃ blanks, allBlank blanks ∧ bar = '|' :: blanks) ∧
      allBlank trailing := by
  have hle := lengthBefore_le '|' c.rest
  have hlen : (c.rest.take (lengthBefore '|' c.rest)).length = lengthBefore '|' c.rest := by
    rw [List.length_take, Nat.min_eq_left hle]
  unfold filters
  dsimp only
  split
  · next hno =>
    refine ⟨[], [], ?_, ?_, .inl ⟨rfl, rfl⟩, rfl⟩
    · rw [hno, List.take_length, Cursor.finish]
      simp
    · rw [hlen]
      rfl
  · next hbar =>
    have heq := eq_append_cons_of_lengthBefore (Nat.lt_of_le_of_ne hle hbar)
    obtain ⟨trailing, htrailing, htrim⟩ :=
      exists_trimEnd_append (trimStart (c.rest.drop (lengthBefore '|' c.rest + 1)))
    refine ⟨'|' :: (c.rest.drop (lengthBefore '|' c.rest + 1)).take
        (blankLength (c.rest.drop (lengthBefore '|' c.rest + 1))), trailing, ?_, ?_,
      .inr ⟨_, allBlank_take_blankLength _, rfl⟩, htrailing⟩
    · have hdrop : c.rest.drop (lengthBefore '|' c.rest + 1) =
          (c.rest.drop (lengthBefore '|' c.rest + 1)).take
              (blankLength (c.rest.drop (lengthBefore '|' c.rest + 1))) ++
            (trim (c.rest.drop (lengthBefore '|' c.rest + 1)) ++ trailing) := by
        rw [trim, ← htrim, ← drop_blankLength, List.take_append_drop]
      exact heq.trans (by rw [List.cons_append, Cursor.advance, ← hdrop])
    · have hblank := blankLength_le (c.rest.drop (lengthBefore '|' c.rest + 1))
      simp only [Cursor.advance, List.length_cons, List.length_take, Nat.min_eq_left hblank,
        Nat.min_eq_left hle]
      omega

/-- **A chain that is read without an error** is read from its pieces. -/
theorem exists_chainPieces {content : List Char} {start : Nat} {value : Operand} {filters : Cursor}
    (h : read? content start = .ok (some (value, filters)))
    (hdrained : (Cursor.readAll filterStep filters).error = none) :
    ∃ p : ChainPieces, p.Valid value.kind ∧ content = p.text ∧ value.span = p.valueSpan start ∧
      (Cursor.readAll filterStep filters).words = p.words start := by
  unfold read? at h
  dsimp only at h
  split at h
  · cases h
  · rw [bind_eq_ok] at h
    obtain ⟨⟨value', behind⟩, hhead, h⟩ := h
    rw [bind_eq_ok] at h
    obtain ⟨_, hgap, h⟩ := h
    cases h
    obtain ⟨text, hwritten, ⟨hrest, hstart⟩, hspan⟩ := readAs_head hhead
    obtain ⟨bar, trailing, heq, hfilters, hbar, htrailing⟩ := exists_filters behind
    obtain ⟨pieces, hvalid, hseparated, hpieces, hwords⟩ := exists_pieces hdrained
    dsimp only at hrest hstart hspan hpieces hwords ⊢
    have hblanks : (content.take (blankLength content)).length =
        content.length - (trimStart content).length := by
      have := blankLength_add_length_trimStart content
      rw [List.length_take]
      omega
    refine ⟨⟨content.take (blankLength content), text,
      behind.rest.take (lengthBefore '|' behind.rest), bar, pieces, trailing⟩,
      ⟨allBlank_take_blankLength content, hwritten, allBlank_of_checkGap hgap, ?_, hvalid,
        hseparated, htrailing⟩, ?_, ?_, ?_⟩
    · -- without a bar there are no filters
      refine hbar.imp_left fun ⟨hnil, hrest⟩ => ⟨hnil, ?_⟩
      cases pieces with
      | nil => rfl
      | cons p rest =>
        have := Piece.length_text_pos (hvalid p List.mem_cons_self)
        have hlen := congrArg List.length (hrest.symm.trans hpieces)
        simp only [List.length_nil, List.flatMap_cons, List.length_append] at hlen
        omega
    · rw [ChainPieces.text, ← hpieces, ← heq, ← hrest, ← drop_blankLength, List.take_append_drop]
    · rw [hspan, ChainPieces.valueSpan, hblanks]
      rfl
    · rw [hwords, hfilters, ChainPieces.words, ChainPieces.filtersStart, hblanks, hstart]

end Chain

end Galley
