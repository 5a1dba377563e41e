import Galley.Proofs.Escapes
import Galley.Proofs.TagText

/-!
# Reading a chain once more

A value of a chain and a filter of it are read from their own text and from the one character behind it.
Where another text stands behind them they are read again.

* `Chain.Leads`: a value and what stands behind it.
* `Chain.Leads.cons`: only the first character behind it matters.
* `Chain.filterWord_of_leads`, `Chain.exists_leads_piece`: **a filter is read exactly where its name and
  its argument stand.**
-/

namespace Galley

open Text

variable {c next : Cursor} {text rest gap : List Char} {d first : Char} {start n : Nat}
  {kind : OperandKind} {o : Operand}

/-! ## Where a class of characters ends -/

/-- A text is the longest beginning of a class, with another character behind it. -/
theorem length_takeWhile_eq_iff {p : Char → Bool} :
    ((text ++ d :: rest).takeWhile p).length = text.length ↔ (∀ e ∈ text, p e) ∧ p d = false := by
  induction text with
  | nil => cases hd : p d <;> simp [hd]
  | cons e text ih => cases he : p e <;> simp [he, ih]

theorem numeralLength_cons_eq (h : Cursor.numeralLength (text ++ d :: rest) = text.length)
    (rest' : List Char) : Cursor.numeralLength (text ++ d :: rest') = text.length := by
  cases text with
  | nil =>
    simp only [List.nil_append, Cursor.numeralLength, List.length_nil] at h ⊢
    split at h
    · cases h
    · next hd => rw [if_neg hd]
  | cons e text =>
    simp only [List.cons_append, Cursor.numeralLength, List.length_cons] at h ⊢
    split at h
    · next he =>
      rw [if_pos he, length_takeWhile_eq_iff.2 (length_takeWhile_eq_iff.1 (Nat.succ.inj h))]
    · cases h

theorem pathLength_cons_eq (h : Cursor.pathLength (text ++ d :: rest) = text.length)
    (rest' : List Char) : Cursor.pathLength (text ++ d :: rest') = text.length :=
  length_takeWhile_eq_iff.2 (length_takeWhile_eq_iff.1 h)

/-! ## Literals -/

theorem quotedText_quoted {quote : Char} {body : List Char} (hquote : Cursor.isQuote quote)
    (hbody : LiteralBody quote body) (start : Nat) (rest : List Char) :
    (⟨start, quote :: (body ++ [quote]) ++ rest⟩ : Cursor).quotedText quote =
      .ok (⟨start, body.length + 2⟩, ⟨start + (body.length + 2), rest⟩) := by
  refine (Cursor.quotedText_eq_ok_iff hquote).2 ⟨body, rest, ?_, by simp, rfl, rfl⟩
  exact encloses_of_literalBody (ne_backslash_of_isQuote hquote) hbody

/-- The call around a literal that is to be translated. -/
def call (literal : List Char) : List Char := '_' :: '(' :: (literal ++ [')'])

theorem translated_call (h : IsQuoted text) (start : Nat) (rest : List Char) :
    (⟨start, call text ++ rest⟩ : Cursor).translated =
      .ok (⟨start, text.length + 3⟩, ⟨start + (text.length + 3), rest⟩) := by
  obtain ⟨quote, body, hquote, hbody, rfl⟩ := h
  have hinner := quotedText_quoted hquote hbody (start + 2) (')' :: rest)
  have hadvance : (⟨start, call (quote :: (body ++ [quote])) ++ rest⟩ : Cursor).advance 2 =
      ⟨start + 2, quote :: (body ++ [quote]) ++ ')' :: rest⟩ := by
    simp [call, Cursor.advance]
  have hdrop : (call (quote :: (body ++ [quote])) ++ rest).drop (body.length + 2 + 3) = rest := by
    have hlength : (call (quote :: (body ++ [quote]))).length = body.length + 2 + 3 := by simp [call]
    rw [← hlength, List.drop_left]
  have hlength : (quote :: (body ++ [quote])).length = body.length + 2 := by simp
  rw [Cursor.translated, hadvance]
  dsimp only [List.cons_append]
  rw [if_neg (by simp [hquote]), ← List.cons_append, hinner, hlength]
  simp only [bind, Except.bind, Cursor.take, Cursor.ahead, Cursor.advance, hdrop]
  rfl

/-! ## Values -/

namespace Chain

/-- **A value leads** a text: it is read from the start, up to where the rest begins. -/
def Leads (kind : OperandKind) (text rest : List Char) : Prop :=
  head ⟨0, text ++ rest⟩ = .ok (⟨kind, ⟨0, text.length⟩⟩, ⟨text.length, rest⟩)

theorem Leads.head (h : Leads kind text rest) (start : Nat) :
    Chain.head ⟨start, text ++ rest⟩ =
      .ok (⟨kind, ⟨start, text.length⟩⟩, ⟨start + text.length, rest⟩) :=
  (moves_head start ⟨0, text ++ rest⟩).of_ok h

/-- What is read at the start of a chain leads it. -/
theorem exists_leads (h : Chain.head c = .ok (o, next)) :
    ∃ text, Leads o.kind text next.rest ∧ c.Behind text next ∧ o.span = c.ahead text.length := by
  obtain ⟨⟨⟨kind, span⟩, behind⟩, hread, heq⟩ := (moves_head c.start ⟨0, c.rest⟩).exists_of_ok h
  obtain ⟨text, -, ⟨hrest, hstart⟩, hspan⟩ := readAs_head hread
  dsimp only at hrest hstart hspan
  rw [Nat.zero_add] at hstart
  subst hspan
  obtain ⟨rfl, rfl⟩ := Prod.mk.inj heq
  refine ⟨text, ?_, ⟨hrest, congrArg (c.start + ·) hstart⟩, rfl⟩
  have hleads : Leads kind text behind.rest := by
    rw [Leads, ← hrest, hread, ← hstart]
    rfl
  exact hleads

/-- **A literal leads** whatever stands behind it. -/
theorem leads_quoted (h : IsQuoted text) (rest : List Char) : Leads .text text rest := by
  obtain ⟨quote, body, hquote, hbody, rfl⟩ := h
  have hread := quotedText_quoted hquote hbody 0 rest
  have hmark : quote ≠ '_' := by
    rintro rfl
    exact absurd hquote (by decide)
  have hlength : (quote :: (body ++ [quote])).length = body.length + 2 := by simp
  rw [List.cons_append] at hread
  rw [Leads, List.cons_append, head_cons hmark, if_pos hquote, hread, hlength, Nat.zero_add]
  rfl

/-- **So does a literal that is to be translated.** -/
theorem leads_call (h : IsQuoted text) (rest : List Char) : Leads .translated (call text) rest := by
  have hread := translated_call h 0 rest
  have hlength : (call text).length = text.length + 3 := by simp [call]
  rw [Leads, hlength]
  simp only [call, List.cons_append] at hread ⊢
  rw [Chain.head, hread, Nat.zero_add]
  rfl

/-- A value that is neither a literal nor a call begins with neither a quote nor an underscore. -/
theorem first_of_head (h : Chain.head ⟨start, first :: rest⟩ = .ok (o, next)) (htext : o.kind ≠ .text)
    (hcall : o.kind ≠ .translated) : first ≠ '_' ∧ Cursor.isQuote first = false := by
  have hmark : first ≠ '_' := by
    rintro rfl
    by_cases hbracket : rest.head? = some '('
    · obtain ⟨tail, rfl⟩ := List.head?_eq_some_iff.1 hbracket
      obtain ⟨r, -, heq⟩ := map_eq_ok h
      exact hcall (congrArg (·.1.kind) heq).symm
    · exact head_underscore_ne_ok hbracket h
  refine ⟨hmark, Bool.eq_false_iff.2 fun hquote => ?_⟩
  rw [head_cons hmark, if_pos hquote] at h
  obtain ⟨r, -, heq⟩ := map_eq_ok h
  exact htext (congrArg (·.1.kind) heq).symm

section Plain

variable {tail : List Char} (heq : text ++ rest = first :: tail) (hmark : first ≠ '_')
  (hquote : Cursor.isQuote first = false)

include heq hmark hquote

/-- Where a number leads. -/
theorem leads_numeric_iff : Leads .numeric text rest ↔
    Cursor.startsNumber first ∧ Cursor.numeralLength (text ++ rest) = text.length := by
  rw [Leads, heq, head_cons hmark, hquote, if_neg Bool.false_ne_true, ← heq]
  by_cases hnumber : Cursor.startsNumber first
  · rw [if_pos hnumber, and_iff_right hnumber]
    constructor
    · intro h
      exact congrArg Span.length (congrArg (·.1.span) (Except.ok.inj h))
    · intro hlength
      simp only [Cursor.numeral, Cursor.take, Cursor.ahead, Cursor.advance, hlength, List.drop_left,
        Nat.zero_add]
  · rw [if_neg hnumber]
    refine iff_of_false (fun h => ?_) fun h => hnumber h.1
    cases (path_of_head_name h).1

/-- Where a name leads. -/
theorem leads_path_iff : Leads .path text rest ↔ ¬Cursor.startsNumber first ∧
    head.name ⟨0, text ++ rest⟩ = .ok (⟨.path, ⟨0, text.length⟩⟩, ⟨text.length, rest⟩) := by
  rw [Leads, heq, head_cons hmark, hquote, if_neg Bool.false_ne_true, ← heq]
  by_cases hnumber : Cursor.startsNumber first
  · rw [if_pos hnumber]
    refine iff_of_false (fun h => ?_) fun h => h.1 hnumber
    cases h
  · rw [if_neg hnumber]
    exact (and_iff_right hnumber).symm

end Plain

/-- A name is read from its own text, if it ends there. -/
theorem head_name_append {rest' : List Char}
    (hpath : Cursor.pathLength (text ++ rest) = text.length →
      Cursor.pathLength (text ++ rest') = text.length)
    (h : head.name ⟨0, text ++ rest⟩ = .ok (⟨.path, ⟨0, text.length⟩⟩, ⟨text.length, rest⟩)) :
    head.name ⟨0, text ++ rest'⟩ = .ok (⟨.path, ⟨0, text.length⟩⟩, ⟨text.length, rest'⟩) := by
  have hlength : Cursor.pathLength (text ++ rest) = text.length := by
    have hread := (path_of_head_name h).2
    rw [Cursor.path, bind_eq_ok] at hread
    obtain ⟨_, -, hread⟩ := hread
    exact congrArg Span.length (Prod.mk.inj (Except.ok.inj hread)).1
  unfold head.name at h ⊢
  simp only [hlength, hpath hlength, List.take_left, Cursor.advance, List.drop_left, Cursor.ahead,
    Nat.zero_add] at h ⊢
  split at h
  · cases h
  · next hne =>
    rw [if_neg hne]
    split at h
    · rw [bind_eq_ok] at h
      obtain ⟨_, -, h⟩ := h
      cases h
    · next hlast =>
      rw [bind_eq_ok] at h
      obtain ⟨_, hcheck, -⟩ := h
      rw [if_neg hlast, hcheck]
      rfl

/-- **Of what stands behind a value** no more than the first character matters. -/
theorem Leads.cons (h : Leads kind text (d :: rest)) (rest' : List Char) :
    Leads kind text (d :: rest') := by
  obtain ⟨text', hwritten, ⟨hrest, hstart⟩, hspan⟩ := readAs_head h
  dsimp only at hwritten hrest hstart hspan
  obtain ⟨rfl, -⟩ := List.append_inj hrest (by simpa using hstart)
  obtain ⟨first, tail, tail', heq, heq'⟩ : ∃ first tail tail',
      text ++ d :: rest = first :: tail ∧ text ++ d :: rest' = first :: tail' := by
    cases text with
    | nil => exact ⟨d, rest, rest', rfl, rfl⟩
    | cons e text => exact ⟨e, _, _, rfl, rfl⟩
  have hread := h
  rw [Leads, heq] at hread
  cases kind with
  | text => exact leads_quoted hwritten _
  | translated =>
    obtain ⟨literal, hliteral, rfl⟩ := hwritten
    exact leads_call hliteral _
  | numeric =>
    obtain ⟨hmark, hquote⟩ := first_of_head hread (by simp) (by simp)
    obtain ⟨hnumber, hlength⟩ := (leads_numeric_iff heq hmark hquote).1 h
    exact (leads_numeric_iff heq' hmark hquote).2 ⟨hnumber, numeralLength_cons_eq hlength rest'⟩
  | path =>
    obtain ⟨hmark, hquote⟩ := first_of_head hread (by simp) (by simp)
    obtain ⟨hnumber, hname⟩ := (leads_path_iff heq hmark hquote).1 h
    exact (leads_path_iff heq' hmark hquote).2
      ⟨hnumber, head_name_append (pathLength_cons_eq · rest') hname⟩

theorem Leads.append {ending : List Char} (h : Leads kind text (ending ++ rest)) (hne : ending ≠ [])
    (rest' : List Char) : Leads kind text (ending ++ rest') := by
  obtain ⟨d, more, rfl⟩ := List.exists_cons_of_ne_nil hne
  exact h.cons (more ++ rest')

/-! ## Arguments -/

theorem splitOn_ne_nil (x : Char) (text : List Char) : splitOn x text ≠ [] := by
  cases text with
  | nil => exact List.cons_ne_nil _ _
  | cons e text =>
    rw [splitOn]
    split
    · exact List.cons_ne_nil _ _
    · split <;> exact List.cons_ne_nil _ _

theorem splitOn_concat (x : Char) (text : List Char) :
    splitOn x (text ++ [x]) = splitOn x text ++ [[]] := by
  induction text with
  | nil => simp [splitOn]
  | cons e text ih =>
    simp only [List.cons_append, splitOn, ih]
    by_cases he : e = x
    · simp only [he, if_true, List.cons_append]
    · simp only [he, if_false]
      cases hsplit : splitOn x text with
      | nil => exact absurd hsplit (splitOn_ne_nil x text)
      | cons first others => rfl

theorem badSegment?_of_mem {segments : List (List Char)} (h : [] ∈ segments) (start : Nat) :
    Cursor.badSegment? start segments ≠ none := by
  induction segments generalizing start with
  | nil => cases h
  | cons segment others ih =>
    cases segment with
    | nil => nofun
    | cons e segment =>
      obtain h | h := List.mem_cons.1 h
      · cases h
      · unfold Cursor.badSegment?
        split
        · nofun
        · nofun
        · exact ih h _

/-- A name that is refused neither is empty nor ends with a dot. -/
theorem of_checkPath {u : Unit} (h : Cursor.checkPath text start = .ok u) :
    text ≠ [] ∧ text.getLast? ≠ some '.' := by
  have hnone (segments : List (List Char)) (hs : splitOn '.' text = segments) : [] ∉ segments := by
    subst hs
    intro hmem
    unfold Cursor.checkPath at h
    split at h
    · cases h
    · next hbad => exact badSegment?_of_mem hmem start hbad
  refine ⟨?_, fun hlast => ?_⟩
  · rintro rfl
    exact hnone _ rfl (List.mem_singleton.2 rfl)
  · obtain ⟨init, rfl⟩ := List.getLast?_eq_some_iff.1 hlast
    exact hnone _ (splitOn_concat '.' init) (List.mem_append_right _ (List.mem_singleton.2 rfl))

theorem head_name_of_path {span : Span} (h : c.path = .ok (span, next)) :
    head.name c = .ok (⟨.path, span⟩, next) := by
  unfold Cursor.path at h
  rw [bind_eq_ok] at h
  obtain ⟨_, hcheck, h⟩ := h
  cases h
  obtain ⟨hne, hlast⟩ := of_checkPath hcheck
  have hlength : Cursor.pathLength c.rest ≠ 0 := fun hzero => hne (by rw [hzero]; rfl)
  simp only [head.name, if_neg hlength, if_neg hlast, hcheck]
  rfl

/-- **What is an argument behind a colon** is the same value at the start of a chain. -/
theorem head_of_argument {value : Option Operand} (h : argument ⟨start, ':' :: text⟩ = .ok (value, next)) :
    ∃ o, value = some o ∧ Chain.head ⟨start + 1, text⟩ = .ok (o, next) := by
  have hcolon : lengthBefore ':' (':' :: text) = 0 := rfl
  unfold argument at h
  simp only [hcolon, List.length_cons, Nat.not_lt_zero, Nat.zero_ne_add_one, decide_false,
    Bool.or_self, Bool.false_eq_true, if_false, Cursor.advance, Nat.zero_add, List.drop_succ_cons,
    List.drop_zero] at h
  split at h
  · cases h
  · obtain ⟨r, hread, heq⟩ := map_eq_ok h
    cases heq
    refine ⟨_, rfl, ?_⟩
    rw [Chain.head, hread]
    rfl
  · cases h
  · next first rest hno hmark =>
    rw [head_cons hmark]
    split at h
    · next hquote =>
      obtain ⟨r, hread, heq⟩ := map_eq_ok h
      cases heq
      rw [if_pos hquote, hread]
      exact ⟨_, rfl, rfl⟩
    · next hquote =>
      rw [if_neg hquote]
      split at h
      · next hnumber =>
        cases h
        rw [if_pos hnumber]
        exact ⟨_, rfl, rfl⟩
      · next hnumber =>
        obtain ⟨r, hread, heq⟩ := map_eq_ok h
        cases heq
        rw [if_neg hnumber]
        exact ⟨_, rfl, head_name_of_path hread⟩

theorem le_lengthBefore_append (h : d ∉ text) (rest : List Char) :
    text.length ≤ lengthBefore d (text ++ rest) := by
  have hpos : ∀ e ∈ text, (e != d) = true := fun e he => by
    simpa using show e ≠ d from fun heq => h (heq ▸ he)
  rw [lengthBefore, List.takeWhile_append_of_pos hpos, List.length_append]
  exact Nat.le_add_right _ _

/-- What stands between a name and the colon of its argument does not matter. -/
theorem argument_gap (h : ∀ e ∈ gap, e ≠ '|' ∧ e ≠ ':') (start : Nat) (rest : List Char) :
    argument ⟨start, gap ++ ':' :: rest⟩ = argument ⟨start + gap.length, ':' :: rest⟩ := by
  have hcolon : lengthBefore ':' (gap ++ ':' :: rest) = gap.length :=
    lengthBefore_append_cons (fun hmem => (h ':' hmem).2 rfl) rest
  have hbar : ¬ lengthBefore '|' (gap ++ ':' :: rest) < gap.length :=
    Nat.not_lt.2 (le_lengthBefore_append (fun hmem => (h '|' hmem).1 rfl) _)
  have hlength : gap.length ≠ (gap ++ ':' :: rest).length := by simp
  have hdrop : (gap ++ ':' :: rest).drop (gap.length + 1) = rest := by
    rw [← List.drop_drop, List.drop_left]
    rfl
  have hcolon' : lengthBefore ':' (':' :: rest) = 0 := rfl
  unfold argument
  simp only [hcolon, hcolon', hlength, hbar, Cursor.advance, hdrop, List.length_cons, Nat.not_lt_zero,
    Nat.zero_ne_add_one, decide_false, Bool.or_self, Bool.false_eq_true, if_false, Nat.zero_add,
    List.drop_succ_cons, List.drop_zero, Nat.add_assoc]

/-! ## Filters -/

/-- **What ends a filter** is read with the blanks before it. -/
theorem separator_append {spaces sep : List Char} (hspaces : allBlank spaces)
    (hsep : sep = [] ∨ sep = ['|'] ∨ sep = [':']) (hlast : sep = [] → rest = []) (start : Nat) :
    separator ⟨start, spaces ++ (sep ++ rest)⟩ = .ok ⟨start + (spaces.length + sep.length), rest⟩ := by
  have hbar := not_mem_of_allBlank hspaces (by decide : isBlank '|' = false)
  have hcolon := not_mem_of_allBlank hspaces (by decide : isBlank ':' = false)
  have hle : spaces.length ≤ min (lengthBefore '|' (spaces ++ (sep ++ rest)))
      (lengthBefore ':' (spaces ++ (sep ++ rest))) :=
    Nat.le_min.2 ⟨le_lengthBefore_append hbar _, le_lengthBefore_append hcolon _⟩
  have hmin : min (lengthBefore '|' (spaces ++ (sep ++ rest)))
      (lengthBefore ':' (spaces ++ (sep ++ rest))) = spaces.length := by
    refine Nat.le_antisymm ?_ hle
    rcases hsep with rfl | rfl | rfl
    · rw [hlast rfl, List.append_nil, List.append_nil]
      exact Nat.le_trans (Nat.min_le_left _ _) (lengthBefore_le _ _)
    · exact Nat.le_trans (Nat.min_le_left _ _) (Nat.le_of_eq (lengthBefore_append_cons hbar rest))
    · exact Nat.le_trans (Nat.min_le_right _ _)
        (Nat.le_of_eq (lengthBefore_append_cons hcolon rest))
  have hlength : min (spaces.length + 1) (spaces ++ (sep ++ rest)).length =
      (spaces ++ sep).length := by
    rcases hsep with rfl | rfl | rfl
    · rw [hlast rfl]
      simp
    · simp
    · simp
  have hdrop : (spaces ++ (sep ++ rest)).drop (spaces ++ sep).length = rest := by
    rw [← List.append_assoc, List.drop_left]
  rw [separator]
  simp only [hmin, List.take_left, hspaces, if_true, Cursor.advance, hlength, hdrop]
  rw [List.length_append]

end Chain

/-- **A filter leads a text** if it is read in its pieces, up to where the rest begins. -/
structure Piece.Leads (p : Piece) (rest : List Char) : Prop where
  valid : p.Valid
  first : p.name.head?.any isNameStart
  ended : ∀ a, p.argument = some a → ∀ d ∈ a.gap.head?, isNameChar d = false
  argument : ∀ a, p.argument = some a →
    Chain.Leads a.kind a.text (p.spaces ++ (p.separator ++ rest))
  bare : p.argument = none → p.separator ≠ [':']
  last : p.separator = [] → rest = []

namespace Chain

/-- The name of a filter with the blanks before it. -/
theorem filterWord_name {blanks name : List Char} (hblanks : allBlank blanks)
    (hname : ∀ e ∈ name, isNameChar e) (hfirst : name.head?.any isNameStart)
    (hrest : ∀ e ∈ rest.head?, isNameChar e = false) (start : Nat) :
    filterWord ⟨start, blanks ++ (name ++ rest)⟩ = (do
      let (value, behind) ← argument ⟨start + blanks.length + name.length, rest⟩
      let behind ← separator behind
      return (⟨⟨start + blanks.length, name.length⟩, value⟩, behind)) := by
  have hne : name ≠ [] := by
    rintro rfl
    cases hfirst
  have hblank : ∀ e ∈ (name ++ rest).head?, isBlank e = false := by
    rw [List.head?_append_of_ne_nil _ hne]
    exact fun e he => not_isBlank_of_isNameChar (hname e (List.mem_of_mem_head? he))
  have hlength : blankLength (blanks ++ (name ++ rest)) = blanks.length := by
    rw [blankLength, takeWhile_ended (List.all_eq_true.1 hblanks) hblank]
  have hhead : (name ++ rest).head?.any isNameStart := by
    rwa [List.head?_append_of_ne_nil _ hne]
  have hpos : name.length ≠ 0 := fun hzero => hne (List.length_eq_zero_iff.1 hzero)
  unfold filterWord
  simp only [hlength, Cursor.advance, List.drop_left, takeWhile_ended hname hrest, hhead, hpos,
    decide_false, Bool.not_true, Bool.or_self, Bool.false_eq_true, if_false]
  rfl

/-- A filter without an argument ends like a value. -/
theorem ends_of_bare {p : Piece} (h : p.Leads rest) (hbare : p.argument = none) :
    Ends (p.spaces ++ (p.separator ++ rest)) := by
  rcases h.valid.separator with hsep | hsep | hsep
  · rw [hsep, h.last hsep, List.append_nil, List.append_nil]
    exact .blank h.valid.spaces
  · rw [hsep]
    exact .bar h.valid.spaces rest
  · exact absurd hsep (h.bare hbare)

/-- Where a name ends. -/
theorem head?_behind_name {p : Piece} (h : p.Leads rest) :
    ∀ e ∈ (p.argumentText ++ (p.spaces ++ (p.separator ++ rest))).head?, isNameChar e = false := by
  intro e he
  unfold Piece.argumentText at he
  cases ha : p.argument with
  | none =>
    rw [ha] at he
    exact (of_isEnd ((ends_of_bare h ha).isEnd_head? e he)).1
  | some a =>
    rw [ha] at he
    cases hgap : a.gap with
    | nil =>
      simp only [hgap] at he
      cases he
      decide +kernel
    | cons d gap =>
      simp only [hgap] at he
      cases he
      exact h.ended a ha e (by rw [hgap]; rfl)

/-- The argument of a filter. -/
theorem argument_of_leads {p : Piece} (h : p.Leads rest) (start : Nat) :
    argument ⟨start, p.argumentText ++ (p.spaces ++ (p.separator ++ rest))⟩ =
      .ok (p.argument.map fun a => ⟨a.kind, ⟨start + a.gap.length + 1, a.text.length⟩⟩,
        ⟨start + p.argumentText.length, p.spaces ++ (p.separator ++ rest)⟩) := by
  unfold Piece.argumentText
  cases ha : p.argument with
  | none => exact argument_of_ends (ends_of_bare h ha) start
  | some a =>
    have hread := argument_of_head ((h.argument a ha).head (start + a.gap.length + 1))
    have hlength : start + a.gap.length + 1 + a.text.length =
        start + (a.gap ++ ':' :: a.text).length := by
      rw [List.length_append, List.length_cons]
      omega
    dsimp only [Option.map_some]
    rw [List.append_assoc, List.cons_append, argument_gap (h.valid.gap a ha), hread, hlength]

/-- **A filter is read** where its pieces stand. -/
theorem filterWord_of_leads {p : Piece} (h : p.Leads rest) (start : Nat) :
    filterWord ⟨start, p.text ++ rest⟩ = .ok (p.word start, ⟨start + p.text.length, rest⟩) := by
  have htext : p.text ++ rest = p.blanks ++ (p.name ++ (p.argumentText ++
      (p.spaces ++ (p.separator ++ rest)))) := by
    simp [Piece.text]
  have hread := argument_of_leads h (start + p.blanks.length + p.name.length)
  have hsep := separator_append h.valid.spaces h.valid.separator h.last
    (start + p.blanks.length + p.name.length + p.argumentText.length)
  have hplace : start + p.blanks.length + p.name.length + p.argumentText.length +
      (p.spaces.length + p.separator.length) = start + p.text.length := by
    rw [p.length_text]
    omega
  rw [hplace] at hsep
  rw [htext, filterWord_name h.valid.blanks h.valid.name h.first (head?_behind_name h), hread]
  simp only [bind, Except.bind, hsep]
  rfl

/-- A name is as long as its characters go on. -/
theorem name_of_filterWord {w : FilterWord} (h : filterWord c = .ok (w, next)) :
    ((trimStart c.rest).takeWhile isNameChar).length = w.name.length ∧
      (trimStart c.rest).head?.any isNameStart := by
  unfold filterWord at h
  simp only [Cursor.advance, drop_blankLength] at h
  split at h
  · cases h
  · next hname =>
    simp only [Bool.or_eq_true, decide_eq_true_eq, not_or, Bool.not_eq_true', Bool.not_eq_false] at hname
    rw [bind_eq_ok] at h
    obtain ⟨r, -, h⟩ := h
    rw [bind_eq_ok] at h
    obtain ⟨last, -, h⟩ := h
    cases h
    exact ⟨rfl, hname.2⟩

/-- The name of a filter begins as names do and goes on as long as there are characters of one. -/
theorem name_ends {w : FilterWord} {blanks name : List Char} (hblanks : allBlank blanks)
    (hname : ∀ e ∈ name, isNameChar e) (hne : name ≠ [])
    (h : filterWord ⟨start, blanks ++ (name ++ rest)⟩ = .ok (w, next))
    (hlength : w.name.length = name.length) :
    name.head?.any isNameStart ∧ ∀ e ∈ rest.head?, isNameChar e = false := by
  have hblank : ∀ e ∈ (name ++ rest).head?, isBlank e = false := by
    rw [List.head?_append_of_ne_nil _ hne]
    exact fun e he => not_isBlank_of_isNameChar (hname e (List.mem_of_mem_head? he))
  obtain ⟨hread, hfirst⟩ := name_of_filterWord h
  rw [trimStart_append hblanks hblank] at hread hfirst
  rw [List.head?_append_of_ne_nil _ hne] at hfirst
  refine ⟨hfirst, fun e he => ?_⟩
  obtain ⟨tail, htail⟩ := List.head?_eq_some_iff.1 he
  rw [htail, hlength] at hread
  exact (length_takeWhile_eq_iff.1 hread).2

/-- The argument behind a colon leads what stands behind it. -/
theorem leads_of_argument (hgap : ∀ e ∈ gap, e ≠ '|' ∧ e ≠ ':')
    (h : argument ⟨start, gap ++ ':' :: (text ++ rest)⟩ =
      .ok (some ⟨kind, ⟨start + gap.length + 1, text.length⟩⟩, next)) : Leads kind text rest := by
  rw [argument_gap hgap] at h
  obtain ⟨o, ho, hread⟩ := head_of_argument h
  obtain rfl := Option.some.inj ho
  obtain ⟨text', hleads, ⟨hrest, -⟩, hspan⟩ := exists_leads hread
  dsimp only at hleads hrest hspan
  obtain ⟨rfl, rfl⟩ := List.append_inj hrest (congrArg Span.length hspan)
  exact hleads

/-- Behind a colon there is an argument. -/
theorem argument_colon_ne {spaces : List Char} (hspaces : allBlank spaces) :
    argument ⟨start, spaces ++ ':' :: rest⟩ ≠ .ok (none, next) := by
  intro h
  have hbar := not_mem_of_allBlank hspaces (by decide : isBlank '|' = false)
  have hcolon := not_mem_of_allBlank hspaces (by decide : isBlank ':' = false)
  rw [argument_gap fun e he => ⟨fun heq => hbar (heq ▸ he), fun heq => hcolon (heq ▸ he)⟩] at h
  obtain ⟨o, ho, -⟩ := head_of_argument h
  cases ho

/-- **Where a filter is read** its pieces stand. -/
theorem exists_leads_piece {w : FilterWord} (h : filterWord c = .ok (w, next)) :
    ∃ p : Piece, p.Leads next.rest ∧ c.Behind p.text next ∧ w = p.word c.start := by
  obtain ⟨p, hp, hbehind, rfl, hlast⟩ := exists_piece h
  have htext : c = ⟨c.start, p.blanks ++ (p.name ++ (p.argumentText ++
      (p.spaces ++ (p.separator ++ next.rest))))⟩ := by
    refine congrArg (Cursor.mk c.start) (hbehind.1.trans ?_)
    simp [Piece.text]
  rw [htext] at h
  obtain ⟨hfirst, hended⟩ := name_ends hp.blanks hp.name hp.name_ne h rfl
  rw [filterWord_name hp.blanks hp.name hfirst hended, bind_eq_ok] at h
  obtain ⟨⟨value, behind⟩, hargument, h⟩ := h
  rw [bind_eq_ok] at h
  obtain ⟨last, -, h⟩ := h
  have hvalue : value = (p.word c.start).argument :=
    congrArg (fun r => r.1.argument) (Except.ok.inj h)
  subst hvalue
  refine ⟨p, ⟨hp, hfirst, ?_, ?_, ?_, hlast⟩, hbehind, rfl⟩
  · intro a ha e he
    obtain ⟨tail, htail⟩ := List.head?_eq_some_iff.1 he
    refine hended e ?_
    simp only [Piece.argumentText, ha, htail]
    rfl
  · intro a ha
    rw [Piece.argumentText, Piece.word, ha] at hargument
    dsimp only [Option.map_some] at hargument
    rw [List.append_assoc, List.cons_append] at hargument
    exact leads_of_argument (hp.gap a ha) hargument
  · intro ha hsep
    rw [Piece.argumentText, Piece.word, ha, hsep] at hargument
    exact argument_colon_ne hp.spaces hargument

end Chain

end Galley
