import Galley.Proofs.Agreement
import Galley.Proofs.TagText

/-!
# The parts of tags as they are written

A path that is written where a tag expects an expression is read as that variable, and the header of
a loop as its names, its path and its direction.

* `IsVariable`, `IsVariable.condition_dotted`: a path, and the condition that consists of it.
* `listed`, `LoopReader.namesUpTo_listed`: the names of a loop.
* `headerText`, `loopHeader_headerText`: the header of a loop.
-/

namespace Galley

open Text

variable {text rest parts : List Char} {name : String} {start : Nat}

/-! ## Paths -/

/-- A path that is a variable wherever it is written: it does not begin with the name of the running
loop. -/
structure IsVariable (root : String) (names : List String) : Prop where
  proper : (Literal.path root names).Proper
  root_ne : root ≠ "forloop"

namespace IsVariable

variable {root : String} {names : List String} {r : Reader}

/-- The text of a path begins like one and is plain. -/
theorem exists_begins (h : IsVariable root names) :
    ∃ first tail, dotted root names = first :: tail ∧ Begins first tail ∧ Plain (first :: tail) := by
  obtain ⟨hroot, hnames, hdigit⟩ := h.proper
  obtain ⟨first, tail, hdotted, hmark, hquote, hnumber⟩ := exists_dotted_cons hroot hdigit names
  refine ⟨first, tail, hdotted, ⟨hquote, hnumber, fun heq => absurd heq hmark⟩, ?_⟩
  rw [← hdotted]
  exact Quoting.plain_iff_run.2 (Quoting.run_outside_plain fun d hd =>
    isPlain_of_path (of_mem_dotted hroot hnames d hd))

theorem trimmed (h : IsVariable root names) : Trimmed (dotted root names) :=
  ⟨(Literal.not_isBlank_written h.proper).1, (Literal.not_isBlank_written h.proper).2⟩

theorem not_mem (h : IsVariable root names) {d : Char} (hd : isNameChar d = false) (hdot : d ≠ '.') :
    d ∉ dotted root names := by
  intro hmem
  rcases of_mem_dotted h.proper.1 h.proper.2.1 d hmem with hname | heq
  · rw [hname] at hd
    cases hd
  · exact hdot heq

/-- **A path with blanks around it** is read as a variable. -/
theorem chain_padded (h : IsVariable root names) {leading trailing : List Char}
    (hleading : allBlank leading) (htrailing : allBlank trailing) (whole : Span)
    (hreads : (⟨start, leading ++ (dotted root names ++ trailing)⟩ : Cursor).Reads r.source) :
    ∃ span, r.chain (leading ++ (dotted root names ++ trailing)) whole start =
      .ok ⟨.path span root names, []⟩ := by
  let p : Pipeline := ⟨leading, .path root names, [], trailing⟩
  have hproper : p.Proper r := ⟨hleading, h.proper, List.forall_mem_nil _, htrailing⟩
  refine ⟨((Literal.path root names).operand (start + leading.length)).inner, ?_⟩
  have hatom : r.atom ((Literal.path root names).operand (start + leading.length)) =
      .ok (.path ((Literal.path root names).operand (start + leading.length)).inner root names) := by
    rw [Reader.atom_written h.proper hreads.append.2.append.1]
    simp [Literal.atom, h.root_ne]
  refine (Reader.chain_of_read (Pipeline.read?_written hproper start) hatom whole).trans ?_
  rw [Link.readAll_filters hproper.links htrailing]
  rfl

/-- **A path as an operand** of a tag is read as a variable. -/
theorem expression_dotted (h : IsVariable root names)
    (hreads : (⟨start, dotted root names⟩ : Cursor).Reads r.source) :
    ∃ span, r.expression ⟨.path, ⟨start, (dotted root names).length⟩⟩ =
      .ok ⟨.path span root names, []⟩ := by
  have hread := h.chain_padded (show allBlank [] from rfl) (show allBlank [] from rfl)
    ⟨start, (dotted root names).length⟩ (by simpa using hreads)
  rw [List.nil_append, List.append_nil] at hread
  rw [Reader.expression]
  simp only [hreads.slice_eq]
  exact hread

theorem readUpTo_of_last {α : Type} {step : Cursor.Step α} {w : α} {c next : Cursor} {limit : Nat}
    (hstep : step c = some (.ok w, next)) (hnext : step next = none) (hlimit : 0 < limit) :
    Cursor.readUpTo step limit c = ⟨[w], none⟩ := by
  obtain ⟨limit, rfl⟩ : ∃ k, limit = k + 1 := ⟨limit - 1, by omega⟩
  rw [Cursor.readUpTo, hstep]
  cases limit with
  | zero => rfl
  | succ limit => simp only [Cursor.readUpTo, hnext]

/-- **A condition** of one path is that variable, if the path is not the word for an operator. -/
theorem condition_dotted (h : IsVariable root names)
    (hword : String.ofList (dotted root names) ∉ Condition.wordOperators) (tag : Span)
    (hreads : (⟨start, dotted root names⟩ : Cursor).Reads r.source) :
    ∃ span, r.condition tag ⟨start, (dotted root names).length⟩ =
      .ok (.operand ⟨.path span root names, []⟩) := by
  obtain ⟨first, tail, hdotted, hbegins, hplain⟩ := h.exists_begins
  obtain ⟨span, hexpression⟩ := h.expression_dotted hreads
  have hwords : ConditionWord.all r.source ⟨start, (dotted root names).length⟩ =
      ⟨[.operand ⟨.path, ⟨start, (dotted root names).length⟩⟩], none⟩ := by
    have hstep := ConditionWord.step_of_plain hbegins hplain start (show wordLength [] = 0 from rfl)
    rw [← hdotted, List.append_nil] at hstep
    rw [ConditionWord.all, Cursor.ofSpan, hreads.slice_eq]
    refine readUpTo_of_last hstep ?_ (List.length_pos_iff.2 (by simp [hdotted]))
    have hend : ((⟨start, dotted root names⟩ : Cursor).advance
        ((dotted root names).length + blankLength [])).rest = [] := List.drop_length
    rw [ConditionWord.step, hend]
    rfl
  have hcombined : Condition.combine r.source
      [⟨⟨start, (dotted root names).length⟩, .operand ⟨.path span root names, []⟩⟩] =
      [⟨⟨start, (dotted root names).length⟩, .operand (⟨.path span root names, []⟩ : Expression)⟩] := by
    have hno : Condition.wordOperators.contains (String.ofList (dotted root names)) = false := by
      simpa using hword
    simp only [Condition.combine, List.foldl_cons, List.foldl_nil, Condition.combineStep,
      hreads.slice_eq, hno]
    rfl
  refine ⟨span, ?_⟩
  rw [Reader.condition, hwords]
  simp only [Cursor.Words.mapM, List.mapM_cons, List.mapM_nil, Reader.conditionToken, hexpression,
    bind, Except.bind, pure, Except.pure, hcombined]
  rfl

end IsVariable

/-! ## Loop headers -/

/-- Names with commas between them. -/
def listed : String → List String → List Char
  | name, [] => name.toList
  | name, next :: others => name.toList ++ ',' :: ' ' :: listed next others

/-- The name of a loop variable. -/
structure IsLoopName (name : String) : Prop where
  identifier : isIdentifier name.toList
  ne_in : name ≠ "in"

theorem IsLoopName.chars (h : IsLoopName name) :
    name.toList ≠ [] ∧ ∀ d ∈ name.toList, isNameChar d := of_isIdentifier h.identifier

theorem head?_listed (h : IsLoopName name) (others : List String) (rest : List Char) :
    ∀ d ∈ (listed name others ++ rest).head?, isBlank d = false := by
  obtain ⟨hne, hchars⟩ := h.chars
  obtain ⟨first, tail, heq⟩ := List.exists_cons_of_ne_nil hne
  intro d hd
  have hfirst : d = first := by
    cases others <;> · rw [listed, heq] at hd; cases hd; rfl
  rw [hfirst]
  exact not_isBlank_of_isNameChar (hchars first (by rw [heq]; exact List.mem_cons_self))

theorem blankLength_space (h : ∀ d ∈ text.head?, isBlank d = false) :
    blankLength (' ' :: text) = 1 := by
  have hspace : ∀ d ∈ [' '], isBlank d := by
    intro d hd
    rw [List.mem_singleton.1 hd]
    rfl
  rw [blankLength, show ' ' :: text = [' '] ++ text from rfl, takeWhile_ended hspace h]
  rfl

namespace LoopReader

/-- A name is taken, and what follows it is skipped. -/
theorem named_name (h : IsLoopName name) (start skip : Nat) (last done : Bool)
    (previous : Option Span) (behind : List Char) :
    named ⟨⟨start, name.toList ++ behind⟩, done, previous⟩ name.toList.length skip last =
      (.ok (some ⟨start, name.toList.length⟩),
        ⟨(⟨start, name.toList ++ behind⟩ : Cursor).advance
          (skip + blankLength ((name.toList ++ behind).drop skip)), last,
          some ⟨start, name.toList.length⟩⟩) := by
  have hforeign : name.toList.any isForeign = false := by
    refine List.any_eq_false.2 fun d hd hforeign => ?_
    have hchar := h.chars.2 d hd
    simp only [isForeign, Bool.or_eq_true, decide_eq_true_eq] at hforeign
    rcases hforeign with (rfl | rfl) | rfl <;> exact absurd hchar (by decide +kernel)
  simp only [named, List.take_left, hforeign, Bool.false_eq_true, if_false]
  rfl

theorem not_mem_name (h : IsLoopName name) : ',' ∉ name.toList := fun hmem =>
  absurd (h.chars.2 ',' hmem) (by decide +kernel)

theorem not_isBlank_name (h : IsLoopName name) : ∀ d ∈ name.toList, (!isBlank d) = true := by
  intro d hd
  rw [not_isBlank_of_isNameChar (h.chars.2 d hd)]
  rfl

/-- A name before a comma is read with its comma. -/
theorem name_comma (h : IsLoopName name) (start : Nat) (previous : Option Span) {later : List Char}
    (hlater : ∀ d ∈ later.head?, isBlank d = false) :
    LoopReader.name ⟨⟨start, name.toList ++ ',' :: ' ' :: later⟩, false, previous⟩ =
      (.ok (some ⟨start, name.toList.length⟩),
        ⟨⟨start + name.toList.length + 2, later⟩, false, some ⟨start, name.toList.length⟩⟩) := by
  have hcomma := lengthBefore_append_cons (not_mem_name h) (' ' :: later)
  have hword : wordLength (name.toList ++ ',' :: ' ' :: later) = name.toList.length + 1 := by
    have hsplit : name.toList ++ ',' :: ' ' :: later = (name.toList ++ [',']) ++ ' ' :: later := by
      simp
    rw [wordLength, hsplit, takeWhile_ended, List.length_append, List.length_singleton]
    · intro d hd
      rcases List.mem_append.1 hd with hd | hd
      · exact not_isBlank_name h d hd
      · rw [List.mem_singleton.1 hd]
        rfl
    · rintro d ⟨⟩
      rfl
  have hskip : (name.toList ++ ',' :: ' ' :: later).drop (name.toList.length + 1) = ' ' :: later := by
    rw [← List.drop_drop, List.drop_left]
    rfl
  have hblank := blankLength_space hlater
  have hne : (name.toList ++ ',' :: ' ' :: later).isEmpty = false := by simp
  have hrest : (name.toList ++ ',' :: ' ' :: later).drop (name.toList.length + 1 + 1) = later := by
    rw [← List.drop_drop, hskip]
    rfl
  unfold LoopReader.name
  simp only [hne, hcomma, hword, Bool.false_eq_true, if_false, Nat.lt_add_one, if_true]
  rw [named_name h, hskip, hblank, Cursor.advance, hrest]
  rfl

/-- The last name is read with the blank behind it. -/
theorem name_last (h : IsLoopName name) (start : Nat) (previous : Option Span) {tail : List Char}
    (htail : ∀ d ∈ tail.head?, isBlank d = false) :
    LoopReader.name ⟨⟨start, name.toList ++ ' ' :: tail⟩, false, previous⟩ =
      (.ok (some ⟨start, name.toList.length⟩),
        ⟨⟨start + name.toList.length + 1, tail⟩, true, some ⟨start, name.toList.length⟩⟩) := by
  have hword : wordLength (name.toList ++ ' ' :: tail) = name.toList.length := by
    rw [wordLength, takeWhile_ended (not_isBlank_name h)]
    rintro d ⟨⟩
    rfl
  have hcomma : ¬ lengthBefore ',' (name.toList ++ ' ' :: tail) < name.toList.length := by
    have hpos : ∀ d ∈ name.toList, (d != ',') = true := by
      intro d hd
      have : d ≠ ',' := fun heq => not_mem_name h (heq ▸ hd)
      simpa using this
    rw [lengthBefore, List.takeWhile_append_of_pos hpos, List.length_append]
    omega
  have hblank := blankLength_space htail
  have hne : (name.toList ++ ' ' :: tail).isEmpty = false := by simp
  have hrest : (name.toList ++ ' ' :: tail).drop (name.toList.length + 1) = tail := by
    rw [← List.drop_drop, List.drop_left]
    rfl
  unfold LoopReader.name
  simp only [hne, hword, hcomma, Bool.false_eq_true, if_false]
  rw [named_name h, List.drop_left, hblank, Cursor.advance, hrest]
  rfl

/-- **All names are read,** up to the word behind them. -/
theorem namesUpTo_listed {source tail : List Char} {others : List String} (h : IsLoopName name)
    (hothers : ∀ other ∈ others, IsLoopName other)
    (htail : ∀ d ∈ tail.head?, isBlank d = false) (previous : Option Span) {limit : Nat}
    (hlimit : (listed name others ++ ' ' :: tail).length < limit)
    (hreads : (⟨start, listed name others ++ ' ' :: tail⟩ : Cursor).Reads source) :
    ∃ spans last, namesUpTo limit ⟨⟨start, listed name others ++ ' ' :: tail⟩, false, previous⟩ =
        (⟨spans, none⟩, ⟨⟨start + (listed name others).length + 1, tail⟩, true, last⟩) ∧
      spans.map (·.slice source) = (name :: others).map String.toList := by
  induction others generalizing name start previous limit with
  | nil =>
    obtain ⟨limit, rfl⟩ : ∃ k, limit = k + 2 := by
      refine ⟨limit - 2, ?_⟩
      simp only [List.length_append, List.length_cons] at hlimit
      omega
    have hslice := hreads.append.1.slice_eq
    refine ⟨[⟨start, name.toList.length⟩], some ⟨start, name.toList.length⟩, ?_, ?_⟩
    · have hdone (r : LoopReader) (hr : r.namesDone = true) : r.name = (.ok none, r) := by
        rw [LoopReader.name, if_pos hr]
      simp only [namesUpTo, listed, name_last h start previous htail]
      rw [hdone _ rfl]
    · simpa [listed] using hslice
  | cons next others ih =>
    obtain ⟨hnext, hothers⟩ := List.forall_mem_cons.1 hothers
    have hsplit : listed name (next :: others) ++ ' ' :: tail =
        name.toList ++ ',' :: ' ' :: (listed next others ++ ' ' :: tail) := by
      simp [listed]
    rw [hsplit] at hlimit hreads ⊢
    obtain ⟨limit, rfl⟩ : ∃ k, limit = k + 1 := ⟨limit - 1, by omega⟩
    obtain ⟨hfirst, hlater⟩ := hreads.append
    have hcomma : (⟨start + name.toList.length, [',', ' '] ++ (listed next others ++ ' ' :: tail)⟩ :
        Cursor).Reads source := hlater
    simp only [List.length_append, List.length_cons] at hlimit
    obtain ⟨spans, last, hspans, hnames⟩ := ih hnext hothers (some ⟨start, name.toList.length⟩)
      (by simp only [List.length_append, List.length_cons]; omega : _ < limit) hcomma.append.2
    refine ⟨⟨start, name.toList.length⟩ :: spans, last, ?_, ?_⟩
    · have hplace : start + name.toList.length + 2 + (listed next others).length + 1 =
          start + (listed name (next :: others)).length + 1 := by
        simp only [listed, List.length_append, List.length_cons]
        omega
      simp only [namesUpTo, name_comma h start previous (head?_listed hnext others _)]
      rw [show start + name.toList.length + 2 = start + name.toList.length + [',', ' '].length
        from rfl, hspans, ← hplace]
      rfl
    · rw [List.map_cons, hnames, hfirst.slice_eq]
      rfl

end LoopReader

/-- What is written behind the path of a loop that runs backwards. -/
def directionText (backwards : Bool) : List Char := if backwards then " reversed".toList else []

/-- The header of a loop without the word `for`. -/
def headerText (name : String) (others : List String) (root : String) (names : List String)
    (backwards : Bool) : List Char :=
  listed name others ++ ' ' :: ("in ".toList ++ (dotted root names ++ directionText backwards))

variable {root : String} {names others : List String} {r : Reader}

theorem trimmed_headerText (h : IsLoopName name) (hpath : IsVariable root names)
    (others : List String) (backwards : Bool) :
    Trimmed (headerText name others root names backwards) := by
  refine ⟨head?_listed h others _, fun d hd => ?_⟩
  have hne := dotted_ne_nil hpath.proper.1 names
  cases backwards with
  | true =>
    have hsplit : headerText name others root names true =
        (listed name others ++ ' ' :: ("in ".toList ++ (dotted root names ++ " reverse".toList))) ++
          ['d'] := by
      simp [headerText, directionText]
    rw [hsplit, List.getLast?_concat] at hd
    cases hd
    decide
  | false =>
    have hsplit : headerText name others root names false =
        (listed name others ++ ' ' :: "in ".toList) ++ dotted root names := by
      simp [headerText, directionText]
    refine hpath.trimmed.last d ?_
    rwa [hsplit, List.getLast?_append, List.getLast?_eq_some_getLast hne, Option.some_or,
      ← List.getLast?_eq_some_getLast hne] at hd

theorem not_mem_listed (h : IsLoopName name) (hothers : ∀ other ∈ others, IsLoopName other) {d : Char}
    (hd : isNameChar d = false) (hcomma : d ≠ ',') (hblank : d ≠ ' ') : d ∉ listed name others := by
  have hnot {other : String} (hother : IsLoopName other) : d ∉ other.toList := fun hmem => by
    rw [hother.chars.2 d hmem] at hd
    cases hd
  induction others generalizing name with
  | nil => exact hnot h
  | cons next others ih =>
    obtain ⟨hnext, hothers⟩ := List.forall_mem_cons.1 hothers
    simp [listed, hnot h, hcomma, hblank, ih hnext hothers]

/-- No header closes its tag. -/
theorem not_mem_headerText (h : IsLoopName name) (hothers : ∀ other ∈ others, IsLoopName other)
    (hpath : IsVariable root names) (backwards : Bool) :
    '%' ∉ headerText name others root names backwards ∧
      '\n' ∉ headerText name others root names backwards := by
  have hno (d : Char) (hd : isNameChar d = false) (hdot : d ≠ '.') (hcomma : d ≠ ',')
      (hblank : d ≠ ' ') : d ∉ headerText name others root names backwards := by
    have hdirection : d ∉ directionText backwards := fun hmem => by
      have hall : (directionText backwards).all fun e => isNameChar e || e = ' ' := by
        cases backwards <;> decide +kernel
      have hd' := List.all_eq_true.1 hall d hmem
      simp only [Bool.or_eq_true, decide_eq_true_eq] at hd'
      rcases hd' with hname | heq
      · rw [hname] at hd
        cases hd
      · exact hblank heq
    have hin : d ≠ 'i' ∧ d ≠ 'n' := by
      constructor <;> rintro rfl <;> exact absurd hd (by decide +kernel)
    simp [headerText, not_mem_listed h hothers hd hcomma hblank, hpath.not_mem hd hdot, hdirection,
      hblank, hin]
  exact ⟨hno '%' (by decide +kernel) (by decide) (by decide) (by decide),
    hno '\n' (by decide +kernel) (by decide) (by decide) (by decide)⟩

theorem checkLoopNames_of_ne_in {spans : List Span} (previous : Option Span)
    (h : ∀ span ∈ spans, span.slice r.source ≠ ['i', 'n']) :
    r.checkLoopNames previous spans = .ok () := by
  induction spans generalizing previous with
  | nil => rfl
  | cons span spans ih =>
    obtain ⟨hspan, hspans⟩ := List.forall_mem_cons.1 h
    unfold Reader.checkLoopNames
    rw [if_neg hspan, ih _ hspans]

/-- The word `in` is read with the blank behind it. -/
theorem LoopReader.keyword_in (start : Nat) (done : Bool) (previous : Option Span)
    (h : ∀ d ∈ rest.head?, isBlank d = false) :
    keyword ⟨⟨start, "in ".toList ++ rest⟩, done, previous⟩ =
      (.ok (), ⟨⟨start + 3, rest⟩, done, some ⟨start, 2⟩⟩) := by
  have hword : wordLength ("in ".toList ++ rest) = 2 := by
    have hall : ∀ d ∈ ['i', 'n'], (!isBlank d) = true := List.all_eq_true.1 rfl
    rw [wordLength, show "in ".toList ++ rest = ['i', 'n'] ++ ' ' :: rest from rfl,
      takeWhile_ended hall]
    · rfl
    · rintro d ⟨⟩
      rfl
  have htake : ("in ".toList ++ rest).take 2 = ['i', 'n'] := rfl
  have hdrop : ("in ".toList ++ rest).drop 2 = ' ' :: rest := rfl
  have hne : ("in ".toList ++ rest).isEmpty = false := rfl
  simp only [keyword, hne, hword, htake, hdrop, blankLength_space h, Bool.false_eq_true, if_false,
    ne_eq, not_true_eq_false]
  rfl

/-- The direction of a loop is what is written behind its path. -/
theorem LoopReader.direction_written (start : Nat) (text : List Char) (backwards done : Bool)
    (previous : Option Span) :
    direction ⟨(⟨start, text ++ directionText backwards⟩ : Cursor).advance
      (text.length + blankLength (directionText backwards)), done, previous⟩ = .ok backwards := by
  cases backwards with
  | true =>
    have hrest : (text ++ directionText true).drop (text.length + blankLength (directionText true)) =
        "reversed".toList := by
      rw [← List.drop_drop, List.drop_left]
      decide
    simp only [direction, Cursor.advance, hrest]
    rfl
  | false =>
    have hrest : (text ++ directionText false).drop
        (text.length + blankLength (directionText false)) = [] := by
      rw [← List.drop_drop, List.drop_left]
      rfl
    simp only [direction, Cursor.advance, hrest]
    rfl

/-- **The header of a loop** is read back from its text. -/
theorem loopHeader_headerText (h : IsLoopName name) (hothers : ∀ other ∈ others, IsLoopName other)
    (hpath : IsVariable root names) (backwards : Bool) (tag : Span)
    (hreads : (⟨start, headerText name others root names backwards⟩ : Cursor).Reads r.source) :
    ∃ namesSpan span, r.loopHeader tag
        ⟨start, (headerText name others root names backwards).length⟩ =
      .ok ⟨name :: others, namesSpan, ⟨.path span root names, []⟩, backwards⟩ := by
  obtain ⟨first, tail, hdotted, hbegins, hplain⟩ := hpath.exists_begins
  -- the names, up to the word `in`
  obtain ⟨spans, last, hspans, hslices⟩ := LoopReader.namesUpTo_listed h hothers
    (show ∀ d ∈ ("in ".toList ++ (dotted root names ++ directionText backwards)).head?,
      isBlank d = false by rintro d ⟨⟩; rfl) none (Nat.lt_succ_self _) hreads
  have hnames : (LoopReader.ofParts r.source
      ⟨start, (headerText name others root names backwards).length⟩).names =
        (⟨spans, none⟩, ⟨⟨start + (listed name others).length + 1,
          "in ".toList ++ (dotted root names ++ directionText backwards)⟩, true, last⟩) := by
    rw [LoopReader.names, LoopReader.ofParts, Cursor.ofSpan, hreads.slice_eq]
    exact hspans
  have hne_in : ∀ span ∈ spans, span.slice r.source ≠ ['i', 'n'] := by
    intro span hspan hin
    have hmem := List.mem_map_of_mem (f := (·.slice r.source)) hspan
    rw [hslices, hin] at hmem
    obtain ⟨other, hother, heq⟩ := List.mem_map.1 hmem
    have hname : IsLoopName other := List.forall_mem_cons.2 ⟨h, hothers⟩ other hother
    exact hname.ne_in (String.toList_inj.1 heq)
  have htexts : spans.map r.textAt = name :: others := by
    have heq : spans.map (fun s => String.ofList (s.slice r.source)) = name :: others := by
      have := congrArg (List.map String.ofList) hslices
      simpa [Function.comp_def] using this
    exact heq
  -- the word `in` and the path behind it
  have hpathtext : ∀ d ∈ (dotted root names ++ directionText backwards).head?,
      isBlank d = false := by
    rw [hdotted]
    rintro d ⟨⟩
    exact not_isBlank_of_isPlain (hbegins.isPlain_of_plain hplain)
  have hin := LoopReader.keyword_in (start + (listed name others).length + 1) true last hpathtext
  have hiterable (reader : LoopReader) (place : Nat)
      (hr : reader.cursor = ⟨place, dotted root names ++ directionText backwards⟩) :=
    LoopReader.iterable_of_plain hbegins hplain
      (show wordLength (directionText backwards) = 0 by cases backwards <;> decide) (hdotted ▸ hr)
  rw [← hdotted] at hiterable
  have hblank : (⟨start + (listed name others).length, [' '] ++ ("in ".toList ++
      (dotted root names ++ directionText backwards))⟩ : Cursor).Reads r.source := hreads.append.2
  obtain ⟨span, hread⟩ := hpath.expression_dotted hblank.append.2.append.2.append.1
  have hexpression : r.expression ⟨.path, ⟨start + (listed name others).length + 1 + 3,
      (dotted root names).length⟩⟩ = .ok ⟨.path span root names, []⟩ := hread
  cases spans with
  | nil => cases htexts
  | cons first spans =>
    refine ⟨first.through (spans.getLast?.getD first), span, ?_⟩
    unfold Reader.loopHeader
    rw [hnames]
    simp only [checkLoopNames_of_ne_in none hne_in, hin, bind, Except.bind,
      Cursor.Words.toExcept, hiterable ⟨⟨start + (listed name others).length + 1 + 3,
        dotted root names ++ directionText backwards⟩, true,
        some ⟨start + (listed name others).length + 1, 2⟩⟩ _ rfl, LoopReader.direction_written,
      hexpression, htexts]
    rfl

end Galley
