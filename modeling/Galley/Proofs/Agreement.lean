import Galley.Compile.Tag
import Galley.Proofs.Shift
import Galley.Proofs.Simple

/-!
# Expressions mean the same everywhere

An expression that is read between `{{` and `}}` may also stand in a condition, as the argument of a
call or as what a loop runs over. There its end has to be found first, and this is done without
reading it. It means the same there exactly if it is plain.

* `IsWord`: a text that the readers of tags take as one word.
* `isWord_iff_plain`: a path with filters is one exactly if it is plain.
* `Reader.AgreesInTags`: an expression that means the same in tags.
* `Reader.agreesInTags_iff`: the expressions that do.
-/

namespace Galley

open Text Cursor

variable {text tail : List Char} {start : Nat} {value : Operand} {filters : Cursor}

/-! ## Words of tags -/

/-- **One word of a tag.** Where the text stands and nothing or a blank follows it, the readers of
conditions, of arguments with and without a name, and of loop headers take all of it as a path, and
go on behind the blanks. -/
structure IsWord (text : List Char) : Prop where
  condition : ∀ start tail, wordLength tail = 0 →
    ConditionWord.step ⟨start, text ++ tail⟩ = some (.ok (.operand ⟨.path, ⟨start, text.length⟩⟩),
      (⟨start, text ++ tail⟩ : Cursor).advance (text.length + blankLength tail))
  argument : ∀ start tail, wordLength tail = 0 →
    CallWord.read ⟨start, text ++ tail⟩ = .ok (⟨⟨.path, ⟨start, text.length⟩⟩, none⟩,
      (⟨start, text ++ tail⟩ : Cursor).advance (text.length + blankLength tail))
  namedArgument : ∀ start tail name, wordLength tail = 0 → name ≠ [] → (∀ c ∈ name, isNameChar c) →
    CallWord.read ⟨start, name ++ '=' :: (text ++ tail)⟩ =
      .ok (⟨⟨.path, ⟨start + (name.length + 1), text.length⟩⟩, some ⟨start, name.length⟩⟩,
        (⟨start + (name.length + 1), text ++ tail⟩ : Cursor).advance
          (text.length + blankLength tail))
  iterable : ∀ (r : LoopReader) start tail, wordLength tail = 0 → r.cursor = ⟨start, text ++ tail⟩ →
    r.iterable = (.ok ⟨.path, ⟨start, text.length⟩⟩,
      { r with cursor := (⟨start, text ++ tail⟩ : Cursor).advance (text.length + blankLength tail) })

/-- What a path **begins** with: a character that begins no literal. -/
structure Begins (first : Char) (rest : List Char) : Prop where
  quote : isQuote first = false
  number : startsNumber first = false
  parenthesis : first = '_' → rest.head? ≠ some '('

theorem exists_begins (h : Chain.read? text start = .ok (some (value, filters)))
    (hkind : value.kind = .path) : ∃ first rest, text = first :: rest ∧ Begins first rest := by
  cases text with
  | nil => cases h
  | cons first rest =>
    refine ⟨first, rest, rfl, ?_⟩
    by_cases hblank : isBlank first
    · obtain ⟨-, hquote, hnumber⟩ := of_isBlank hblank
      refine ⟨hquote, hnumber, ?_⟩
      rintro rfl
      exact absurd hblank (by decide)
    · have hbare : trimStart (first :: rest) = first :: rest := List.dropWhile_cons_of_neg hblank
      unfold Chain.read? at h
      rw [hbare] at h
      dsimp only [List.isEmpty_cons] at h
      rw [if_neg Bool.false_ne_true, bind_eq_ok] at h
      obtain ⟨⟨value', behind⟩, hhead, h⟩ := h
      rw [bind_eq_ok] at h
      obtain ⟨_, -, h⟩ := h
      cases h
      -- the other branches answer values of other kinds
      unfold Chain.head at hhead
      split at hhead
      · obtain ⟨_, -, heq⟩ := map_eq_ok hhead
        cases heq
        cases hkind
      · next first' rest' hnot heq =>
        cases heq
        split at hhead
        · obtain ⟨_, -, heq⟩ := map_eq_ok hhead
          cases heq
          cases hkind
        · next hquote =>
          split at hhead
          · cases hhead
            cases hkind
          · next hnumber =>
            refine ⟨by simpa using hquote, by simpa using hnumber, ?_⟩
            rintro rfl hparen
            obtain ⟨rest', rfl⟩ := List.head?_eq_some_iff.1 hparen
            exact hnot rest' rfl rfl
      · next heq => cases heq

/-- Where nothing or a blank follows, the next character belongs to no word. -/
theorem head?_of_wordLength {d : Char} (h : wordLength tail = 0) (hd : isBlank d = false) :
    tail.head? ≠ some d := by
  intro hhead
  obtain ⟨rest, rfl⟩ := List.head?_eq_some_iff.1 hhead
  rw [isBlank_of_wordLength h] at hd
  cases hd

variable {first : Char} {rest : List Char}

theorem Begins.isPlain_of_plain (h : Begins first rest) (hplain : Plain (first :: rest)) :
    isPlain first := by
  cases hplain with
  | char hc _ => exact hc
  | quoted hq _ _ =>
    rw [h.quote] at hq
    cases hq

namespace Cursor

/-- What begins like a path is read as an expression. -/
theorem operand_of_begins (h : Begins first rest) (start : Nat) (ht : wordLength tail = 0) :
    (⟨start, first :: rest ++ tail⟩ : Cursor).operand =
      .ok (⟨.path, (⟨start, first :: rest ++ tail⟩ : Cursor).expression.1⟩,
        (⟨start, first :: rest ++ tail⟩ : Cursor).expression.2) := by
  unfold operand
  dsimp only
  split
  · next later heq =>
    -- the parenthesis would stand in the text or directly behind it
    rw [List.cons_append] at heq
    obtain ⟨rfl, hlater⟩ := List.cons.inj heq
    cases rest with
    | nil =>
      have hhead : tail.head? = some '(' := congrArg List.head? hlater
      exact absurd hhead (head?_of_wordLength ht (by decide))
    | cons d rest =>
      cases hlater
      exact absurd rfl (h.parenthesis rfl)
  · next first' later _ heq =>
    cases heq
    rw [if_neg (by simp [h.quote]), if_neg (by simp [h.number])]
  · next heq => cases heq

/-- A plain text that begins like a path is the next operand. -/
theorem operand_of_plain (h : Begins first rest) (hplain : Plain (first :: rest)) (start : Nat)
    (ht : wordLength tail = 0) :
    (⟨start, first :: rest ++ tail⟩ : Cursor).operand =
      .ok (⟨.path, ⟨start, (first :: rest).length⟩⟩,
        (⟨start, first :: rest ++ tail⟩ : Cursor).advance (first :: rest).length) := by
  rw [operand_of_begins h start ht, expression, take, expressionLength_of_plain hplain ht]
  rfl

/-- Behind a word the blanks are skipped. -/
theorem separated_behind (start : Nat) (text : List Char) (ht : wordLength tail = 0) :
    ((⟨start, text ++ tail⟩ : Cursor).advance text.length).separated =
      .ok ((⟨start, text ++ tail⟩ : Cursor).advance (text.length + blankLength tail)) := by
  have hrest : ((⟨start, text ++ tail⟩ : Cursor).advance text.length).rest = tail := List.drop_left
  unfold separated
  rw [hrest, ht, advance_advance]
  rfl

end Cursor

/-! ## In conditions -/

/-- No comparison sign begins with a character of an expression. -/
theorem comparison?_eq_none (h : isPlain first) (rest : List Char) :
    ConditionWord.comparison? (first :: rest) = none := by
  have hall : ∀ o ∈ Operator.all.filter Operator.isComparison,
      o.symbol.toList.head?.all (isPlain · = false) := by
    decide +kernel
  refine List.find?_eq_none.2 fun o ho heq => ?_
  have heq : o.symbol.toList = first :: rest := by simpa using heq
  have := hall o ho
  simp [heq, h] at this

theorem ConditionWord.step_of_plain (h : Begins first rest) (hplain : Plain (first :: rest))
    (start : Nat) (ht : wordLength tail = 0) :
    step ⟨start, first :: rest ++ tail⟩ =
      some (.ok (.operand ⟨.path, ⟨start, (first :: rest).length⟩⟩),
        (⟨start, first :: rest ++ tail⟩ : Cursor).advance
          ((first :: rest).length + blankLength tail)) := by
  have hfirst := h.isPlain_of_plain hplain
  have hword : (first :: rest ++ tail).take (wordLength (first :: rest ++ tail)) =
      first :: (rest ++ tail).take (wordLength (rest ++ tail)) := by
    rw [List.cons_append, wordLength,
      List.takeWhile_cons_of_pos (by simp [not_isBlank_of_isPlain hfirst])]
    rfl
  unfold step
  dsimp only
  rw [if_neg (by simp), hword, comparison?_eq_none hfirst]
  dsimp only
  rw [operand_of_plain h hplain start ht]
  dsimp only
  rw [separated_behind start (first :: rest) ht]

/-! ## In calls -/

namespace CallWord

/-- Behind its first name a plain text has no equals sign. -/
theorem head?_dropWhile_of_plain (h : Plain text) (ht : wordLength tail = 0) :
    ((text ++ tail).dropWhile isNameChar).head? ≠ some '=' := by
  induction h with
  | nil =>
    cases tail with
    | nil => nofun
    | cons d rest =>
      have hblank := isBlank_of_wordLength ht
      have hname : ¬ isNameChar d := fun hname => by
        rw [not_isBlank_of_isPlain (isPlain_of_isNameChar hname)] at hblank
        cases hblank
      rw [List.nil_append, List.dropWhile_cons_of_neg hname]
      rintro ⟨⟩
      exact absurd hblank (by decide)
  | @char c rest hc _ ih =>
    rw [List.cons_append]
    by_cases hname : isNameChar c
    · rwa [List.dropWhile_cons_of_pos hname]
    · rw [List.dropWhile_cons_of_neg hname]
      rintro ⟨⟩
      exact absurd hc (by decide)
  | @quoted quote inner rest hq _ _ _ =>
    have hname : ¬ isNameChar quote := fun hname => by
      rw [not_isQuote_of_isPlain (isPlain_of_isNameChar hname)] at hq
      cases hq
    rw [List.cons_append, List.dropWhile_cons_of_neg hname]
    rintro ⟨⟩
    exact absurd hq (by decide)

theorem keywordLength?_of_plain (h : Plain text) (ht : wordLength tail = 0) :
    keywordLength? (text ++ tail) = none := by
  unfold keywordLength?
  dsimp only
  rw [drop_length_takeWhile, if_neg]
  simp [head?_dropWhile_of_plain h ht]

/-- The name in front of an argument. -/
theorem keywordLength?_named {name : List Char} (hne : name ≠ []) (hname : ∀ c ∈ name, isNameChar c)
    (later : List Char) : keywordLength? (name ++ '=' :: later) = some name.length := by
  have htake : (name ++ '=' :: later).takeWhile isNameChar = name := by
    rw [List.takeWhile_append_of_pos hname, List.takeWhile_cons_of_neg (by decide), List.append_nil]
  unfold keywordLength?
  dsimp only
  rw [htake, List.drop_left]
  simp [List.length_pos_iff.2 hne]

theorem read_of_plain (h : Begins first rest) (hplain : Plain (first :: rest)) (start : Nat)
    (ht : wordLength tail = 0) :
    read ⟨start, first :: rest ++ tail⟩ = .ok (⟨⟨.path, ⟨start, (first :: rest).length⟩⟩, none⟩,
      (⟨start, first :: rest ++ tail⟩ : Cursor).advance
        ((first :: rest).length + blankLength tail)) := by
  have hkeyword : readKeyword ⟨start, first :: rest ++ tail⟩ =
      .ok (none, ⟨start, first :: rest ++ tail⟩) := by
    unfold readKeyword
    rw [keywordLength?_of_plain hplain ht]
  exact bind_eq_ok.2 ⟨_, hkeyword, bind_eq_ok.2 ⟨_, operand_of_plain h hplain start ht,
    bind_eq_ok.2 ⟨_, separated_behind start (first :: rest) ht, rfl⟩⟩⟩

theorem read_named_of_plain (h : Begins first rest) (hplain : Plain (first :: rest)) (start : Nat)
    (ht : wordLength tail = 0) {name : List Char} (hne : name ≠ [])
    (hname : ∀ c ∈ name, isNameChar c) :
    read ⟨start, name ++ '=' :: (first :: rest ++ tail)⟩ =
      .ok (⟨⟨.path, ⟨start + (name.length + 1), (first :: rest).length⟩⟩, some ⟨start, name.length⟩⟩,
        (⟨start + (name.length + 1), first :: rest ++ tail⟩ : Cursor).advance
          ((first :: rest).length + blankLength tail)) := by
  have hadvance : (⟨start, name ++ '=' :: (first :: rest ++ tail)⟩ : Cursor).advance
      (name.length + 1) = ⟨start + (name.length + 1), first :: rest ++ tail⟩ := by
    simp [advance, List.drop_append]
  have hkeyword : readKeyword ⟨start, name ++ '=' :: (first :: rest ++ tail)⟩ =
      .ok (some ⟨start, name.length⟩, ⟨start + (name.length + 1), first :: rest ++ tail⟩) := by
    unfold readKeyword
    rw [keywordLength?_named hne hname]
    dsimp only
    rw [hadvance, if_neg (by simp [not_isBlank_of_isPlain (h.isPlain_of_plain hplain)])]
    rfl
  exact bind_eq_ok.2 ⟨_, hkeyword, bind_eq_ok.2 ⟨_, operand_of_plain h hplain _ ht,
    bind_eq_ok.2 ⟨_, separated_behind _ (first :: rest) ht, rfl⟩⟩⟩

end CallWord

/-! ## In loops -/

theorem LoopReader.iterable_of_plain (h : Begins first rest) (hplain : Plain (first :: rest))
    {r : LoopReader} {start : Nat} (ht : wordLength tail = 0)
    (hr : r.cursor = ⟨start, first :: rest ++ tail⟩) :
    r.iterable = (.ok ⟨.path, ⟨start, (first :: rest).length⟩⟩,
      { r with
        cursor := (⟨start, first :: rest ++ tail⟩ : Cursor).advance
          ((first :: rest).length + blankLength tail) }) := by
  unfold iterable
  rw [hr, if_neg (by simp), operand_of_plain h hplain start ht]
  dsimp only
  rw [separated_behind start (first :: rest) ht]

/-- What a loop runs over is plain if a blank ends it behind its last character. -/
theorem LoopReader.plain_of_iterable (h : Begins first rest) {r next : LoopReader} {start : Nat}
    (hr : r.cursor = ⟨start, first :: rest ++ [' ']⟩)
    (hread : r.iterable = (.ok ⟨.path, ⟨start, (first :: rest).length⟩⟩, next)) :
    Plain (first :: rest) := by
  unfold iterable at hread
  rw [hr, if_neg (by simp), operand_of_begins h start (by decide)] at hread
  dsimp only at hread
  split at hread
  · cases hread
  · have hlength := congrArg (·.span.length) (Except.ok.inj (Prod.mk.inj hread).1)
    exact plain_of_expressionLength hlength

/-- **A path with filters** is one word of tags exactly if it is plain. -/
theorem isWord_iff_plain (h : Chain.read? text start = .ok (some (value, filters)))
    (hkind : value.kind = .path) : IsWord text ↔ Plain text := by
  obtain ⟨first, rest, rfl, hbegins⟩ := exists_begins h hkind
  constructor
  · intro hword
    exact LoopReader.plain_of_iterable (r := ⟨⟨start, _⟩, true, none⟩) hbegins rfl
      (hword.iterable _ start [' '] (by decide) rfl)
  · intro hplain
    exact {
      condition := fun start _ => ConditionWord.step_of_plain hbegins hplain start
      argument := fun start _ => CallWord.read_of_plain hbegins hplain start
      namedArgument := fun start _ _ ht hne hname =>
        CallWord.read_named_of_plain hbegins hplain start ht hne hname
      iterable := fun _ _ _ => LoopReader.iterable_of_plain hbegins hplain }

/-! ## Expressions -/

namespace Reader

variable {r : Reader} {whole : Span} {e : Expression}

/-- **An expression means the same in tags** as between `{{` and `}}`, where its text starts at
`start`: the text is one word of tags, in a condition it stays an operand, and wherever it stands the
same expression is read from it, but for its place. -/
structure AgreesInTags (r : Reader) (text : List Char) (start : Nat) (e : Expression) : Prop where
  word : IsWord text
  operand : ∀ source done (token : ConditionToken Expression) value,
    token.span.slice source = text → token.item = .operand value →
      Condition.combineStep source done token = token :: done
  expression : ∃ base : Expression, e = base.shift start ∧ ∀ source place,
    StandsAt text place source →
      (r.on source).expression ⟨.path, ⟨place, text.length⟩⟩ = .ok (base.shift place)

/-- **What is read from a text** is read from it wherever it stands. -/
theorem exists_base (hstands : StandsAt text start r.source)
    (hchain : r.chain text whole start = .ok e) :
    ∃ base : Expression, e = base.shift start ∧ ∀ source place, StandsAt text place source →
      (r.on source).expression ⟨.path, ⟨place, text.length⟩⟩ = .ok (base.shift place) := by
  obtain ⟨base, hbase, rfl⟩ := (r.moves_chain whole whole hstands).exists_of_ok hchain
  refine ⟨base, rfl, fun source place h => ?_⟩
  have hslice : Span.slice ⟨place, text.length⟩ (r.on source).source = text := h
  unfold expression
  dsimp only
  rw [hslice]
  exact (r.moves_chain whole ⟨place, text.length⟩ h).of_ok hbase

/-- A chain that is read has no error behind its filters. -/
theorem error_of_chain (hread : Chain.read? text start = .ok (some (value, filters)))
    (hchain : r.chain text whole start = .ok e) :
    (readAll Chain.filterStep filters).error = none := by
  unfold chain at hchain
  obtain ⟨chain?, hchain?, hchain⟩ := bind_eq_ok.1 hchain
  rw [hread] at hchain?
  cases hchain?
  obtain ⟨_, -, hchain⟩ := bind_eq_ok.1 hchain
  obtain ⟨uses, huses, -⟩ := bind_eq_ok.1 hchain
  exact Words.error_of_mapM huses

/-- **An expression with a path means the same in tags** exactly if its text is plain. If it has no
blanks outside of its arguments and no text in front of their colons, that is exactly if its
arguments are simple. -/
theorem agreesInTags_iff (hstands : StandsAt text start r.source)
    (hread : Chain.read? text start = .ok (some (value, filters))) (hkind : value.kind = .path)
    (hchain : r.chain text whole start = .ok e)
    (hword : String.ofList text ∉ Condition.wordOperators) :
    (r.AgreesInTags text start e ↔ Plain text) ∧
    ((∀ w ∈ (readAll Chain.filterStep filters).words, ∀ place, ¬ w.Skips place) →
      (∀ i c, text[i]? = some c → isBlank c →
        InArgument (readAll Chain.filterStep filters).words (start + i)) →
      (Plain text ↔ ∀ w ∈ (readAll Chain.filterStep filters).words, ∀ a, w.argument = some a →
        a.kind.Simple (a.span.slice r.source))) := by
  have hiff := isWord_iff_plain hread hkind
  refine ⟨⟨fun h => hiff.1 h.word, fun hplain => ?_⟩, fun hskips hblank => ?_⟩
  · refine ⟨hiff.2 hplain, fun source done token value hslice hitem => ?_,
      exists_base hstands hchain⟩
    unfold Condition.combineStep
    rw [hitem, hslice]
    exact if_neg (by simpa using hword)
  · obtain ⟨p, hp, rfl, -, hwords⟩ :=
      Chain.exists_chainPieces hread (error_of_chain hread hchain)
    rw [hkind] at hp
    rw [hwords] at hskips hblank ⊢
    exact ChainPieces.plain_iff_simple hp hstands.drop_eq hskips hblank

/-- A literal with a blank in it is simple, and the expression around it means the same in tags. -/
theorem agreesInTags_quoted :
    (⟨"\x7b\x7ba.b|default:'x y'|lower\x7d\x7d".toList, [], 0⟩ : Reader).AgreesInTags
      "a.b|default:'x y'|lower".toList 2
      ⟨.path ⟨2, 3⟩ "a" ["b"], [⟨⟨6, 7⟩, .builtin .default, some (.text ⟨15, 3⟩ "x y")⟩,
        ⟨⟨20, 5⟩, .builtin .lower, none⟩]⟩ := by
  have hread : Chain.read? "a.b|default:'x y'|lower".toList 2 =
      .ok (some (⟨.path, ⟨2, 3⟩⟩, ⟨6, "default:'x y'|lower".toList⟩)) := rfl
  have hchain : (⟨"\x7b\x7ba.b|default:'x y'|lower\x7d\x7d".toList, [], 0⟩ : Reader).chain
      "a.b|default:'x y'|lower".toList ⟨0, 27⟩ 2 =
        .ok ⟨.path ⟨2, 3⟩ "a" ["b"], [⟨⟨6, 7⟩, .builtin .default, some (.text ⟨15, 3⟩ "x y")⟩,
          ⟨⟨20, 5⟩, .builtin .lower, none⟩]⟩ := rfl
  have hwords : (readAll Chain.filterStep ⟨6, "default:'x y'|lower".toList⟩).words =
      [⟨⟨6, 7⟩, some ⟨.text, ⟨14, 5⟩⟩⟩, ⟨⟨20, 5⟩, none⟩] := rfl
  have hstands : StandsAt "a.b|default:'x y'|lower".toList 2
      "\x7b\x7ba.b|default:'x y'|lower\x7d\x7d".toList := rfl
  obtain ⟨hplain, hsimple⟩ := agreesInTags_iff hstands hread rfl hchain (by decide)
  rw [hwords] at hsimple
  refine hplain.2 ((hsimple ?_ ?_).2 ?_)
  · -- nothing stands before the colon
    refine List.forall_mem_cons.2 ⟨?_, List.forall_mem_singleton.2 ?_⟩
    · rintro place ⟨a, ⟨⟩, hle, hlt⟩
      exact absurd (Nat.lt_of_le_of_lt hle (Nat.lt_of_succ_lt_succ hlt)) (Nat.lt_irrefl _)
    · rintro place ⟨a, ⟨⟩, -⟩
  · -- the only blank stands in the literal
    intro i c hc hblank
    have hall : ∀ i < 23, ("a.b|default:'x y'|lower".toList[i]?).any isBlank → i = 14 := by decide
    obtain rfl := hall i (List.getElem?_eq_some_iff.1 hc).1 (by rw [hc]; exact hblank)
    exact ⟨_, List.mem_cons_self, _, rfl, by decide, by decide⟩
  · refine List.forall_mem_cons.2 ⟨?_, List.forall_mem_singleton.2 nofun⟩
    rintro a ⟨⟩
    exact ⟨'\'', "x y".toList, by decide, rfl⟩

/-- **A negative number** is an argument between `{{` and `}}`, but in tags the expression ends before
its dash. -/
theorem not_agreesInTags_negative :
    (⟨"\x7b\x7bx|add:-1\x7d\x7d".toList, [], 0⟩ : Reader).chain "x|add:-1".toList ⟨0, 12⟩ 2 =
        .ok ⟨.path ⟨2, 1⟩ "x" [], [⟨⟨4, 3⟩, .builtin .add, some (.int ⟨8, 2⟩ (-1))⟩]⟩ ∧
      ConditionWord.step ⟨6, "x|add:-1".toList⟩ =
        some (.error (.here .invalidRemainder ⟨12, 2⟩), ⟨12, []⟩) ∧
      ¬ (⟨"\x7b\x7bx|add:-1\x7d\x7d".toList, [], 0⟩ : Reader).AgreesInTags "x|add:-1".toList 2
        ⟨.path ⟨2, 1⟩ "x" [], [⟨⟨4, 3⟩, .builtin .add, some (.int ⟨8, 2⟩ (-1))⟩]⟩ := by
  have hstep : ConditionWord.step ⟨6, "x|add:-1".toList⟩ =
      some (.error (.here .invalidRemainder ⟨12, 2⟩), ⟨12, []⟩) := rfl
  refine ⟨rfl, hstep, fun h => ?_⟩
  have hcondition := h.word.condition 6 [] rfl
  rw [List.append_nil, hstep] at hcondition
  cases hcondition

end Reader

end Galley
