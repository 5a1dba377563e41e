import Galley.Proofs.Declared
import Galley.Proofs.Literals
import Galley.Proofs.OpenLoops

/-!
# Places recover what is written

Values are cut out of the text by the places of words, and errors point to the places of atoms and
filters. The two belong together: at the place of an atom or of a filter stands what it was made of.

* `Atom.Recovers`, `FilterUse.Recovers`, `Expression.Recovers`: what stands there.
* `eq_dotted_of_splitOn`, `quotes_of_literalText`: a path is the names between its dots, a literal the
  text between its quotes.
* `Reader.recovers_atom`, `Reader.recovers_chain`, `Reader.recovers_expression`: the reader sees to it.
* `recovers_compile`: **every place in a compiled template recovers what was written there.**
-/

namespace Galley

open Cursor Text

variable {source text : List Char} {span : Span} {s : String}

/-! ## What stands at a place -/

/-- A place **quotes** a text: it lies between two quotes of a kind, and the text is what stands there
without the backslashes that escape others. -/
def Span.Quotes (span : Span) (source : List Char) (s : String) : Prop :=
  ∃ quote, isQuote quote ∧ 0 < span.start ∧
    Span.slice ⟨span.start - 1, span.length + 2⟩ source = quote :: (span.slice source ++ [quote]) ∧
    s.toList = dropEscapes '\\' (dropEscapes quote (span.slice source))

/-- **The place of an atom recovers it**: there stands the number that is read as its value, the text
between the quotes of a literal, or the names of a path with dots between them. -/
def Atom.Recovers (source : List Char) : Atom → Prop
  | .int span n => Integer.read? (span.slice source) = some n
  | .float span x =>
    Integer.read? (span.slice source) = none ∧ readFloat? (span.slice source) = some x
  | .text span s | .translated span s => span.Quotes source s
  | .path span root names => span.slice source = dotted root names
  | .loop span parents counter names =>
    span.slice source = dotted "forloop"
      (List.replicate parents "parentloop" ++ ((counter.map LoopCounter.word).toList ++ names))

/-- The place of a filter recovers its name, and that of its argument the argument. -/
structure FilterUse.Recovers (use : FilterUse) (source : List Char) : Prop where
  name : use.span.slice source = use.filter.name.toList
  argument : ∀ a, use.argument = some a → a.Recovers source

/-- The places of an expression recover its atom and its filters. -/
structure Expression.Recovers (e : Expression) (source : List Char) : Prop where
  head : e.head.Recovers source
  filters : ∀ use ∈ e.filters, use.Recovers source

/-! ## Numbers -/

/-- A digit or a point is the same in lower case. -/
theorem toLower_of_numeric {c : Char} (h : c.isDigit ∨ c = '.') : c.toLower = c := by
  rcases h with h | rfl
  · have hbounds : c.toNat ≤ 57 := by
      simp only [Char.isDigit, Bool.and_eq_true, decide_eq_true_eq] at h
      exact h.2
    have hupper : ¬(c.val ≥ 'A'.val ∧ c.val ≤ 'Z'.val) := fun hc =>
      absurd (Nat.le_trans hc.1 hbounds) (by decide)
    exact dif_neg hupper
  · rfl

/-- A decimal fraction begins with a digit or a point. -/
theorem exists_cons_of_readUnsigned? {negative : Bool} {d : DecimalLiteral}
    (h : DecimalLiteral.readUnsigned? negative text = some d) :
    ∃ first rest, text = first :: rest ∧ (first.isDigit ∨ first = '.') := by
  cases text with
  | nil => cases h
  | cons first rest =>
    refine ⟨first, rest, rfl, Decidable.byContradiction fun hfirst => ?_⟩
    obtain ⟨hdigit, hpoint⟩ := not_or.1 hfirst
    simp [DecimalLiteral.readUnsigned?, hdigit, hpoint] at h

/-- No name begins so. -/
theorem floatNamed?_of_numeric {first : Char} {rest : List Char} (h : first.isDigit ∨ first = '.') :
    floatNamed? (String.ofList ((first :: rest).map Char.toLower)) = none := by
  have hne (name : String) {d : Char} (hd : name.toList.head? = some d)
      (hnot : ¬(d.isDigit ∨ d = '.')) : String.ofList ((first :: rest).map Char.toLower) ≠ name := by
    rintro rfl
    rw [String.toList_ofList, List.map_cons, toLower_of_numeric h, List.head?_cons,
      Option.some.injEq] at hd
    exact hnot (hd ▸ h)
  have hinf : ¬((String.ofList ((first :: rest).map Char.toLower) = "inf" ||
      String.ofList ((first :: rest).map Char.toLower) = "infinity") = true) := by
    simp only [Bool.or_eq_true, decide_eq_true_eq, not_or]
    exact ⟨hne "inf" rfl (by decide), hne "infinity" rfl (by decide)⟩
  rw [floatNamed?, if_neg (hne "nan" rfl (by decide)), if_neg hinf]

/-- **A decimal fraction is no name.** -/
theorem readFloat?_of_read? {d : DecimalLiteral} (h : DecimalLiteral.read? text = some d) :
    readFloat? text = some d.toFloat := by
  unfold readFloat?
  rw [h]
  unfold DecimalLiteral.read? at h
  -- the sign of both is the same, and behind it no name begins
  split at h
  all_goals
    obtain ⟨first, rest, rfl, hfirst⟩ := exists_cons_of_readUnsigned? h
    simp only [floatNamed?_of_numeric hfirst, Option.map_some]

/-! ## Paths -/

theorem dotted_cons (c : Char) (first : List Char) (names : List String) :
    dotted (String.ofList (c :: first)) names = c :: dotted (String.ofList first) names := by
  cases names <;> simp [dotted]

/-- **A path is the names between its dots.** -/
theorem eq_dotted_of_splitOn {root : String} {names : List String}
    (h : (splitOn '.' text).map String.ofList = root :: names) : text = dotted root names := by
  induction text generalizing root names with
  | nil =>
    cases h
    rfl
  | cons c text ih =>
    rw [splitOn] at h
    split at h
    · next hdot =>
      -- a dot ends an empty name
      obtain ⟨rfl, hnames⟩ := List.cons.inj h
      cases names with
      | nil =>
        have hlength := length_flatMap_splitOn '.' text
        rw [List.map_eq_nil_iff.1 hnames] at hlength
        cases hlength
      | cons name names =>
        rw [dotted, ← ih hnames, ← hdot]
        rfl
    · split at h
      · next hnone =>
        have hlength := length_flatMap_splitOn '.' text
        rw [hnone] at hlength
        cases hlength
      · next first others hsome =>
        obtain ⟨rfl, rfl⟩ := List.cons.inj h
        rw [dotted_cons, ← ih (by rw [hsome]; rfl)]

theorem eq_replicate_append_parents (names : List String) :
    names = List.replicate (Reader.parents names).1 "parentloop" ++ (Reader.parents names).2 := by
  induction names with
  | nil => rfl
  | cons name rest ih =>
    unfold Reader.parents
    split
    · next hname =>
      dsimp only
      rw [List.replicate_succ, List.cons_append, ← ih, hname]
    · rfl

theorem eq_append_counter (names : List String) :
    names = ((Reader.counter names).1.map LoopCounter.word).toList ++ (Reader.counter names).2 := by
  cases names with
  | nil => rfl
  | cons name rest =>
    cases hc : LoopCounter.ofWord? name with
    | none => simp only [Reader.counter, hc, Option.map_none, Option.toList_none, List.nil_append]
    | some c =>
      have hword : c.word = name := by simpa using List.find?_some hc
      simp only [Reader.counter, hc, Option.map_some, Option.toList_some, List.singleton_append, hword]

/-! ## Literals -/

theorem exists_of_isLiteral (h : isLiteral text) (hlen : 2 ≤ text.length) :
    ∃ quote body, isQuote quote ∧ text = quote :: (body ++ [quote]) := by
  cases text with
  | nil => cases hlen
  | cons quote rest =>
    simp only [isLiteral, List.head?_cons, Option.any_some, Bool.and_eq_true] at h
    obtain ⟨hquote, hlast⟩ := h
    have hne : rest ≠ [] := by
      rintro rfl
      simp at hlen
    rw [List.getLast?_cons_of_ne_nil hne, List.getLast?_eq_some_getLast hne] at hlast
    have hclose : rest.getLast hne = quote := by simpa using hlast
    refine ⟨quote, rest.dropLast, hquote, ?_⟩
    rw [← hclose, List.dropLast_concat_getLast]

theorem slice_inner {m n : Nat} (h : m + n ≤ span.length) :
    Span.slice ⟨span.start + m, n⟩ source = ((span.slice source).drop m).take n := by
  rw [Span.slice, Span.slice, List.drop_take, List.drop_drop, List.take_take,
    Nat.min_eq_left (by omega)]

/-- **A literal is the text between its quotes.** -/
theorem quotes_of_literalText (hwithin : span.Within source) (hlen : 2 ≤ span.length)
    (h : literalText (span.slice source) = .ok s) :
    Span.Quotes ⟨span.start + 1, span.length - 2⟩ source s := by
  unfold literalText at h
  split at h
  · next hliteral =>
    have hslice := Span.length_slice_of_within hwithin
    obtain ⟨quote, body, hquote, hbody⟩ := exists_of_isLiteral hliteral (by rw [hslice]; exact hlen)
    have hinner : Span.slice ⟨span.start + 1, span.length - 2⟩ source = body := by
      have hlength := congrArg List.length hbody
      simp only [hslice, List.length_cons, List.length_append, List.length_nil] at hlength
      rw [slice_inner (by omega), hbody, List.drop_one, List.tail_cons, List.take_left' (by omega)]
    have houter : (⟨span.start + 1 - 1, span.length - 2 + 2⟩ : Span) = span := by
      rw [Nat.add_sub_cancel, Nat.sub_add_cancel hlen]
    refine ⟨quote, hquote, Nat.succ_pos _, ?_, ?_⟩
    · rw [hinner, ← hbody]
      exact congrArg (Span.slice · source) houter
    · cases h
      rw [hinner, hbody, unescape, String.toList_ofList, List.dropLast_concat]
  · cases h

namespace Reader

variable {r : Reader} {a : Atom} {e : Expression} {o : Operand}

/-! ## What a reader makes of words -/

theorem recovers_number (h : r.number span = .ok a) : a.Recovers r.source := by
  unfold number at h
  dsimp only at h
  split at h
  · next n hn =>
    cases h
    exact hn
  · next hnone =>
    split at h
    · next d hd =>
      cases h
      exact ⟨hnone, readFloat?_of_read? hd⟩
    · cases h

theorem recovers_path (r : Reader) (span : Span) : (r.path span).Recovers r.source := by
  unfold path
  split
  · next hnone =>
    have hlength := length_flatMap_splitOn '.' (span.slice r.source)
    rw [List.map_eq_nil_iff.1 hnone] at hlength
    cases hlength
  · next root names hnames =>
    have hpath := eq_dotted_of_splitOn hnames
    split
    · next hloop =>
      simp only [Bool.and_eq_true, decide_eq_true_eq] at hloop
      have hcounter := eq_append_counter (parents names).2
      have hparents := eq_replicate_append_parents names
      rw [hcounter] at hparents
      rw [hloop.2] at hpath
      exact hpath.trans (congrArg (dotted "forloop") hparents)
    · exact hpath

/-- **The atom that an operand is.** -/
theorem recovers_atom (ho : o.StandsIn r.source) (h : r.atom o = .ok a) : a.Recovers r.source := by
  have hwithin := ho.within
  unfold atom at h
  split at h
  · exact recovers_number h
  · next hk =>
    obtain ⟨s, hs, h⟩ := bind_eq_ok.1 h
    cases h
    rw [Operand.inner, hk]
    exact quotes_of_literalText hwithin (ho.text hk).2 hs
  · next hk =>
    -- the quotes stand between the parentheses
    obtain ⟨s, hs, h⟩ := bind_eq_ok.1 h
    cases h
    have hlen := (ho.translated hk).2
    have hquoted : Span.Within ⟨o.span.start + 2, o.span.length - 3⟩ r.source := by
      simp only [Span.Within, Span.stop] at hwithin ⊢
      omega
    rw [Operand.inner, hk]
    exact quotes_of_literalText hquoted (by dsimp only; omega) hs
  · cases h
    exact recovers_path r o.span

theorem name_of_filter {f : Filter} (h : r.filter span = .ok f) : f.name = r.textAt span := by
  unfold filter at h
  dsimp only at h
  split at h
  · cases h
    rfl
  · split at h
    · next f' hword =>
      cases h
      have hfound := List.find?_some hword
      exact of_decide_eq_true hfound
    · cases h

theorem recovers_filterUse {word : FilterWord} {use : FilterUse} (hw : word.StandsIn r.source)
    (h : r.filterUse word = .ok use) : use.Recovers r.source := by
  -- the filter is looked up by the text of its word
  have hmade (argument : Option Atom) (hargument : ∀ a, argument = some a → a.Recovers r.source)
      (h : (do
        let filter ← r.filter word.name
        checkArity filter word.name argument
        return (⟨word.name, filter, argument⟩ : FilterUse)) = .ok use) : use.Recovers r.source := by
    obtain ⟨filter, hfilter, h⟩ := bind_eq_ok.1 h
    obtain ⟨_, -, h⟩ := bind_eq_ok.1 h
    cases h
    refine ⟨?_, hargument⟩
    rw [name_of_filter hfilter, textAt, String.toList_ofList]
  unfold filterUse at h
  dsimp only at h
  split at h
  · exact hmade none (by intro a ha; cases ha) h
  · next operand ho =>
    obtain ⟨argument, hread, h⟩ := bind_eq_ok.1 h
    obtain ⟨a, ha, rfl⟩ := map_eq_ok hread
    refine hmade (some a) (fun a' ha' => ?_) h
    cases ha'
    exact recovers_atom (hw.argument operand ho) ha

/-- **An atom with its filters,** read from a part of the text. -/
theorem recovers_chain {content : List Char} {start : Nat}
    (hreads : (⟨start, content⟩ : Cursor).Reads r.source) (h : r.chain content span start = .ok e) :
    e.Recovers r.source := by
  unfold chain at h
  obtain ⟨chain?, hchain, h⟩ := bind_eq_ok.1 h
  cases chain? with
  | none => cases h
  | some read =>
    obtain ⟨head, hhead, h⟩ := bind_eq_ok.1 h
    obtain ⟨uses, huses, h⟩ := bind_eq_ok.1 h
    cases h
    obtain ⟨hstands, hfilters, -, -⟩ := (Chain.settles_read hreads).of_ok hchain _ _ rfl
    refine ⟨recovers_atom hstands hhead, fun use huse => ?_⟩
    obtain ⟨word, hmem, hword⟩ := exists_of_mem_mapM (Words.mapM_words huses) huse
    exact recovers_filterUse ((Chain.sound_filterStep.readAll hfilters).words word hmem) hword

/-- **The expression that an operand of a tag is.** Its filters are read from its own part of the
text. -/
theorem recovers_expression (ho : o.StandsIn r.source) (h : r.expression o = .ok e) :
    e.Recovers r.source := by
  unfold expression at h
  split at h
  · exact recovers_chain (reads_ofSpan ho.within) h
  · obtain ⟨a, ha, h⟩ := bind_eq_ok.1 h
    cases h
    exact ⟨recovers_atom ho ha, List.forall_mem_nil _⟩

end Reader

/-! ## Templates -/

namespace Compiler

variable {c : Compiler} {t : Token} {e : Expression}

theorem Tagged.parts_within {name : String} {parts : Span} (h : c.Tagged t name parts)
    (ht : t.StandsIn c.source) : parts.Within c.source := by
  obtain ⟨words, hwords, -, rfl⟩ := h.words
  have hread := TagWords.settles_read (ht.content (by rw [h.kind]; decide))
  exact (hread.of_ok hwords words rfl).2

/-- What is found in a token that stands in the text stands there, too. -/
theorem Finds.standsIn (h : c.Finds t e) (ht : t.StandsIn c.source) : e.StandsIn c.source := by
  rcases h.chain_or_wasRead with ⟨hk, he⟩ | ⟨_, _, htag, operand, hstands, he⟩
  · exact ((Reader.settles_chain (r := c.reader) (ht.content hk) ht.within).of_ok he).1
  · exact ((Reader.settles_expression (hstands (htag.parts_within ht))).of_ok he).1

/-- Its places recover what it was read from. -/
theorem Finds.recovers (h : c.Finds t e) (ht : t.StandsIn c.source) : e.Recovers c.source := by
  rcases h.chain_or_wasRead with ⟨hk, he⟩ | ⟨_, _, htag, operand, hstands, he⟩
  · exact Reader.recovers_chain (ht.content hk) he
  · exact Reader.recovers_expression (hstands (htag.parts_within ht)) he

/-- A compiler that is reached reads the text of the template, and so do the tokens before it. -/
theorem Reached.sound {libraries : List (String × Library)} (h : c.Reached source libraries t) :
    c.Sound source t.span.start := by
  obtain ⟨before, after, hscan, hrun⟩ := h
  have hfollow := Token.contiguous_scan source
  rw [hscan] at hfollow
  have hbefore (t' : Token) (ht' : t' ∈ before) : t'.StandsIn source :=
    Token.standsIn_of_mem_scan (by rw [hscan]; exact List.mem_append_left _ ht')
  exact (settles_run (sound_start source libraries) hbefore hfollow.before).of_ok hrun

end Compiler

/-- **Every place in a compiled template recovers what was written there.** All expressions lie in the
text, those of conditions, headers and calls included, and each atom and each filter in them stands at
its place. -/
theorem recovers_compile {libraries : List (String × Library)} {nodes : List Node}
    (h : compile source libraries = .ok nodes) :
    AllHold (fun _ e => e.StandsIn source ∧ e.Recovers source) [] nodes := by
  refine allHold_of_finds (fun c t e hreached he => ?_) h
  obtain rfl := hreached.sound.source_eq
  obtain ⟨before, after, hscan, -⟩ := hreached
  have ht : t.StandsIn c.source := Token.standsIn_of_mem_scan (by rw [hscan]; simp)
  exact ⟨he.standsIn ht, he.recovers ht⟩

/-- Operands of a condition, the header of a loop, and its body. -/
def nested : List Char :=
  ("\x7b% if a.b == -3 or _('no') %\x7d\x7b% for x in xs|add:'y z' %\x7d" ++
    "\x7b\x7b forloop.parentloop.last.z|default:x.y \x7d\x7d\x7b% endfor %\x7d\x7b% endif %\x7d").toList

set_option maxRecDepth 4000 in
/-- Each of its atoms and filters is found at its place. -/
theorem recovers_compile_nested :
    let condition : Condition Expression :=
      .binary .either
        (.binary .equal (.operand ⟨.path ⟨6, 3⟩ "a" ["b"], []⟩) (.operand ⟨.int ⟨13, 2⟩ (-3), []⟩))
        (.operand ⟨.translated ⟨22, 2⟩ "no", []⟩)
    let iterable : Expression :=
      ⟨.path ⟨41, 2⟩ "xs" [], [⟨⟨44, 3⟩, .builtin .add, some (.text ⟨49, 3⟩ "y z")⟩]⟩
    let output : Expression :=
      ⟨.loop ⟨59, 25⟩ 1 (some .last) ["z"],
        [⟨⟨85, 7⟩, .builtin .default, some (.path ⟨93, 3⟩ "x" ["y"])⟩]⟩
    let nodes : List Node :=
      [.choice ⟨0, 29⟩ condition
        [.loop ⟨29, 27⟩ ⟨["x"], ⟨36, 1⟩, iterable, false⟩ [.output ⟨56, 43⟩ output] []] []]
    compile nested [] = .ok nodes ∧
      AllHold (fun _ e => e.StandsIn nested ∧ e.Recovers nested) [] nodes := by
  intro condition iterable output nodes
  have hscan : Token.scan nested =
      [⟨.tag, ⟨0, 29⟩⟩, ⟨.tag, ⟨29, 27⟩⟩, ⟨.interpolation, ⟨56, 43⟩⟩, ⟨.tag, ⟨99, 12⟩⟩,
        ⟨.tag, ⟨111, 11⟩⟩] := by decide +kernel
  have hnodes : compile nested [] = .ok nodes := by
    rw [compile, hscan]
    rfl
  exact ⟨hnodes, recovers_compile hnodes⟩

end Galley
