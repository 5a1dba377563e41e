import Galley.Proofs.TagText
import Galley.Template
import Mathlib

/-!
# Quoting a text

A verbatim block quotes any text in which no tag begins. Braces of every other kind, line ends and a
brace at the very end of the text, directly before the tag that ends the block, do no harm. Neither does
a name behind the word `verbatim`, if it is the same in both tags, stands in one line and does not close
the tag.

* `find?_append`: a pair of characters that does not stand in a text is found behind it.
* `IsBlockName`: the names.
* `Token.scan_quoted`, `compile_quoted`: the tokens and the nodes of a quoted text.
* `render_quoted`: **a quoted text is written as it is.**
-/

namespace Galley

open Text

variable {name text rest : List Char} {start : Nat}

/-! ## Finding a pair of characters -/

/-- A pair is found behind a text in which it does not stand. It cannot begin with the last character of
the text, for its second character is another one than its first. -/
theorem find?_append {x y : Char} (hne : x ≠ y) (h : ¬ [x, y] <:+: text) (rest : List Char) :
    find? [x, y] (text ++ x :: y :: rest) = some text.length := by
  induction text with
  | nil => simp [find?]
  | cons d text ih =>
    rw [List.infix_cons_iff, not_or] at h
    have hnot : ¬ [x, y] <+: d :: (text ++ x :: y :: rest) := by
      intro hpre
      obtain ⟨rfl, hsecond⟩ := List.cons_prefix_cons.1 hpre
      cases text with
      | nil => exact hne (List.cons_prefix_cons.1 hsecond).1.symm
      | cons e text =>
        obtain ⟨rfl, -⟩ := List.cons_prefix_cons.1 hsecond
        exact h.1 ⟨text, rfl⟩
    rw [List.cons_append, find?, if_neg (mt List.isPrefixOf_iff_prefix.1 hnot), ih h.2]
    rfl

/-- A pair does not begin before its first character. -/
theorem not_infix_append {x y : Char} {before : List Char} (hx : x ∉ before)
    (h : ¬ [x, y] <:+: text) : ¬ [x, y] <:+: before ++ text := by
  induction before with
  | nil => exact h
  | cons d before ih =>
    obtain ⟨hd, hbefore⟩ := not_or.1 (mt List.mem_cons.2 hx)
    rw [List.cons_append, List.infix_cons_iff, not_or]
    exact ⟨fun hpre => hd (List.cons_prefix_cons.1 hpre).1, ih hbefore⟩

/-- A pair does not end with another character. -/
theorem not_infix_concat {x y z : Char} (hz : z ≠ y) (h : ¬ [x, y] <:+: text) :
    ¬ [x, y] <:+: text ++ [z] := by
  rw [List.infix_concat_iff, not_or]
  refine ⟨fun hsuffix => ?_, h⟩
  rcases List.suffix_concat_iff.1 hsuffix with hnil | ⟨before, heq, -⟩
  · cases hnil
  · have hlast := congrArg List.getLast? heq
    rw [List.getLast?_concat] at hlast
    exact hz (Option.some.inj hlast).symm

/-! ## The tags of a block -/

/-- **A name for a block**: without blanks at its ends, in one line, and without what closes a tag. -/
structure IsBlockName (name : List Char) : Prop where
  trimmed : trim name = name
  line : '\n' ∉ name
  closing : ¬ ['%', '}'] <:+: name

instance (name : List Char) : Decidable (IsBlockName name) :=
  decidable_of_iff (trim name = name ∧ '\n' ∉ name ∧ ¬ ['%', '}'] <:+: name)
    ⟨fun ⟨h1, h2, h3⟩ => ⟨h1, h2, h3⟩, fun h => ⟨h.trimmed, h.line, h.closing⟩⟩

/-- **A text in a verbatim block**, with a name for the block. -/
def quoted (name text : List Char) : List Char :=
  tagText "verbatim" name ++ (text ++ tagText "endverbatim" name)

theorem isNameChar_verbatim : ∀ d ∈ "verbatim".toList, isNameChar d := List.all_eq_true.1 rfl

theorem isNameChar_endverbatim : ∀ d ∈ "endverbatim".toList, isNameChar d := List.all_eq_true.1 rfl

theorem head_of_trimStart_eq (h : trimStart text = text) : ∀ d ∈ text.head?, isBlank d = false := by
  cases text with
  | nil => nofun
  | cons d rest =>
    rintro _ ⟨⟩
    refine Bool.eq_false_iff.2 fun hd => ?_
    have hlength := congrArg List.length h
    rw [trimStart, List.dropWhile_cons_of_pos hd, List.length_cons] at hlength
    have := (List.dropWhile_suffix (l := rest) isBlank).length_le
    omega

theorem trimmed_of_trim_eq (h : trim text = text) : Trimmed text := by
  have hstart : trimStart text = text := by
    have hsuffix : trimStart text <:+ text := List.dropWhile_suffix _
    have hle := (trimEnd_prefix_self (trimStart text)).length_le
    have hlength := congrArg List.length h
    exact hsuffix.eq_of_length (Nat.le_antisymm hsuffix.length_le (hlength ▸ hle))
  have hend : trimStart text.reverse = text.reverse := by
    rw [trim, hstart] at h
    rw [← List.reverse_inj, List.reverse_reverse]
    exact h
  refine ⟨head_of_trimStart_eq hstart, fun d hd => head_of_trimStart_eq hend d ?_⟩
  rwa [List.head?_reverse]

/-- What stands in a tag with a name for a block: nothing that closes it, and no line end. -/
theorem tagBody_closing (word : String) (hword : ∀ d ∈ word.toList, isNameChar d)
    (hname : IsBlockName name) :
    ¬ ['%', '}'] <:+: tagBody word name ∧ '\n' ∉ tagBody word name := by
  have hchar {d : Char} (hd : isNameChar d = false) : d ∉ word.toList := fun hmem => by
    rw [hword d hmem] at hd
    cases hd
  have hgap : ∀ d ∈ partsGap name, d = ' ' := by
    cases name with
    | nil => nofun
    | cons d name => exact fun e he => List.mem_singleton.1 he
  constructor
  · have hbefore : '%' ∉ ' ' :: (word.toList ++ partsGap name) := by
      simp only [List.mem_cons, List.mem_append, not_or]
      exact ⟨by decide, hchar (by decide +kernel), fun hmem => absurd (hgap _ hmem) (by decide)⟩
    have hsplit : tagBody word name = ' ' :: (word.toList ++ partsGap name) ++ (name ++ [' ']) := by
      simp [tagBody]
    rw [hsplit]
    exact not_infix_append hbefore (not_infix_concat (by decide) hname.closing)
  · simp only [tagBody, List.mem_cons, List.mem_append, List.not_mem_nil, not_or, or_false]
    exact ⟨by decide, ⟨hchar (by decide +kernel), fun hmem => absurd (hgap _ hmem) (by decide),
      hname.line⟩, by decide⟩

/-- Where such a tag is closed. -/
theorem find?_tagText (word : String) (hword : ∀ d ∈ word.toList, isNameChar d)
    (hname : IsBlockName name) (rest : List Char) :
    find? ['%', '}'] (tagText word name ++ rest) = some ((tagBody word name).length + 2) := by
  have hnot : ¬ ['%', '}'] <:+: '{' :: '%' :: tagBody word name := by
    rw [List.infix_cons_iff, List.infix_cons_iff, not_or, not_or]
    refine ⟨fun hpre => ?_, fun hpre => ?_, (tagBody_closing word hword hname).1⟩
    · exact absurd (List.cons_prefix_cons.1 hpre).1 (by decide)
    · have hsecond := (List.cons_prefix_cons.1 hpre).2
      exact absurd (List.cons_prefix_cons.1 hsecond).1 (by decide)
  have htext : tagText word name ++ rest =
      ('{' :: '%' :: tagBody word name) ++ '%' :: '}' :: rest := by
    simp [tagText, TokenKind.enclose, TokenKind.opening, TokenKind.closing]
  rw [htext]
  exact find?_append (by decide) hnot rest

/-! ## The tokens of a quoted text -/

/-- A tag as it is read outside of all blocks. -/
theorem Token.next_tagText (word : String) (hword : ∀ d ∈ word.toList, isNameChar d)
    (hname : IsBlockName name) (rest : List Char) :
    next (tagText word name ++ rest) = (.tag, (tagText word name).length) := by
  have hlength : (tagText word name).length = (tagBody word name).length + 4 :=
    TokenKind.length_enclose (by decide) _
  have hline : '\n' ∉ (tagText word name ++ rest).take ((tagBody word name).length + 2 + 2) := by
    have htake : (tagText word name ++ rest).take ((tagBody word name).length + 2 + 2) =
        tagText word name := by
      rw [show (tagBody word name).length + 2 + 2 = (tagText word name).length from hlength.symm,
        List.take_left]
    rw [htake, tagText, TokenKind.enclose, List.mem_append, List.mem_append, not_or, not_or]
    exact ⟨by decide, (tagBody_closing word hword hname).2, by decide⟩
  have hopen : ['{', '%'] <+: tagText word name ++ rest := ⟨_, rfl⟩
  rw [next_of_find? hopen (find?_tagText word hword hname rest) (by omega), if_neg hline, hlength]

/-- What stands in the tags of a block, without the blanks around it. -/
theorem trim_tagBody_verbatim (hname : IsBlockName name) :
    trim (tagBody "verbatim" name) = "verbatim".toList ++ (partsGap name ++ name) ∧
      trim (tagBody "endverbatim" name) = "endverbatim".toList ++ (partsGap name ++ name) :=
  have htrimmed := trimmed_of_trim_eq hname.trimmed
  ⟨(trim_tagBody (by decide) isNameChar_verbatim htrimmed).1,
    (trim_tagBody (by decide) isNameChar_endverbatim htrimmed).1⟩

theorem opensVerbatim_tagBody_verbatim (hname : IsBlockName name) :
    Token.opensVerbatim (trim (tagBody "verbatim" name)) := by
  rw [(trim_tagBody_verbatim hname).1, Token.opensVerbatim]
  cases name with
  | nil => rfl
  | cons d name =>
    rw [Bool.or_eq_true, List.isPrefixOf_iff_prefix]
    exact .inr ⟨d :: name, rfl⟩

theorem endsVerbatim_tagBody (hname : IsBlockName name) :
    Token.endsVerbatim (trim (tagBody "verbatim" name)) (tagBody "endverbatim" name) := by
  obtain ⟨hopening, hend⟩ := trim_tagBody_verbatim hname
  rw [Token.endsVerbatim, hopening, hend, Bool.and_eq_true]
  refine ⟨decide_eq_true ?_, decide_eq_true rfl⟩
  rw [List.length_append]
  exact Nat.le_add_right_of_le (by decide)

/-- **The tag that ends the block** stands directly behind the text. -/
theorem verbatimEnd?_quoted (hname : IsBlockName name) (htext : ¬ ['{', '%'] <:+: text) :
    Token.verbatimEnd? (trim (tagBody "verbatim" name)) (text ++ tagText "endverbatim" name) =
      some (text.length, text.length + (tagText "endverbatim" name).length) := by
  have hlength : (tagText "endverbatim" name).length = (tagBody "endverbatim" name).length + 4 :=
    TokenKind.length_enclose (by decide) _
  have hclose := find?_tagText "endverbatim" isNameChar_endverbatim hname []
  rw [List.append_nil] at hclose
  have hblock : Token.block? (text ++ tagText "endverbatim" name) =
      some (text.length, text.length + (tagText "endverbatim" name).length) := by
    have hopen : find? ['{', '%'] (text ++ tagText "endverbatim" name) = some text.length :=
      find?_append (by decide) htext _
    rw [Token.block?, hopen, Option.bind_some, List.drop_left, hclose, hlength]
    rfl
  have hcontent : ((text ++ tagText "endverbatim" name).drop (text.length + 2)).take
      (text.length + (tagText "endverbatim" name).length - text.length - 4) =
        tagBody "endverbatim" name := by
    have hdrop : (tagText "endverbatim" name).drop 2 = tagBody "endverbatim" name ++ ['%', '}'] := rfl
    rw [← List.drop_drop, List.drop_left, hdrop, Nat.add_sub_cancel_left, hlength,
      Nat.add_sub_cancel, List.take_left]
  rw [Token.verbatimEnd?_of_some hblock, hcontent, if_pos (endsVerbatim_tagBody hname)]

/-- **The tokens of a quoted text**: the tag, the text if it is not empty, and the other tag. -/
theorem Token.scan_quoted (hname : IsBlockName name) (htext : ¬ ['{', '%'] <:+: text) :
    scan (quoted name text) =
      ⟨.tag, 0, (tagText "verbatim" name).length⟩ ::
        verbatimTokens (tagText "verbatim" name).length text.length
          (text.length + (tagText "endverbatim" name).length) := by
  have hnext := next_tagText "verbatim" isNameChar_verbatim hname
    (text ++ tagText "endverbatim" name)
  have hlength : (tagText "verbatim" name).length = (tagBody "verbatim" name).length + 4 :=
    TokenKind.length_enclose (by decide) _
  have hopening : blockAfter none (quoted name text) = some (trim (tagBody "verbatim" name)) := by
    have hdrop : (quoted name text).drop 2 =
        tagBody "verbatim" name ++ (['%', '}'] ++ (text ++ tagText "endverbatim" name)) := by
      simp [quoted, tagText, TokenKind.enclose, TokenKind.opening, TokenKind.closing]
    have hcontent : trim (((quoted name text).drop 2).take
        ((first none (quoted name text)).2 - 4)) = trim (tagBody "verbatim" name) := by
      rw [first, quoted, hnext, ← quoted, hdrop, hlength, Nat.add_sub_cancel, List.take_left]
    rw [← hcontent]
    refine blockAfter_of_opensVerbatim (by intro o h; cases h) (congrArg Prod.fst hnext) ?_
    rw [hcontent]
    exact opensVerbatim_tagBody_verbatim hname
  have hend := verbatimEnd?_quoted hname htext
  have hline : '\n' ∉ ((text ++ tagText "endverbatim" name).drop text.length).take
      (text.length + (tagText "endverbatim" name).length - text.length) := by
    rw [List.drop_left, Nat.add_sub_cancel_left, List.take_length, tagText, TokenKind.enclose,
      List.mem_append, List.mem_append, not_or, not_or]
    exact ⟨by decide, (tagBody_closing "endverbatim" isNameChar_endverbatim hname).2, by decide⟩
  have htokens : scanFrom (some (trim (tagBody "verbatim" name))) (tagText "verbatim" name).length
      (text ++ tagText "endverbatim" name) = _ :=
    (scanFrom_verbatim_iff (opensVerbatim_tagBody_verbatim hname) hend).2 (.inr hline)
  have hdrop : (quoted name text).drop (tagText "verbatim" name).length =
      text ++ tagText "endverbatim" name := List.drop_left
  have hrest : (text ++ tagText "endverbatim" name).drop
      (text.length + (tagText "endverbatim" name).length) = [] := by
    rw [← List.length_append, List.drop_length]
  have hne : quoted name text ≠ [] := List.cons_ne_nil _ _
  have hfirst : first none (quoted name text) = (.tag, (tagText "verbatim" name).length) := hnext
  rw [scan, scanFrom_of_ne_nil _ _ hne, hopening, hfirst]
  dsimp only
  rw [hdrop, Nat.zero_add, htokens, hrest, scanFrom_nil, List.append_nil]

/-! ## Writing a quoted text -/

/-- **A quoted text makes one node**, of the text. -/
theorem compile_quoted (hname : IsBlockName name) (htext : ¬ ['{', '%'] <:+: text)
    (libraries : List (String × Library)) :
    compile (quoted name text) libraries =
      .ok [.text ⟨(tagText "verbatim" name).length, text.length⟩ (String.ofList text)] := by
  have hopening : (⟨0, tagText "verbatim" name⟩ : Cursor).Reads (quoted name text) := by
    refine ⟨Nat.zero_le _, ?_⟩
    exact List.prefix_append _ _
  obtain ⟨hcontent, hreads⟩ := Token.content_enclose (by decide) hopening
  have hopens : Token.opensVerbatim (trim (Token.content (quoted name text)
      ⟨.tag, 0, (tagText "verbatim" name).length⟩)) := by
    rw [tagText, hcontent]
    exact opensVerbatim_tagBody_verbatim hname
  have hslice : Span.slice ⟨(tagText "verbatim" name).length, text.length⟩ (quoted name text) =
      text := by
    rw [Span.slice, quoted, List.drop_left, List.take_left]
  have hfold := foldlM_verbatimTokens (c := { source := quoted name text, libraries })
    (t := ⟨.tag, 0, (tagText "verbatim" name).length⟩) (a := text.length)
    (b := text.length + (tagText "endverbatim" name).length) rfl rfl rfl
    (by rw [tagText, hcontent]; exact hreads) hopens
  have hstop : Span.stop ⟨0, (tagText "verbatim" name).length⟩ = (tagText "verbatim" name).length :=
    Nat.zero_add _
  rw [hstop, hslice] at hfold
  rw [compile, Token.scan_quoted hname htext, hfold]
  rfl

/-- A node of text is written as it is. -/
theorem run_renderAll_text (routes : RouteTable) (span : Span) (text : String) (s : Scope) :
    (renderAll routes [.text span text]).run.run s = (.ok text, s) := by
  have hwritten : (renderAll routes [.text span text]).run.run s = (.ok (text ++ ""), s) := rfl
  rw [hwritten, String.append_empty]

/-- **Anything can be quoted.** A text in which no tag begins, between a tag that opens a verbatim block
and one that ends it, compiles and is written as it is: whatever the block is called, whatever libraries
and routes there are, for every context and request, and with autoescaping on or off. -/
theorem render_quoted (hname : IsBlockName name) (htext : ¬ ['{', '%'] <:+: text) (title : Option String)
    (libraries : List (String × Library)) :
    ∃ t, Template.compile (String.ofList (quoted name text)) title libraries = .ok t ∧
      ∀ routes context autoescape request,
        (context = .none ∨ ∃ number entries, context = .dict number entries) →
          (t.render routes context autoescape request).1 = .ok (String.ofList text) := by
  let node := Node.text ⟨(tagText "verbatim" name).length, text.length⟩ (String.ofList text)
  refine ⟨⟨quoted name text, title, [node]⟩, ?_, fun routes context autoescape request hcontext => ?_⟩
  · rw [Template.compile, String.toList_ofList, compile_quoted hname htext]
  · obtain ⟨s, hs⟩ : ∃ s, Scope.ofContext context autoescape request = .ok s := by
      rcases hcontext with rfl | ⟨number, entries, rfl⟩
      · exact ⟨_, rfl⟩
      · exact ⟨_, rfl⟩
    rw [Template.render, hs]
    dsimp only
    rw [Template.renderIn]
    dsimp only
    rw [run_renderAll_text]
    rfl

/-- A text with braces of every kind, in a block with an odd name. -/
theorem render_quoted_braces :
    let text := "\x7d\x7d %\x7d \x7b# \x7b\x7b x \n\x7b".toList
    quoted "a % \x7d".toList text =
        "\x7b% verbatim a % \x7d %\x7d".toList ++ text ++ "\x7b% endverbatim a % \x7d %\x7d".toList ∧
      ∃ t, Template.compile (String.ofList (quoted "a % \x7d".toList text)) none [] = .ok t ∧
        ∀ routes context autoescape request,
          (context = .none ∨ ∃ number entries, context = .dict number entries) →
            (t.render routes context autoescape request).1 = .ok (String.ofList text) :=
  ⟨rfl, render_quoted (by decide +kernel) (by decide +kernel) none []⟩

end Galley
