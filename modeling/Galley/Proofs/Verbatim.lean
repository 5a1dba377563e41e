import Galley.Compile
import Galley.Proofs.Words

/-!
# Verbatim blocks

A tag whose content opens a verbatim block is followed by the text of the block and by the tag that
ends it. The end is found before any of this is read; where there is text before it, it is read a
second time, as a tag like any other, and a line end inside it makes text of it then.

* `scanFrom_split`: what stands behind a token in the tokens of a text.
* `not_opensVerbatim_of_endsVerbatim`: the tag that ends a block opens none.
* `step_opensVerbatim`: the opening tag begins a block in the compiler.
* `verbatim_kept_iff`: a block is kept whole exactly if it is empty, or if no line end stands in the
  tag that ends it.
-/

namespace Galley

open Token

variable {block : Option (List Char)} {text source : List Char} {start : Nat}

/-! ## Tags that open and end a block -/

theorem verbatim_prefix_of_opensVerbatim {content : List Char} (h : opensVerbatim content) :
    "verbatim".toList <+: content := by
  simp only [opensVerbatim, Bool.or_eq_true, decide_eq_true_eq, List.isPrefixOf_iff_prefix] at h
  rcases h with rfl | h
  · exact List.prefix_refl _
  · exact List.IsPrefix.trans ⟨[' '], rfl⟩ h

/-- **The tag that ends a block opens none**: three characters further its name would have to begin
a second time. -/
theorem not_opensVerbatim_of_endsVerbatim {opening content : List Char}
    (ho : opensVerbatim opening) (he : endsVerbatim opening content) :
    opensVerbatim (Text.trim content) = false := by
  simp only [endsVerbatim, Bool.and_eq_true, decide_eq_true_eq] at he
  refine Bool.eq_false_iff.2 fun hc => ?_
  obtain ⟨rest, hrest⟩ := verbatim_prefix_of_opensVerbatim hc
  obtain ⟨rest', hrest'⟩ := verbatim_prefix_of_opensVerbatim ho
  rw [← he.2, ← hrest] at hrest'
  simp at hrest'

theorem length_of_endsVerbatim {opening content : List Char} (h : endsVerbatim opening content) :
    3 ≤ content.length := by
  simp only [endsVerbatim, Bool.and_eq_true, decide_eq_true_eq] at h
  have := Text.blankLength_add_length_trim_le content
  omega

/-- The tag that ends a block: what opens and closes it, and its content. -/
theorem exists_find?_of_verbatimEnd? {opening : List Char} {a b : Nat}
    (h : verbatimEnd? opening text = some (a, b)) :
    ∃ n, b = a + n + 2 ∧ ['{', '%'] <+: text.drop a ∧
      Text.find? ['%', '}'] (text.drop a) = some n ∧
      endsVerbatim opening (((text.drop a).drop 2).take (n - 2)) := by
  obtain ⟨s, start, stop, -, rfl, rfl, hb, hends⟩ := exists_block?_of_verbatimEnd? h
  obtain ⟨start', hstart, hb⟩ := Option.bind_eq_some_iff.1 hb
  obtain ⟨n, hn, heq⟩ := Option.map_eq_some_iff.1 hb
  simp only [Prod.mk.injEq] at heq
  obtain ⟨rfl, rfl⟩ := heq
  have hdrop : (text.drop s).drop start' = text.drop (start' + s) := by
    rw [List.drop_drop, Nat.add_comm]
  rw [hdrop] at hn
  rw [← List.drop_drop, hdrop, show start' + n + 2 - start' - 4 = n - 2 by omega] at hends
  exact ⟨n, by omega, by rw [← hdrop]; exact (Text.find?_spec hstart).1, hn, hends⟩

/-- **A tag as it is read outside of all blocks.** A line end in it makes text of its first line. -/
theorem next_of_find? {n : Nat} (ho : ['{', '%'] <+: text)
    (hn : Text.find? ['%', '}'] text = some n) (h2 : 2 ≤ n) :
    next text =
      if '\n' ∈ text.take (n + 2) then (.text, Text.lengthBefore '\n' (text.take n) + 1)
      else (.tag, n + 2) := by
  have hclosing : ∀ x, x ∈ text.take (n + 2) ↔ x ∈ text.take n ∨ x ∈ ['%', '}'] := by
    have hpre := List.prefix_iff_eq_take.1 (Text.find?_spec hn).1
    intro x
    rw [List.take_add, List.mem_append, ← show ['%', '}'] = (text.drop n).take 2 from hpre]
  have hline : '\n' ∈ text.take (n + 2) ↔ '\n' ∈ text.take n := by
    rw [hclosing]
    simp
  have hopened : TokenKind.opened text = some .tag := by
    obtain ⟨rest, rfl⟩ := ho
    rfl
  have hbehind : Text.find? TokenKind.tag.closing (text.drop 2) = some (n - 2) :=
    Text.find?_drop hn h2
  have hdelimited := (delimited_of_find? (by decide) hbehind).2
  rw [show n - 2 + 2 = n by omega, show n - 2 + 4 = n + 2 by omega] at hdelimited
  unfold next
  rw [hopened]
  simp only [hdelimited, hline]

theorem blockAfter_eq_some {content : List Char} (h : blockAfter block text = some content) :
    block = none ∧ (next text).1 = .tag ∧ opensVerbatim content ∧
      content = Text.trim ((text.drop 2).take ((next text).2 - 4)) := by
  cases block with
  | some _ => cases h
  | none =>
    simp only [blockAfter, verbatimOpening?] at h
    split at h
    · next hk =>
      split at h
      · next ho => cases h; exact ⟨rfl, hk, ho, rfl⟩
      · cases h
    · cases h

/-- A first token that opens a block is read outside of all blocks. -/
theorem blockAfter_of_opensVerbatim (hb : ∀ o, block = some o → opensVerbatim o)
    (hk : (first block text).1 = .tag)
    (ho : opensVerbatim (Text.trim ((text.drop 2).take ((first block text).2 - 4)))) :
    blockAfter block text = some (Text.trim ((text.drop 2).take ((first block text).2 - 4))) := by
  cases block with
  | none =>
    simp only [first] at hk ho
    simp only [blockAfter, verbatimOpening?, first, hk, ho, if_true]
  | some opening =>
    rw [first] at hk ho
    obtain ⟨stop, -, heq, hends⟩ := verbatim_of_ne_text (by rw [hk]; decide)
    rw [heq, not_opensVerbatim_of_endsVerbatim (hb opening rfl) hends] at ho
    cases ho

/-! ## Behind a token -/

/-- **What stands behind a token** is what is read behind it, in the block that it leaves open. -/
theorem scanFrom_split {before after : List Token} {t : Token}
    (hb : ∀ o, block = some o → opensVerbatim o) (hsrc : source.drop start = text)
    (h : scanFrom block start text = before ++ t :: after) :
    ∃ inside : Option (List Char), (∀ o, inside = some o → opensVerbatim o) ∧
      t.kind = (first inside (source.drop t.span.start)).1 ∧
      t.span.length = (first inside (source.drop t.span.start)).2 ∧
      after = scanFrom (blockAfter inside (source.drop t.span.start)) t.span.stop
        (source.drop t.span.stop) := by
  induction block, start, text using scanFrom.induct generalizing before with
  | case1 block start => simp at h
  | case2 block start c rest ih =>
    rw [scanFrom_of_ne_nil _ _ (List.cons_ne_nil c rest)] at h
    cases before with
    | nil =>
      -- the first token itself
      rw [List.nil_append, List.cons.injEq] at h
      obtain ⟨rfl, rfl⟩ := h
      refine ⟨block, hb, ?_⟩
      dsimp only [Span.stop]
      rw [← List.drop_drop, hsrc]
      exact ⟨rfl, rfl, rfl⟩
    | cons first' before =>
      rw [List.cons_append, List.cons.injEq] at h
      refine ih (fun o ho => (blockAfter_eq_some ho).2.2.1) ?_ h.2
      rw [← List.drop_drop, hsrc]

/-- The tokens of a block that starts at `start` and is ended by the tag from `a` to `b`: its text,
if it has one, and the tag. -/
def verbatimTokens (start a b : Nat) : List Token :=
  (if a = 0 then [] else [⟨.text, ⟨start, a⟩⟩]) ++ [⟨.tag, ⟨start + a, b - a⟩⟩]

theorem scanFrom_verbatim_of_pos {opening : List Char} {a b : Nat}
    (h : verbatimEnd? opening text = some (a, b)) (ha : a ≠ 0) :
    scanFrom (some opening) start text =
      ⟨.text, ⟨start, a⟩⟩ :: scanFrom none (start + a) (text.drop a) := by
  have hlen := verbatimEnd?_bounds h
  have hne : text ≠ [] := List.ne_nil_of_length_pos (by omega)
  have hfirst : verbatim opening text = (.text, a) := by
    obtain ⟨m, rfl⟩ : ∃ m, a = m + 1 := ⟨a - 1, by omega⟩
    simp only [verbatim, h]
  rw [scanFrom_of_ne_nil _ _ hne, first, hfirst]
  rfl

theorem scanFrom_verbatim_zero {opening : List Char} {b : Nat}
    (h : verbatimEnd? opening text = some (0, b)) :
    scanFrom (some opening) start text =
      ⟨.tag, ⟨start, b⟩⟩ :: scanFrom none (start + b) (text.drop b) := by
  have hlen := verbatimEnd?_bounds h
  have hne : text ≠ [] := List.ne_nil_of_length_pos (by omega)
  have hfirst : verbatim opening text = (.tag, b) := by simp only [verbatim, h]
  rw [scanFrom_of_ne_nil _ _ hne, first, hfirst]
  rfl

/-- **The tokens of a block**: its text and the tag that ends it, unless the tag is read again and
has a line end. -/
theorem scanFrom_verbatim_iff {opening : List Char} {a b : Nat} (ho : opensVerbatim opening)
    (h : verbatimEnd? opening text = some (a, b)) :
    scanFrom (some opening) start text =
        verbatimTokens start a b ++ scanFrom none (start + b) (text.drop b) ↔
      a = 0 ∨ '\n' ∉ (text.drop a).take (b - a) := by
  by_cases ha : a = 0
  · subst ha
    simp [scanFrom_verbatim_zero h, verbatimTokens]
  obtain ⟨n, rfl, hopen, hn, hends⟩ := exists_find?_of_verbatimEnd? h
  have hcontent := length_of_endsVerbatim hends
  rw [List.length_take] at hcontent
  have hne : text.drop a ≠ [] := by
    obtain ⟨rest, hrest⟩ := hopen
    rw [← hrest]
    exact List.cons_ne_nil _ _
  have hnext := next_of_find? hopen hn (by omega)
  rw [scanFrom_verbatim_of_pos h ha, scanFrom_of_ne_nil _ _ hne, first,
    show a + n + 2 - a = n + 2 by omega]
  by_cases hline : '\n' ∈ (text.drop a).take (n + 2)
  · -- the tag is read as text
    rw [if_pos hline] at hnext
    simp [hnext, hline, ha, verbatimTokens]
  · rw [if_neg hline] at hnext
    have hclosed : blockAfter none (text.drop a) = none := by
      have hnot := not_opensVerbatim_of_endsVerbatim ho hends
      simp only [blockAfter, verbatimOpening?, hnext, if_true]
      rw [show n + 2 - 4 = n - 2 by omega, hnot]
      rfl
    rw [hnext, hclosed, List.drop_drop]
    simp [verbatimTokens, ha, hline, Nat.add_assoc]

/-! ## The block in the compiler -/

theorem takeWhile_of_opensVerbatim {content : List Char} {p : Char → Bool}
    (h : opensVerbatim content) (hname : "verbatim".toList.all p) (hblank : p ' ' = false) :
    content.takeWhile p = "verbatim".toList := by
  have hname := List.all_eq_true.1 hname
  simp only [opensVerbatim, Bool.or_eq_true, decide_eq_true_eq, List.isPrefixOf_iff_prefix] at h
  rcases h with rfl | ⟨rest, rfl⟩
  · have hall : ("verbatim".toList ++ []).takeWhile p = "verbatim".toList ++ [].takeWhile p :=
      List.takeWhile_append_of_pos hname
    rwa [List.append_nil, List.takeWhile_nil, List.append_nil] at hall
  · rw [show "verbatim ".toList = "verbatim".toList ++ [' '] from rfl, List.append_assoc,
      List.takeWhile_append_of_pos hname, List.singleton_append,
      List.takeWhile_cons_of_neg (by simp [hblank]), List.append_nil]

/-- What opens a block is a tag with that name. -/
theorem read?_of_opensVerbatim {content : List Char}
    (h : (⟨start, content⟩ : Cursor).Reads source) (ho : opensVerbatim (Text.trim content)) :
    ∃ words, TagWords.read? content start = .ok (some words) ∧
      words.name.slice source = "verbatim".toList := by
  have hname := takeWhile_of_opensVerbatim (p := Text.isNameChar) ho rfl rfl
  have hword := takeWhile_of_opensVerbatim (p := fun c => !Text.isBlank c) ho rfl rfl
  have hlen : Text.wordLength (Text.trim content) = 8 := congrArg List.length hword
  have hle := Text.wordLength_le (Text.trim content)
  have hne : (Text.trim content).isEmpty = false := by
    cases hc : Text.trim content with
    | nil => rw [hc] at hlen; cases hlen
    | cons _ _ => rfl
  have hblank : content.length - (Text.trimStart content).length = Text.blankLength content := by
    have := Text.blankLength_add_length_trimStart content
    omega
  have hslice : Span.slice ⟨start + Text.blankLength content, 8⟩ source =
      (Text.trim content).take 8 := h.trimmed.slice_ahead (by rw [← hlen]; exact hle)
  let parts := Text.trim ((Text.trim content).drop 8)
  refine ⟨⟨⟨start + Text.blankLength content, 8⟩,
    ⟨start + Text.blankLength content + ((Text.trim content).length - parts.length), parts.length⟩⟩,
    ?_, ?_⟩
  · unfold TagWords.read?
    simp only [hne, hname, hlen, hblank]
    rfl
  · obtain ⟨rest, hrest⟩ := verbatim_prefix_of_opensVerbatim ho
    rw [hslice, ← hrest]
    rfl

theorem not_awaited_verbatim (p : Part) : p.awaited.contains "verbatim" = false := by
  cases p <;> simp [Part.awaited]

variable {c : Compiler} {t : Token}

/-- **The opening tag** begins a block in the compiler. -/
theorem step_opensVerbatim (hsource : c.source = source) (hverbatim : c.verbatim = none)
    (hk : t.kind = .tag) (hreads : (⟨t.span.start + 2, t.content source⟩ : Cursor).Reads source)
    (ho : opensVerbatim (Text.trim (t.content source))) :
    c.step t = .ok { c with verbatim := some ⟨t.span, ⟨t.span.stop, 0⟩, []⟩ } := by
  subst hsource
  obtain ⟨words, hread, hname⟩ := read?_of_opensVerbatim hreads ho
  have htext : c.reader.textAt words.name = "verbatim" := by
    rw [Reader.textAt, Compiler.reader, hname]
    rfl
  have hopen : c.openTag "verbatim" t.span words.parts =
      .ok { c with verbatim := some ⟨t.span, ⟨t.span.stop, 0⟩, []⟩ } := by
    have ht : (⟨.tag, t.span⟩ : Token) = t := by rw [← hk]
    simp only [Compiler.openTag, ht, ho, if_true]
  have htag : c.tag t = .ok { c with verbatim := some ⟨t.span, ⟨t.span.stop, 0⟩, []⟩ } := by
    unfold Compiler.tag
    rw [hread]
    simp only [bind, Except.bind, htext, not_awaited_verbatim]
    split
    · exact hopen
    · exact hopen
  simp only [Compiler.step, hverbatim, hk, htag]

/-- A tag ends the block, and what was read last in it is kept. -/
theorem step_endsVerbatim {block : Verbatim} (hv : c.verbatim = some block) (hk : t.kind = .tag) :
    c.step t =
      .ok (({ c with verbatim := none } : Compiler).add (.text block.span (String.ofList block.text))) := by
  simp only [Compiler.step, hv, hk, if_true]

theorem step_insideVerbatim {block : Verbatim} (hv : c.verbatim = some block) (hk : t.kind ≠ .tag) :
    c.step t = .ok { c with verbatim := some ⟨block.tag, t.span, t.content c.source⟩ } := by
  simp only [Compiler.step, hv, hk, if_false]

/-- **The tokens of a block make one text node** of all that stands before the tag that ends it. -/
theorem foldlM_verbatimTokens {a b : Nat} (hsource : c.source = source)
    (hverbatim : c.verbatim = none) (hk : t.kind = .tag)
    (hreads : (⟨t.span.start + 2, t.content source⟩ : Cursor).Reads source)
    (ho : opensVerbatim (Text.trim (t.content source))) :
    (t :: verbatimTokens t.span.stop a b).foldlM Compiler.step c =
      .ok (c.add (.text ⟨t.span.stop, a⟩ (String.ofList (Span.slice ⟨t.span.stop, a⟩ source)))) := by
  have hc : ({ c with verbatim := none } : Compiler) = c := by rw [← hverbatim]
  rw [foldlM_cons_of_ok (step_opensVerbatim hsource hverbatim hk hreads ho)]
  by_cases ha : a = 0
  · subst ha
    rw [verbatimTokens, if_pos rfl, List.nil_append, foldlM_cons_of_ok (step_endsVerbatim rfl rfl)]
    dsimp only
    rw [hc]
    rfl
  · rw [verbatimTokens, if_neg ha, List.singleton_append,
      foldlM_cons_of_ok (step_insideVerbatim (t := ⟨.text, ⟨t.span.stop, a⟩⟩) rfl nofun),
      foldlM_cons_of_ok (step_endsVerbatim rfl rfl)]
    dsimp only
    rw [hc, hsource]
    rfl

/-- **A verbatim block is kept whole exactly if it is empty or no line end stands in the tag that
ends it.** `t` is the opening tag, and the first tag that ends the block stands from `a` to `b`
behind it. Kept whole means that the text up to this tag and the tag are the next tokens, and that a
compiler makes one text node of them, with this text. -/
theorem verbatim_kept_iff {before after : List Token} {t : Token} {a b : Nat}
    (hscan : Token.scan source = before ++ t :: after) (hk : t.kind = .tag)
    (ho : opensVerbatim (Text.trim (t.content source)))
    (hend : verbatimEnd? (Text.trim (t.content source)) (source.drop t.span.stop) = some (a, b)) :
    (after = verbatimTokens t.span.stop a b ++
          Token.scanFrom none (t.span.stop + b) (source.drop (t.span.stop + b)) ∧
        ∀ c : Compiler, c.source = source → c.verbatim = none →
          (t :: verbatimTokens t.span.stop a b).foldlM Compiler.step c =
            .ok (c.add (.text ⟨t.span.stop, a⟩
              (String.ofList (Span.slice ⟨t.span.stop, a⟩ source))))) ↔
      a = 0 ∨ '\n' ∉ Span.slice ⟨t.span.stop + a, b - a⟩ source := by
  have hmem : t ∈ Token.scan source := by
    rw [hscan]
    exact List.mem_append_right _ List.mem_cons_self
  obtain ⟨hlen, hcontent⟩ := scan_content source hmem (by rw [hk]; decide)
  have hreads := reads_content hmem (by rw [hk]; decide)
  have hfrom : scanFrom none 0 source = before ++ t :: after := hscan
  obtain ⟨inside, hinside, hkind, hlength, hafter⟩ :=
    scanFrom_split (by intro o h; cases h) rfl hfrom
  -- the opening tag is read outside of all blocks, and opens one
  have hblock : blockAfter inside (source.drop t.span.start) =
      some (Text.trim (t.content source)) := by
    have htext : t.content source =
        ((source.drop t.span.start).drop 2).take ((first inside (source.drop t.span.start)).2 - 4) := by
      rw [hcontent, ← hlength, List.drop_drop, Span.slice]
    rw [htext] at ho ⊢
    exact blockAfter_of_opensVerbatim hinside (by rw [← hkind, hk]) ho
  rw [hafter, hblock, ← List.drop_drop]
  have hcompile : ∀ c : Compiler, c.source = source → c.verbatim = none →
      (t :: verbatimTokens t.span.stop a b).foldlM Compiler.step c =
        .ok (c.add (.text ⟨t.span.stop, a⟩
          (String.ofList (Span.slice ⟨t.span.stop, a⟩ source)))) :=
    fun c hc hv => foldlM_verbatimTokens hc hv hk hreads ho
  rw [and_iff_left hcompile, scanFrom_verbatim_iff ho hend, Span.slice, List.drop_drop]

/-- A variable in a block is text. -/
theorem verbatim_kept_variable :
    ((⟨.tag, ⟨0, 14⟩⟩ : Token) :: verbatimTokens 14 7 24).foldlM Compiler.step
        { source := "{% verbatim %}{{ x }}{% endverbatim %}".toList, libraries := [] } =
      .ok (Compiler.add
        { source := "{% verbatim %}{{ x }}{% endverbatim %}".toList, libraries := [] }
        (.text ⟨14, 7⟩ "{{ x }}")) := by
  have hscan : Token.scan "{% verbatim %}{{ x }}{% endverbatim %}".toList =
      [] ++ ⟨.tag, ⟨0, 14⟩⟩ :: verbatimTokens 14 7 24 := by decide +kernel
  exact ((verbatim_kept_iff hscan rfl (by decide) (by decide +kernel)).2 (.inr (by decide))).2 _ rfl rfl

/-- A line end in the tag that ends a block leaves the block open. -/
theorem verbatim_lost_at_line_end :
    verbatimEnd? "verbatim".toList ("\x7b% verbatim %\x7da\x7b% endverbatim\n%\x7d".toList.drop 14) =
        some (1, 18) ∧
      Token.scan "\x7b% verbatim %\x7da\x7b% endverbatim\n%\x7d".toList =
        [⟨.tag, ⟨0, 14⟩⟩, ⟨.text, ⟨14, 1⟩⟩, ⟨.text, ⟨15, 15⟩⟩, ⟨.text, ⟨30, 2⟩⟩] ∧
      compile "\x7b% verbatim %\x7da\x7b% endverbatim\n%\x7d".toList [] =
        .error (.here (.missingEndTag "verbatim" "endverbatim") ⟨0, 14⟩) := by
  have hscan : Token.scan "\x7b% verbatim %\x7da\x7b% endverbatim\n%\x7d".toList =
        [⟨.tag, ⟨0, 14⟩⟩, ⟨.text, ⟨14, 1⟩⟩, ⟨.text, ⟨15, 15⟩⟩, ⟨.text, ⟨30, 2⟩⟩] := by decide +kernel
  refine ⟨by decide +kernel, hscan, ?_⟩
  rw [compile, hscan]
  rfl

end Galley
