import Galley.Proofs.Latest
import Galley.Proofs.Recovery
import Galley.Proofs.TagPieces

/-!
# The names that a template uses

Filter names stand in the outputs and in the operands of tags; the tags of libraries are named by
themselves. What a name means is settled where it stands: by what was loaded before it in the text.

* `Chain.filterWords`, `Compiler.HasOperand`, `Compiler.NamesFilter`: **the filter names in a token.**
* `Reader.mapM_filterUse_of_expression`: the filters of an expression are those that are named.
* `Compiler.exists_finds_of_operand`: what is made of the operands of a tag.
* `Compiler.Finds.exists_word`: the filters of what is found in a token are named inside it.
* `bound_to_latest`: **names are bound to what was loaded last before them.**
-/

namespace Galley

/-! ## The filters that are written -/

/-- The filters that are written behind a value. -/
def Chain.filterWords (content : List Char) (start : Nat) : List FilterWord :=
  match Chain.read? content start with
  | .ok (some (_, filters)) => (Cursor.readAll Chain.filterStep filters).words
  | _ => []

namespace Reader

variable {r : Reader} {e : Expression} {o : Operand} {word : FilterWord} {use : FilterUse}
  {content source : List Char} {whole : Span} {start : Nat}

/-- The filters that are written in an operand: only a path has some. -/
def filterWords (r : Reader) (o : Operand) : List FilterWord :=
  match o.kind with
  | .path => Chain.filterWords (o.span.slice r.source) o.span.start
  | _ => []

/-- The filters of a chain are those that are written. -/
theorem mapM_filterUse_of_chain (h : r.chain content whole start = .ok e) :
    (Chain.filterWords content start).mapM r.filterUse = .ok e.filters := by
  unfold chain at h
  obtain ⟨chain?, hchain, h⟩ := bind_eq_ok.1 h
  cases chain? with
  | none => cases h
  | some read =>
    obtain ⟨head, -, h⟩ := bind_eq_ok.1 h
    obtain ⟨uses, huses, h⟩ := bind_eq_ok.1 h
    cases h
    unfold Chain.filterWords
    rw [hchain]
    exact Cursor.Words.mapM_words huses

/-- **The filters of an expression** are those that are written in its operand. -/
theorem mapM_filterUse_of_expression (h : r.expression o = .ok e) :
    (r.filterWords o).mapM r.filterUse = .ok e.filters := by
  unfold expression at h
  unfold filterWords
  cases hk : o.kind with
  | path =>
    rw [hk] at h
    exact mapM_filterUse_of_chain h
  | numeric | text | translated =>
    rw [hk] at h
    obtain ⟨a, -, h⟩ := bind_eq_ok.1 h
    cases h
    rfl

/-- A filter is looked up under the name that is written. -/
theorem filter_of_filterUse (h : r.filterUse word = .ok use) :
    use.span = word.name ∧ r.filter word.name = .ok use.filter := by
  unfold filterUse at h
  dsimp only at h
  split at h
  all_goals
    obtain ⟨_, -, h⟩ := bind_eq_ok.1 h
    obtain ⟨filter, hfilter, h⟩ := bind_eq_ok.1 h
    obtain ⟨_, -, h⟩ := bind_eq_ok.1 h
    cases h
    exact ⟨rfl, hfilter⟩

/-- Names of filters stand between the ends of what they are read from. -/
theorem inside_of_mem_filterWords (h : (⟨start, content⟩ : Cursor).Reads source)
    (hword : word ∈ Chain.filterWords content start) :
    word.name.Inside ⟨start, content.length⟩ := by
  unfold Chain.filterWords at hword
  split at hword
  · next head filters hread =>
    have hplace {source : List Char} (h : (⟨start, content⟩ : Cursor).Reads source) :=
      ((Chain.settles_read h).of_ok hread) head filters rfl
    obtain ⟨-, hfilters, -, hstart⟩ := hplace h
    obtain ⟨-, hcut, -, -⟩ := hplace h.cut
    have hstands := (Chain.sound_filterStep.readAll hcut).words word hword
    exact ⟨Nat.le_trans hstart (Chain.start_le_of_mem_words hfilters word hword),
      Span.stop_le_of_within_take hstands.name⟩
  · cases hword

theorem inside_operand (h : o.span.Within r.source) (hword : word ∈ r.filterWords o) :
    word.name.Inside o.span := by
  unfold filterWords at hword
  split at hword
  · have hinside := inside_of_mem_filterWords (Cursor.reads_ofSpan h) hword
    rwa [Span.length_slice_of_within h] at hinside
  · cases hword

end Reader

namespace Compiler

variable {c c' : Compiler} {t : Token} {e : Expression} {o : Operand} {name : String} {parts place : Span}

/-- **The operands of a tag** that is read. -/
inductive HasOperand (c : Compiler) (t : Token) (o : Operand) : Prop
  | condition {name : String} {parts : Span} (ht : c.Tagged t name parts)
    (hname : name = "if" ∨ name = "elif" ∧ c.awaits name) (ho : o ∈ c.reader.conditionOperands parts)
  | loop {parts : Span} (ht : c.Tagged t "for" parts) (ho : o ∈ c.reader.loopOperands parts)
  | route {parts : Span} (ht : c.Tagged t "url" parts) (ho : o ∈ c.reader.routeOperands parts)
  | call {name : String} {parts : Span} (ht : c.Tagged t name parts) (hnew : name ∉ tagNames)
    (hnot : c.awaits name = false) (ho : o ∈ c.reader.callOperands parts)

/-- **A filter name in a token:** in an output, or in an operand of a tag. -/
inductive NamesFilter (c : Compiler) (t : Token) (place : Span) : Prop
  | output {word : FilterWord} (hk : t.kind = .interpolation)
    (hword : word ∈ Chain.filterWords (t.content c.source) (t.span.start + 2))
    (hplace : word.name = place) : NamesFilter c t place
  | operand {o : Operand} {word : FilterWord} (ho : c.HasOperand t o)
    (hword : word ∈ c.reader.filterWords o) (hplace : word.name = place) : NamesFilter c t place

/-! ## What is made of tags -/

/-- **Each operand of a tag** becomes an expression that is found in it. -/
theorem exists_finds_of_operand (hv : c.verbatim = none) (ho : c.HasOperand t o)
    (h : c.step t = .ok c') : ∃ e, c.reader.expression o = .ok e ∧ c.Finds t e := by
  cases ho with
  | @condition name parts ht hname ho =>
    obtain ⟨made, hmade⟩ := exists_condition_of_step hv ht hname h
    obtain ⟨e, he, hmem⟩ := (Reader.makes_condition hmade).each o ho
    exact ⟨e, he, .condition ht (hname.imp_right And.left) hmade hmem⟩
  | loop ht ho =>
    obtain ⟨header, hheader, -⟩ := bind_eq_ok.1 (openTag_of_step hv ht (awaits_eq_false (by decide)) h)
    obtain ⟨e, he, rfl⟩ := (Reader.makes_loopHeader hheader).each o ho
    exact ⟨_, he, .iterable ht hheader⟩
  | route ht ho =>
    obtain ⟨call, hcall, -⟩ := bind_eq_ok.1 (openTag_of_step hv ht (awaits_eq_false (by decide)) h)
    obtain ⟨e, he, hmem⟩ := (Reader.makes_routeCall hcall).each o ho
    exact ⟨e, he, .route ht hcall hmem⟩
  | call ht hnew hnot ho =>
    rw [step_libraryTag hv ht hnew hnot] at h
    split at h
    · next tag loaded hl =>
      obtain ⟨call, hcall, -⟩ := bind_eq_ok.1 h
      obtain ⟨e, he, hmem⟩ := (Reader.makes_tagCall hcall).each o ho
      exact ⟨e, he, .call ht hl hcall hmem⟩
    · cases h

end Compiler

/-! ## Where names stand -/

/-- The parts of a tag stand between the ends of its content. -/
theorem TagWords.inside_of_read {content : List Char} {start : Nat} {words : TagWords}
    (hread : read? content start = .ok (some words)) :
    words.parts.Inside ⟨start, content.length⟩ := by
  obtain ⟨p, rfl, -, rfl⟩ := exists_pieces hread
  refine ⟨?_, ?_⟩ <;>
    simp only [TagPieces.partsSpan, TagPieces.wordSpan, TagPieces.text, TagPieces.core, Span.stop,
      List.length_append] <;>
    omega

/-- The content of a token stands between its delimiters. -/
theorem Token.inside_of_mem_scan {source : List Char} {t : Token} (ht : t ∈ Token.scan source)
    (hk : t.kind ≠ .text) :
    (⟨t.span.start + 2, (t.content source).length⟩ : Span).Inside t.span := by
  obtain ⟨hlen, hcontent⟩ := Token.scan_content source ht hk
  have hle : (t.content source).length ≤ t.span.length - 4 := by
    rw [hcontent]
    exact List.length_take_le _ _
  refine ⟨Nat.le_add_right _ _, ?_⟩
  simp only [Span.stop]
  omega

namespace Compiler

variable {source : List Char} {c : Compiler} {t : Token} {e : Expression} {name : String} {parts : Span}

theorem Tagged.inside (h : c.Tagged t name parts) (hs : c.source = source)
    (ht : t ∈ Token.scan source) : parts.Inside t.span := by
  subst hs
  have hk : t.kind ≠ .text := by
    rw [h.kind]
    decide
  obtain ⟨words, hwords, -, rfl⟩ := h.words
  have hinside := TagWords.inside_of_read hwords
  exact hinside.trans (Token.inside_of_mem_scan ht hk)

/-- **The filters of what is found in a token** are named inside of it. -/
theorem Finds.exists_word (h : c.Finds t e) (hs : c.source = source) (ht : t ∈ Token.scan source)
    {use : FilterUse} (huse : use ∈ e.filters) :
    use.span.Inside t.span ∧ c.reader.filter use.span = .ok use.filter := by
  subst hs
  have hword {words : List FilterWord} (hmade : words.mapM c.reader.filterUse = .ok e.filters)
      (hin : ∀ word ∈ words, word.name.Inside t.span) :
      use.span.Inside t.span ∧ c.reader.filter use.span = .ok use.filter := by
    obtain ⟨word, hmem, hword⟩ := exists_of_mem_mapM hmade huse
    obtain ⟨hspan, hfilter⟩ := Reader.filter_of_filterUse hword
    rw [hspan]
    exact ⟨hin word hmem, hfilter⟩
  rcases h.chain_or_made with ⟨hk, he⟩ | ⟨name, parts, operands, P, htag, hmakes, hin, hmade⟩
  · refine hword (Reader.mapM_filterUse_of_chain he) fun word hmem => ?_
    have hinside := Reader.inside_of_mem_filterWords (Token.reads_content ht hk) hmem
    exact hinside.trans (Token.inside_of_mem_scan ht hk)
  · obtain ⟨o, ho, he⟩ := hmakes.only e hmade
    have hparts := htag.parts_within (Token.standsIn_of_mem_scan ht)
    obtain ⟨hstands, hinside⟩ := hin hparts o ho
    refine hword (Reader.mapM_filterUse_of_expression he) fun word hmem => ?_
    exact ((Reader.inside_operand hstands.within hmem).trans hinside).trans (htag.inside rfl ht)

/-- **Each filter that is named in a token** is one of an expression that is found in it. -/
theorem exists_use_of_namesFilter {c' : Compiler} {place : Span} (hv : c.verbatim = none)
    (hnames : c.NamesFilter t place) (h : c.step t = .ok c') :
    ∃ e use, c.Finds t e ∧ use ∈ e.filters ∧ use.span = place ∧
      c.reader.filter place = .ok use.filter := by
  have hused {e : Expression} {words : List FilterWord} {word : FilterWord} (hfinds : c.Finds t e)
      (hmade : words.mapM c.reader.filterUse = .ok e.filters) (hmem : word ∈ words) :
      ∃ e use, c.Finds t e ∧ use ∈ e.filters ∧ use.span = word.name ∧
        c.reader.filter word.name = .ok use.filter := by
    obtain ⟨use, huse, hword⟩ := exists_of_mem_of_mapM hmade hmem
    obtain ⟨hspan, hfilter⟩ := Reader.filter_of_filterUse hword
    exact ⟨e, use, hfinds, huse, hspan, hfilter⟩
  cases hnames with
  | output hk hword hplace =>
    subst hplace
    rw [step_output hv hk] at h
    obtain ⟨e, he, -⟩ := output_eq_ok_iff.1 h
    exact hused (.output hk he) (Reader.mapM_filterUse_of_chain he) hword
  | operand ho hword hplace =>
    subst hplace
    obtain ⟨e, he, hfinds⟩ := exists_finds_of_operand hv ho h
    exact hused hfinds (Reader.mapM_filterUse_of_expression he) hword

end Compiler

/-! ## Bindings -/

open Compiler

variable {source : List Char} {libraries : List (String × Library)}

/-- **A filter is bound where it stands:** by what is brought in before the token that it stands in. -/
def BoundAt (source : List Char) (libraries : List (String × Library)) (use : FilterUse) : Prop :=
  ∃ before t after, Token.scan source = before ++ t :: after ∧ use.span.Inside t.span ∧
    Binds (broughtBy source libraries false before) (use.span.text source) use.filter

/-- What goes wrong at a token goes wrong in the template. -/
theorem exists_error_of_step {before after : List Token} {t : Token} {c : Compiler} {e : TemplateError}
    (hscan : Token.scan source = before ++ t :: after)
    (hrun : before.foldlM step { source, libraries } = .ok c) (h : c.step t = .error e) :
    compile source libraries = .error e := by
  rw [compile, hscan, List.foldlM_append, hrun]
  change ((t :: after).foldlM step c >>= finish) = _
  rw [List.foldlM_cons, h]
  rfl

/-- **Names are bound to what was loaded last before them** in the text, whatever blocks they stand in. A
filter is the latest that was brought in under its name, and else the one that is always there; a tag that
is not always there and not awaited is the latest of its name, with the place of the word that brought it
in. A template that uses a name that nothing was brought in for by then is not compiled, and this does not
depend on what is brought in later. What comes from one library has the names that are listed. -/
theorem bound_to_latest (source : List Char) (libraries : List (String × Library)) :
    (∀ nodes, compile source libraries = .ok nodes →
      AllHold (fun _ e => ∀ use ∈ e.filters, BoundAt source libraries use) [] nodes) ∧
    (∀ before t after c, Token.scan source = before ++ t :: after →
      before.foldlM step { source, libraries } = .ok c → c.verbatim = none →
      let brought := broughtBy source libraries false before
      (∀ place, c.NamesFilter t place →
        (∀ c', c.step t = .ok c' → ∃ e use, c.Finds t e ∧ use ∈ e.filters ∧ use.span = place ∧
          Binds brought (place.text source) use.filter) ∧
        ((∀ f, ¬ Binds brought (place.text source) f) → ∃ e, compile source libraries = .error e)) ∧
      ∀ name parts, c.Tagged t name parts → name ∉ tagNames → c.awaits name = false →
        (∀ tag word, Latest Offer.tag? brought name (tag, word) → c.step t = do
          return c.add (.call t.span (← c.reader.tagCall tag word t.span parts))) ∧
        ((∀ tag word, ¬ Latest Offer.tag? brought name (tag, word)) →
          ∃ e, compile source libraries = .error e)) ∧
    ∀ parts members library,
      membersFrom? source (LoadWord.all source parts) = some (members, library) →
      ∀ o ∈ offersOf source libraries parts, ∃ word ∈ members, o.name = word.text source := by
  have hsource {before after : List Token} {t : Token} {c : Compiler}
      (hscan : Token.scan source = before ++ t :: after)
      (hrun : before.foldlM step { source, libraries } = .ok c) : c.source = source :=
    (Reached.sound ⟨before, after, hscan, hrun⟩).source_eq
  refine ⟨fun nodes h => allHold_of_finds (fun c t e hreached he use huse => ?_) h, ?_,
    fun parts members library hfrom o ho => exists_member_of_mem hfrom ho⟩
  · obtain ⟨before, after, hscan, hrun⟩ := hreached
    have hs := hsource hscan hrun
    have ht : t ∈ Token.scan source := by
      rw [hscan]
      exact List.mem_append_right _ List.mem_cons_self
    obtain ⟨hinside, hfilter⟩ := he.exists_word hs ht huse
    have hbinds := (filter_eq_ok_iff hrun use.span use.filter).1 hfilter
    subst hs
    exact ⟨before, t, after, hscan, hinside, hbinds⟩
  · intro before t after c hscan hrun hv brought
    have hs := hsource hscan hrun
    -- a token that is refused ends the text, whatever is loaded behind it
    have hfails (h : ∀ c', c.step t ≠ .ok c') : ∃ e, compile source libraries = .error e := by
      cases hstep : c.step t with
      | error e => exact ⟨e, exists_error_of_step hscan hrun hstep⟩
      | ok c' => exact absurd hstep (h c')
    refine ⟨fun place hnames => ?_, fun name parts ht hnew hnot => ?_⟩
    · have hbound (c' : Compiler) (hstep : c.step t = .ok c') : ∃ e use, c.Finds t e ∧
          use ∈ e.filters ∧ use.span = place ∧ Binds brought (place.text source) use.filter := by
        obtain ⟨e, use, hfinds, huse, hspan, hfilter⟩ := exists_use_of_namesFilter hv hnames hstep
        have hbinds := (filter_eq_ok_iff hrun place use.filter).1 hfilter
        subst hs
        exact ⟨e, use, hfinds, huse, hspan, hbinds⟩
      refine ⟨hbound, fun hnone => hfails fun c' hstep => ?_⟩
      obtain ⟨e, use, -, -, -, hbinds⟩ := hbound c' hstep
      exact hnone _ hbinds
    · have hlookup := (lookup_run hrun name).2
      have hstep := step_libraryTag hv ht hnew hnot
      refine ⟨fun tag word hlatest => ?_, fun hnone => hfails fun c' hok => ?_⟩
      · rw [hstep, (hlookup (tag, word)).2 hlatest]
      · cases hfound : c.tags.lookup name with
        | none =>
          rw [hstep, hfound] at hok
          cases hok
        | some b => exact hnone b.1 b.2 ((hlookup b).1 hfound)

/-- A filter that answers the same to all values. -/
def constantFilter (name : String) (answer : Int) : Function :=
  { name, signature := { params := ["value"] }, action := .compute fun _ => .ok (.int answer) }

/-- Two libraries that have the same filter. -/
def twoLibraries : List (String × Library) :=
  [("a", { filters := [("f", constantFilter "first" 1)] }),
    ("b", { filters := [("f", constantFilter "second" 2)] })]

/-- A filter that is loaded twice is the second one, also behind the block that it was loaded in. -/
theorem bound_to_latest_inside :
    let source := "{% load a %}{% if x %}{% load f from b %}{% endif %}{{ y|f }}".toList
    let use : FilterUse := ⟨⟨57, 1⟩, .loaded "f" (constantFilter "second" 2), none⟩
    ∃ nodes, compile source twoLibraries =
        .ok (nodes ++ [.output ⟨52, 9⟩ ⟨.path ⟨55, 1⟩ "y" [], [use]⟩]) ∧
      BoundAt source twoLibraries use := by
  have hscan : Token.scan "{% load a %}{% if x %}{% load f from b %}{% endif %}{{ y|f }}".toList =
      [⟨.tag, ⟨0, 12⟩⟩, ⟨.tag, ⟨12, 10⟩⟩, ⟨.tag, ⟨22, 19⟩⟩, ⟨.tag, ⟨41, 11⟩⟩,
        ⟨.interpolation, ⟨52, 9⟩⟩] := by
    decide +kernel
  have hnodes : compile "{% load a %}{% if x %}{% load f from b %}{% endif %}{{ y|f }}".toList
      twoLibraries = .ok
        ([.load ⟨0, 12⟩, .choice ⟨12, 10⟩ (.operand ⟨.path ⟨18, 1⟩ "x" [], []⟩) [.load ⟨22, 19⟩] []] ++
          [.output ⟨52, 9⟩ ⟨.path ⟨55, 1⟩ "y" [],
            [⟨⟨57, 1⟩, .loaded "f" (constantFilter "second" 2), none⟩]⟩]) := by
    rw [compile, hscan]
    rfl
  obtain ⟨hall, -, -⟩ := bound_to_latest
    "{% load a %}{% if x %}{% load f from b %}{% endif %}{{ y|f }}".toList twoLibraries
  obtain ⟨-, -, hlast, -⟩ := hall _ hnodes
  exact ⟨_, hnodes, hlast _ List.mem_cons_self⟩

end Galley
