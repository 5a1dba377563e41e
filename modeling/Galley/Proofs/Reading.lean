import Galley.Compile.Tag
import Galley.Proofs.Chain
import Galley.Proofs.Placement
import Galley.Proofs.Words

/-!
# What a reader makes of words

A `Reader` turns the words of variables and tags into expressions, conditions, loop headers and
calls. Words that stand in the text become these, which stand there too, or an error that is proper.

* `Condition.within_combine`: places that are joined from two.
* `Reader.settles_atom`, `Reader.settles_chain`, `Reader.settles_expression`: expressions.
* `Reader.settles_condition`, `Reader.settles_loopHeader`, `Reader.settles_routeCall`: the tags that
  are always there.
* `Reader.settles_tagCall`: the tags of libraries.
-/

namespace Galley

open Cursor

variable {source : List Char} {span tag parts : Span}

theorem settles_literalText {text : List Char} (h : isLiteral text) :
    Settles source (fun _ => True) (literalText text) := by
  unfold literalText
  rw [if_pos h]
  trivial

/-! ## Conditions -/

namespace Condition

variable {α : Type} {tokens done : List (ConditionToken α)} {token : ConditionToken α}

/-- Joining a word to the operator before it does not leave the text, and what is joined starts no
later than the word. -/
theorem within_combineStep
    (hdone : ∀ t ∈ done, t.span.Within source ∧ t.span.start ≤ token.span.start)
    (htoken : token.span.Within source) :
    ∀ t ∈ combineStep source done token, t.span.Within source ∧ t.span.start ≤ token.span.start := by
  have hlast := And.intro htoken (Nat.le_refl token.span.start)
  unfold combineStep
  split
  · exact List.forall_mem_cons.2 ⟨hlast, hdone⟩
  · dsimp only
    split
    · split
      · next previous rest =>
        obtain ⟨⟨-, hstart⟩, hrest⟩ := List.forall_mem_cons.1 hdone
        split
        · exact List.forall_mem_cons.2 ⟨⟨Span.within_through hstart htoken, hstart⟩, hrest⟩
        · exact List.forall_mem_cons.2 ⟨hlast, hdone⟩
      · exact List.forall_mem_cons.2 ⟨hlast, List.forall_mem_nil _⟩
    · exact List.forall_mem_cons.2 ⟨hlast, hdone⟩

/-- **Joining the words of a condition** in their order does not leave the text. -/
theorem within_combine (h : ∀ t ∈ tokens, t.span.Within source)
    (hordered : tokens.Pairwise (·.span.start < ·.span.start)) :
    ∀ t ∈ combine source tokens, t.span.Within source := by
  -- what is joined starts before all words that are left
  have key : ∀ (done : List (ConditionToken α)), (∀ t ∈ done, t.span.Within source) →
      (∀ t ∈ done, ∀ t' ∈ tokens, t.span.start ≤ t'.span.start) →
      ∀ t ∈ tokens.foldl (combineStep source) done, t.span.Within source := by
    induction tokens with
    | nil => exact fun _ hdone _ => hdone
    | cons token rest ih =>
      intro done hdone hbefore
      obtain ⟨htoken, hrest⟩ := List.forall_mem_cons.1 h
      obtain ⟨hfirst, hordered⟩ := List.pairwise_cons.1 hordered
      have hstep := within_combineStep (fun t ht => ⟨hdone t ht, hbefore t ht token List.mem_cons_self⟩)
        htoken
      refine ih hrest hordered _ (fun t ht => (hstep t ht).1) fun t ht t' ht' => ?_
      exact Nat.le_trans (hstep t ht).2 (Nat.le_of_lt (hfirst t' ht'))
  intro t ht
  exact key [] (List.forall_mem_nil _) (fun _ h => nomatch h) t (List.mem_reverse.1 ht)

/-- The tree is built from the tokens, and an error is reported at one of them. -/
theorem settles_parseFrom {waiting : List (Pending α)} {operand : Option (Condition α)} {last : Span}
    (hlast : last.Within source) (h : ∀ t ∈ tokens, t.span.Within source) :
    Settles source (fun _ => True) (parseFrom source waiting operand last tokens) := by
  -- what is missing at the end is reported at the last token
  induction tokens generalizing waiting operand last with
  | nil =>
    unfold parseFrom
    split
    · exact settles_syntactic hlast rfl (List.forall_mem_nil _)
    · trivial
  | cons token rest ih =>
    obtain ⟨htoken, hrest⟩ := List.forall_mem_cons.1 h
    unfold parseFrom
    split
    · exact ih htoken hrest
    · split
      · exact ih htoken hrest
      · exact settles_syntactic htoken rfl (List.forall_mem_nil _)
    · exact settles_syntactic htoken rfl (List.forall_mem_nil _)
    · split
      · exact settles_syntactic htoken rfl (List.forall_mem_nil _)
      · exact ih htoken hrest

theorem settles_parse (htag : tag.Within source) (h : ∀ t ∈ tokens, t.span.Within source) :
    Settles source (fun _ => True) (parse source tag tokens) := by
  unfold parse
  split
  · exact settles_syntactic htag rfl (List.forall_mem_nil _)
  · exact settles_parseFrom htag h

end Condition

namespace Reader

variable {r : Reader} {o : Operand}

/-! ## Expressions -/

theorem settles_number (h : span.Within r.source) :
    Settles r.source (fun a => a.StandsIn r.source ∧ a.span = span) (r.number span) := by
  unfold number
  dsimp only
  split
  · exact settles_pure ⟨⟨h, Nat.zero_le _⟩, rfl⟩
  · split
    · exact settles_pure ⟨⟨h, Nat.zero_le _⟩, rfl⟩
    · exact settles_syntactic h rfl (List.forall_mem_nil _)

theorem span_path (r : Reader) (span : Span) : (r.path span).span = span := by
  unfold path
  split
  · rfl
  · split <;> rfl

/-- **An operand is an atom** that starts where it does, or at the text of a literal, which is
there. -/
theorem settles_atom (h : o.StandsIn r.source) :
    Settles r.source (fun a => a.StandsIn r.source ∧ o.span.start ≤ a.span.start) (r.atom o) := by
  have hwithin := h.within
  unfold atom
  split
  · next hk =>
    refine (settles_number hwithin).mono fun a ⟨ha, hspan⟩ => ⟨ha, ?_⟩
    exact Nat.le_of_eq (congrArg Span.start hspan.symm)
  · next hk =>
    obtain ⟨hliteral, hlen⟩ := h.text hk
    refine (settles_literalText hliteral).bind fun _ _ =>
      settles_pure ⟨⟨?_, Nat.zero_le _⟩, Nat.le_add_right _ _⟩
    simp only [Atom.span, Operand.inner, OperandKind.inner, hk, OperandKind.opening,
      OperandKind.closing, Span.Within, Span.stop] at hwithin ⊢
    omega
  · next hk =>
    obtain ⟨hliteral, hlen⟩ := h.translated hk
    refine (settles_literalText hliteral).bind fun _ _ =>
      settles_pure ⟨⟨?_, Nat.zero_le _⟩, Nat.le_add_right _ _⟩
    simp only [Atom.span, Operand.inner, OperandKind.inner, hk, OperandKind.opening,
      OperandKind.closing, Span.Within, Span.stop] at hwithin ⊢
    omega
  · refine settles_pure ⟨standsIn_path hwithin, ?_⟩
    exact Nat.le_of_eq (congrArg Span.start (span_path r o.span).symm)

theorem settles_filter (h : span.Within r.source) :
    Settles r.source (fun _ => True) (r.filter span) := by
  unfold filter
  dsimp only
  repeat' split
  · trivial
  · trivial
  · exact settles_syntactic h rfl (List.forall_mem_nil _)

theorem settles_checkArity {filter : Filter} {argument : Option Atom} (h : span.Within source)
    (ha : ∀ a, argument = some a → a.span.Within source) :
    Settles source (fun _ => True) (checkArity filter span argument) := by
  unfold checkArity
  split
  · exact settles_syntactic h rfl (List.forall_mem_nil _)
  · next a _ => exact settles_syntactic (ha a rfl) rfl (List.forall_mem_nil _)
  · trivial

theorem settles_filterUse {word : FilterWord} (h : word.StandsIn r.source) :
    Settles r.source (fun use => use.StandsIn r.source ∧ use.span = word.name)
      (r.filterUse word) := by
  -- the filter is looked up when its argument was read
  have hrest : ∀ argument : Option Atom, (∀ a, argument = some a → a.StandsIn r.source) →
      Settles r.source (fun use => use.StandsIn r.source ∧ use.span = word.name) (do
        let filter ← r.filter word.name
        checkArity filter word.name argument
        return (⟨word.name, filter, argument⟩ : FilterUse)) := by
    intro argument ha
    refine (settles_filter h.name).bind fun filter _ => ?_
    refine (settles_checkArity h.name fun a hsome => (ha a hsome).within).bind fun _ _ => ?_
    exact settles_pure ⟨⟨h.name, ha⟩, rfl⟩
  unfold filterUse
  dsimp only
  split
  · exact hrest none (by intro a ha; cases ha)
  · next operand ho =>
    have hargument : Settles r.source (fun a? => ∀ a, a? = some a → a.StandsIn r.source)
        ((r.atom operand).map some) := by
      refine (settles_atom (h.argument operand ho)).map fun a ha a' ha' => ?_
      cases ha'
      exact ha.1
    exact hargument.bind hrest

/-- **An atom with its filters**, read from a part of the text. -/
theorem settles_chain {content : List Char} {start : Nat}
    (h : (⟨start, content⟩ : Cursor).Reads r.source) (hspan : span.Within r.source) :
    Settles r.source (fun e => e.StandsIn r.source ∧ start ≤ e.span.start)
      (r.chain content span start) := by
  unfold chain
  refine (Chain.settles_read h).bind fun chain? hchain => ?_
  split
  · exact settles_syntactic hspan rfl (List.forall_mem_nil _)
  · next head filters =>
    obtain ⟨hhead, hfilters, hstart, hbehind⟩ := hchain head filters rfl
    refine (settles_atom hhead).bind fun a ⟨ha, hle⟩ => ?_
    have hwords := Chain.sound_filterStep.readAll hfilters
    have hstarts : (readAll Chain.filterStep filters).Sound r.source
        fun word => word.StandsIn r.source ∧ start ≤ word.name.start :=
      ⟨fun word hword => ⟨hwords.words word hword,
        Nat.le_trans hbehind (Chain.start_le_of_mem_words hfilters word hword)⟩, hwords.error⟩
    have huses := hstarts.mapM (f := r.filterUse)
      (Q := fun use => use.StandsIn r.source ∧ start ≤ use.span.start) fun word ⟨hword, hn⟩ =>
        (settles_filterUse hword).mono fun use ⟨huse, hspan⟩ => ⟨huse, hspan ▸ hn⟩
    refine huses.bind fun uses hall => settles_pure ⟨⟨ha, fun use huse => (hall use huse).1⟩, ?_⟩
    exact Expression.start_le_span (Nat.le_trans hstart hle) fun use huse => (hall use huse).2

/-- **The expression that an operand of a tag is** starts where the operand does, or behind. -/
theorem settles_expression (h : o.StandsIn r.source) :
    Settles r.source (fun e => e.StandsIn r.source ∧ o.span.start ≤ e.span.start)
      (r.expression o) := by
  unfold expression
  split
  · exact settles_chain (reads_ofSpan h.within) h.within
  · exact (settles_atom h).bind fun a ⟨ha, hle⟩ => settles_pure ⟨⟨ha, List.forall_mem_nil _⟩, hle⟩

/-! ## Tags that are always there -/

theorem settles_conditionToken {word : ConditionWord} (h : word.StandsIn r.source) :
    Settles r.source (fun t => t.span.Within r.source) (r.conditionToken word) := by
  cases word with
  | comparison operator span => exact settles_pure h
  | operand o => exact (settles_expression h).bind fun _ _ => settles_pure h.within

theorem span_of_conditionToken {word : ConditionWord} {t : ConditionToken Expression}
    (h : r.conditionToken word = .ok t) : t.span = word.span := by
  cases word with
  | comparison operator span =>
    cases h
    rfl
  | operand o =>
    obtain ⟨e, -, h⟩ := bind_eq_ok.1 h
    cases h
    rfl

/-- **The condition** of a tag whose words stand in the text. -/
theorem settles_condition (htag : tag.Within r.source) (h : parts.Within r.source) :
    Settles r.source (fun _ => True) (r.condition tag parts) := by
  have htokens := (ConditionWord.sound_all h).mapM fun word hword => settles_conditionToken hword
  unfold condition
  refine settles_bind_of_eq htokens fun tokens hwithin hmade => ?_
  have hstarts : tokens.map (·.span.start) =
      (ConditionWord.all r.source parts).words.map (·.span.start) :=
    map_eq_of_mapM (Words.mapM_words hmade) fun _ _ ht =>
      congrArg Span.start (span_of_conditionToken ht)
  -- operands and signs keep their places, and so they are in the order of the words
  have hordered : tokens.Pairwise (·.span.start < ·.span.start) := by
    have hwords : ((ConditionWord.all r.source parts).words.map (·.span.start)).Pairwise (· < ·) :=
      List.pairwise_map.2 ((ConditionWord.ordered_all h).2.imp fun hbefore => hbefore.1)
    rw [← hstarts] at hwords
    exact List.pairwise_map.1 hwords
  exact Condition.settles_parse htag (Condition.within_combine hwithin hordered)

theorem settles_checkLoopNames {previous : Option Span} {names : List Span}
    (hp : ∀ s, previous = some s → s.Within r.source) (h : ∀ s ∈ names, s.Within r.source) :
    Settles r.source (fun _ => True) (r.checkLoopNames previous names) := by
  induction names generalizing previous with
  | nil => trivial
  | cons name rest ih =>
    obtain ⟨hname, hrest⟩ := List.forall_mem_cons.1 h
    unfold checkLoopNames
    split
    · split
      · next s => exact settles_syntactic (hp s rfl) rfl (List.forall_mem_nil _)
      · exact settles_syntactic hname rfl (List.forall_mem_nil _)
    · refine ih (fun s hs => ?_) hrest
      cases hs
      exact hname

/-- **The header of a loop.** -/
theorem settles_loopHeader (htag : tag.Within r.source) (h : parts.Within r.source) :
    Settles r.source (·.StandsIn r.source) (r.loopHeader tag parts) := by
  have hnames := LoopReader.sound_names (LoopReader.sound_ofParts h)
  have hkeyword := LoopReader.settles_keyword hnames.2
  have hiterable := LoopReader.settles_iterable hkeyword.2
  have hdirection := LoopReader.settles_direction hiterable.2
  -- the four readers take turns on the header, but what they refuse is reported in another order
  unfold loopHeader
  dsimp only
  refine (settles_checkLoopNames (by intro s hs; cases hs) hnames.1.words).bind fun _ _ => ?_
  refine settles_bind_of_eq hnames.1.toExcept fun words hwithin hwords => ?_
  split
  · exact settles_syntactic htag rfl (List.forall_mem_nil _)
  · next first others =>
    have hfirst := congrArg Words.words (Words.eq_of_toExcept hwords)
    obtain ⟨hplace, hbefore⟩ := LoopReader.before_names hfirst hwithin
    refine hkeyword.1.bind fun _ _ => ?_
    refine hiterable.1.bind fun o ⟨ho, hstart⟩ => ?_
    refine hdirection.bind fun _ _ => ?_
    split
    · exact settles_syntactic ho.within rfl (List.forall_mem_nil _)
    · refine (settles_expression ho).bind fun e ⟨he, hle⟩ => settles_pure ⟨hplace, he, ?_⟩
      -- the word `in` stands between the names and the expression
      refine (hbefore.mono LoopReader.start_le_keyword).mono ?_
      rw [← hstart]
      exact hle

/-- What is left of the arguments without their target are the first of them. -/
theorem splitTarget_sublist (r : Reader) (words : List CallWord) :
    (r.splitTarget words).1.Sublist words := by
  unfold splitTarget
  split
  · next target keyword rest hr =>
    split
    · have hwords : words = rest.reverse ++ [keyword, target] := by
        rw [← List.reverse_reverse words, hr]
        simp
      rw [hwords]
      exact List.sublist_append_left _ _
    · exact List.Sublist.refl _
  · exact List.Sublist.refl _

theorem settles_argument {w : CallWord} (h : w.StandsIn r.source) :
    Settles r.source (·.2.StandsIn r.source) (r.argument w) :=
  (settles_expression h.operand).bind fun _ he => settles_pure he.1

/-- **The route** of a tag. -/
theorem settles_routeCall (htag : tag.Within r.source) (h : parts.Within r.source) :
    Settles r.source (·.StandsIn r.source) (r.routeCall tag parts) := by
  unfold routeCall
  refine (CallWord.settles_all h).bind fun words hwords => ?_
  split
  · exact settles_syntactic htag rfl (List.forall_mem_nil _)
  · next first rest =>
    obtain ⟨hfirst, hrest⟩ := List.forall_mem_cons.1 hwords.1
    split
    · exact settles_syntactic hfirst.operand.within rfl (List.forall_mem_nil _)
    · refine (settles_expression hfirst.operand).bind fun route hroute => ?_
      dsimp only
      have harguments : ∀ w ∈ (r.splitTarget rest).1,
          Settles r.source (·.2.StandsIn r.source) (r.argument w) :=
        fun w hw => settles_argument (hrest w ((r.splitTarget_sublist rest).subset hw))
      refine (settles_mapM harguments).bind fun arguments hall => ?_
      split
      · exact settles_syntactic htag rfl (List.forall_mem_nil _)
      · refine settles_pure ⟨hroute.1, fun e he => ?_, fun entry hentry => ?_⟩
        · obtain ⟨⟨name?, e'⟩, hmem, hsome⟩ := List.mem_filterMap.1 he
          cases name? with
          | none =>
            cases hsome
            exact hall _ hmem
          | some name => cases hsome
        · obtain ⟨⟨name?, e'⟩, hmem, hsome⟩ := List.mem_filterMap.1 hentry
          cases name? with
          | none => cases hsome
          | some name =>
            cases hsome
            exact hall _ hmem

/-! ## Tags of libraries -/

/-- The arguments checked so far stand in the text. -/
structure Checked.StandsIn (c : Checked) (source : List Char) : Prop where
  positional : ∀ e ∈ c.positional, e.StandsIn source
  keyword : ∀ entry ∈ c.keyword, entry.2.StandsIn source
  spans : ∀ entry ∈ c.keywordSpans, entry.2.Within source

/-- **One more argument** is checked or refused at its place, which is behind those that were
checked before. -/
theorem settles_checkArgument (name : String) (s : Signature) {c : Checked} {w : CallWord}
    (hc : c.StandsIn r.source) (hbefore : ∀ entry ∈ c.keywordSpans, entry.2.Before w.span.start)
    (h : w.StandsIn r.source) :
    Settles r.source (fun c' => c'.StandsIn r.source ∧
      ∀ entry ∈ c'.keywordSpans, entry ∈ c.keywordSpans ∨ entry.2 = w.span)
      (r.checkArgument name s c w) := by
  unfold checkArgument
  refine (settles_expression h.operand).bind fun e ⟨he, _⟩ => ?_
  split
  · next keywordSpan hk =>
    have hspan : w.span = keywordSpan.through w.operand.span := by simp only [CallWord.span, hk]
    have hwithin := Span.within_through (h.ordered keywordSpan hk) h.operand.within
    rw [hspan] at hbefore ⊢
    dsimp only
    split
    · exact settles_syntactic hwithin rfl (List.forall_mem_nil _)
    · split
      · -- an argument that is named twice: the first one stands before the second
        next first hfirst =>
        have hentry := mem_of_lookup_eq_some hfirst
        exact settles_syntactic hwithin rfl
          (List.forall_mem_singleton.2 ⟨hc.spans _ hentry, .inl (hbefore _ hentry)⟩)
      · refine settles_pure ⟨⟨hc.positional, fun entry hentry => ?_, fun entry hentry => ?_⟩,
          fun entry hentry => ?_⟩
        · rcases List.mem_append.1 hentry with hentry | hentry
          · exact hc.keyword entry hentry
          · cases List.mem_singleton.1 hentry
            exact he
        · rcases List.mem_append.1 hentry with hentry | hentry
          · exact hc.spans entry hentry
          · cases List.mem_singleton.1 hentry
            exact hwithin
        · rcases List.mem_append.1 hentry with hentry | hentry
          · exact .inl hentry
          · cases List.mem_singleton.1 hentry
            exact .inr rfl
  · next hk =>
    have hspan : w.span = w.operand.span := by simp only [CallWord.span, hk]
    rw [hspan] at hbefore
    split
    · next last hlast =>
      have hentry := List.mem_of_getLast? hlast
      exact settles_syntactic h.operand.within rfl
        (List.forall_mem_singleton.2 ⟨hc.spans _ hentry, .inl (hbefore _ hentry)⟩)
    · split
      · exact settles_syntactic h.operand.within rfl (List.forall_mem_nil _)
      · refine settles_pure ⟨⟨fun e' hmem => ?_, hc.keyword, hc.spans⟩, fun _ => .inl⟩
        rcases List.mem_append.1 hmem with hmem | hmem
        · exact hc.positional e' hmem
        · cases List.mem_singleton.1 hmem
          exact he

/-- **All arguments** are checked one after the other. -/
theorem settles_checkArguments {name : String} {s : Signature} {words : List CallWord} {c : Checked}
    (hc : c.StandsIn r.source) (hnone : c.keywordSpans = [])
    (h : ∀ w ∈ words, w.StandsIn r.source)
    (hordered : words.Pairwise fun v w => v.span.Before w.span.start) :
    Settles r.source (·.StandsIn r.source) (words.foldlM (r.checkArgument name s) c) := by
  -- the named arguments so far stand before those that are left
  let P (c : Checked) (rest : List CallWord) : Prop :=
    c.StandsIn r.source ∧ (∀ entry ∈ c.keywordSpans, ∀ w ∈ rest, entry.2.Before w.span.start) ∧
      (∀ w ∈ rest, w.StandsIn r.source) ∧ rest.Pairwise fun v w => v.span.Before w.span.start
  have hrun : Settles r.source (P · []) (words.foldlM (r.checkArgument name s) c) := by
    refine settles_foldlM_rest ⟨hc, by rw [hnone]; nofun, h, hordered⟩
      fun c w rest ⟨hc, hbefore, hwords, hpairs⟩ => ?_
    obtain ⟨hw, hrest⟩ := List.forall_mem_cons.1 hwords
    obtain ⟨hfirst, hpairs⟩ := List.pairwise_cons.1 hpairs
    have hstep := settles_checkArgument name s hc
      (fun entry hentry => hbefore entry hentry w List.mem_cons_self) hw
    refine hstep.mono fun c' ⟨hc', hspans⟩ => ⟨hc', fun entry hentry w' hw' => ?_, hrest, hpairs⟩
    rcases hspans entry hentry with hold | hnew
    · exact hbefore entry hold w' (List.mem_cons_of_mem _ hw')
    · rw [hnew]
      exact hfirst w' hw'
  exact hrun.mono fun _ hchecked => hchecked.1

/-- **The call of a function.** -/
theorem settles_functionCall {name : String} {f : Function} {takesScope : Bool} {loaded : Span}
    (hloaded : loaded.Within r.source) (h : parts.Within r.source) :
    Settles r.source (·.StandsIn r.source) (r.functionCall name f takesScope loaded parts) := by
  unfold functionCall
  split
  · exact settles_syntactic hloaded rfl (List.forall_mem_nil _)
  · refine (CallWord.settles_all h).bind fun words ⟨hwords, hordered⟩ => ?_
    dsimp only
    have hsub := r.splitTarget_sublist words
    have hnone (params keywords : List String) : Checked.StandsIn
        { openParams := params, openKeywords := keywords } r.source := ⟨nofun, nofun, nofun⟩
    refine (settles_checkArguments (hnone _ _) rfl (fun w hw => hwords w (hsub.subset hw))
      (hordered.sublist hsub)).bind fun checked hchecked => ?_
    split
    · exact settles_syntactic h rfl (List.forall_mem_nil _)
    · exact settles_pure ⟨hchecked.positional, hchecked.keyword⟩

/-- **The call of a loaded tag.** -/
theorem settles_tagCall {loadedTag : LoadedTag} {loaded : Span} (hloaded : loaded.Within r.source)
    (htag : tag.Within r.source) (h : parts.Within r.source) :
    Settles r.source (·.StandsIn r.source) (r.tagCall loadedTag loaded tag parts) := by
  unfold tagCall
  split
  · exact settles_syntactic htag rfl (List.forall_mem_nil _)
  · exact settles_functionCall hloaded h

end Reader

end Galley
