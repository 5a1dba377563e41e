import Galley.Proofs.Bodies

/-!
# The latest load of a name

All `load` tags before a place have brought something in, whatever blocks they stand in. A compiler knows
exactly this, the latest first, so that a name means what was brought in last under it.

* `Latest`, `lookup_latest`: **the latest of what was brought in** under a name.
* `broughtBy`: what tokens bring in that are read.
* `Compiler.wasBrought_run`, `Compiler.lookup_run`: what a compiler knows that has read them.
* `Binds`, `Compiler.filter_eq_ok_iff`: **the filter that a name means.**
-/

namespace Galley

/-! ## What was brought in last -/

section Latest

variable {β : Type} {kind : Offer → Option (String × β)} {offers : List Offer} {name : String} {b : β}

/-- **The latest** of its kind that was brought in under a name. -/
def Latest (kind : Offer → Option (String × β)) (offers : List Offer) (name : String) (b : β) : Prop :=
  ∃ before o after, offers = before ++ o :: after ∧ kind o = some (name, b) ∧
    ∀ later ∈ after, ∀ b', kind later ≠ some (name, b')

theorem latest_nil : ¬ Latest kind [] name b := by
  rintro ⟨before, o, after, h, -⟩
  exact List.append_ne_nil_of_right_ne_nil before (List.cons_ne_nil o after) h.symm

/-- What comes last is the latest, and hides what it has the name of. -/
theorem latest_concat (o : Offer) : Latest kind (offers ++ [o]) name b ↔
    kind o = some (name, b) ∨ (∀ b', kind o ≠ some (name, b')) ∧ Latest kind offers name b := by
  constructor
  · rintro ⟨before, first, after, hsplit, hkind, hafter⟩
    rcases List.eq_nil_or_concat' after with rfl | ⟨after, last, rfl⟩
    · obtain ⟨-, hlast⟩ := List.append_inj' hsplit rfl
      obtain rfl := (List.cons.inj hlast).1
      exact .inl hkind
    · rw [← List.cons_append, ← List.append_assoc] at hsplit
      obtain ⟨rfl, hlast⟩ := List.append_inj' hsplit rfl
      obtain rfl := (List.cons.inj hlast).1
      refine .inr ⟨hafter o (List.mem_append_right _ List.mem_cons_self), before, first, after, rfl,
        hkind, fun later hlater => hafter later (List.mem_append_left _ hlater)⟩
  · rintro (hkind | ⟨hnot, before, first, after, rfl, hkind, hafter⟩)
    · exact ⟨offers, o, [], rfl, hkind, List.forall_mem_nil _⟩
    · refine ⟨before, first, after ++ [o], List.append_assoc _ _ _, hkind, fun later hlater => ?_⟩
      rcases List.mem_append.1 hlater with hlater | hlater
      · exact hafter later hlater
      · rw [List.mem_singleton.1 hlater]
        exact hnot

/-- **The first that is found is the latest** that was brought in. -/
theorem lookup_latest : (offers.filterMap kind).reverse.lookup name = some b ↔
    Latest kind offers name b := by
  induction offers using List.reverseRecOn with
  | nil => exact iff_of_false (Option.some_ne_none b ∘ Eq.symm) latest_nil
  | append_singleton offers o ih =>
    rw [latest_concat, ← ih, List.filterMap_append, List.reverse_append]
    cases hkind : kind o with
    | none =>
      rw [List.filterMap_cons_none hkind]
      simp
    | some entry =>
      obtain ⟨name', b'⟩ := entry
      rw [List.filterMap_cons_some hkind]
      by_cases hname : name = name'
      · subst hname
        simp
      · have hne : (name == name') = false := beq_eq_false_iff_ne.2 hname
        simp [List.lookup_cons, hne, Ne.symm hname]

end Latest

/-! ## What tokens bring in -/

/-- The parts of a tag; one that has no name has none. -/
def Token.parts (source : List Char) (t : Token) : Span :=
  match TagWords.read? (t.content source) (t.span.start + 2) with
  | .ok (some words) => words.parts
  | _ => default

/-- **What tokens bring in** that are read one after the other: that of the `load` tags. In a verbatim
block there are none, and the tag that ends it is no `load` tag. -/
def broughtBy (source : List Char) (libraries : List (String × Library)) :
    (inVerbatim : Bool) → List Token → List Offer
  | _, [] => []
  | inVerbatim, t :: rest =>
    if t.kind ≠ .tag then broughtBy source libraries inVerbatim rest
    else if inVerbatim then broughtBy source libraries false rest
    else if t.name source = "load" then
      offersOf source libraries (t.parts source) ++ broughtBy source libraries false rest
    else broughtBy source libraries (t.name source = "verbatim") rest

namespace Compiler

variable {c c' : Compiler} {source : List Char} {libraries : List (String × Library)} {t : Token}
  {tokens : List Token} {offers more : List Offer} {name : String} {parts : Span}

theorem Tagged.parts_eq (h : c.Tagged t name parts) (hs : c.source = source) :
    t.parts source = parts := by
  subst hs
  obtain ⟨words, hwords, -, rfl⟩ := h.words
  unfold Token.parts
  rw [hwords]

/-- A compiler **was brought** something, apart from what it has read. -/
def WasBrought (c : Compiler) (offers : List Offer) (c' : Compiler) : Prop :=
  ∃ frames outer verbatim, c' = { (c.accept offers).moved frames outer with verbatim }

/-- A token **brings** something in before others. -/
def BringsIn (source : List Char) (libraries : List (String × Library)) (c : Compiler) (t : Token)
    (c' : Compiler) : Prop :=
  ∃ offers, c.WasBrought offers c' ∧ ∀ rest, broughtBy source libraries c.verbatim.isSome (t :: rest) =
    offers ++ broughtBy source libraries c'.verbatim.isSome rest

/-- Nothing is brought in by a token that is no tag. -/
theorem bringsIn_of_ne_tag (hk : t.kind ≠ .tag) (frames : List Frame) (outer : List Node)
    {verbatim : Option Verbatim} (hv : verbatim.isSome = c.verbatim.isSome) :
    BringsIn source libraries c t { c.moved frames outer with verbatim } := by
  refine ⟨[], ⟨frames, outer, verbatim, rfl⟩, fun rest => ?_⟩
  rw [broughtBy, if_pos hk, List.nil_append, ← hv]

/-- Nor by another tag. -/
theorem bringsIn_of_tagged (hs : c.source = source) (hv : c.verbatim = none)
    (ht : c.Tagged t name parts) (hload : name ≠ "load") (hverbatim : name ≠ "verbatim")
    (frames : List Frame) (outer : List Node) :
    BringsIn source libraries c t (c.moved frames outer) := by
  refine ⟨[], ⟨frames, outer, none, by rw [← hv]; rfl⟩, fun rest => ?_⟩
  have hn := ht.name_eq hs
  have hmoved : (c.moved frames outer).verbatim = none := hv
  rw [broughtBy, if_neg (not_not_intro ht.kind), hv, hmoved, hn, if_neg hload, decide_eq_false hverbatim]
  rfl

/-- Adding a node moves a compiler to other parts. -/
theorem exists_moved_add (c : Compiler) (node : Node) :
    ∃ frames outer, c.add node = c.moved frames outer := by
  obtain ⟨frames, outer, -, hmoved⟩ := exists_moved_addAll [node] c.frames c.nodes
  exact ⟨frames, outer, hmoved c⟩

theorem exists_moved_addChain (c : Compiler) (branches : List Branch) (otherwise : List Node) :
    ∃ frames outer, c.addChain branches otherwise = c.moved frames outer := by
  obtain ⟨frames, outer, -, hmoved⟩ := exists_moved_addAll (chainOf branches otherwise) c.frames c.nodes
  exact ⟨frames, outer, hmoved c⟩

/-- **One token** outside of verbatim blocks. -/
theorem bringsIn_of_takes (hs : c.source = source) (hl : c.libraries = libraries)
    (hv : c.verbatim = none) (h : c.Takes t c') : BringsIn source libraries c t c' := by
  have hkind (d : Compiler) (hd : ∃ frames outer, d = c.moved frames outer) (hk : t.kind ≠ .tag) :
      BringsIn source libraries c t d := by
    obtain ⟨frames, outer, rfl⟩ := hd
    exact bringsIn_of_ne_tag hk frames outer rfl
  have htagged {name : String} {parts : Span} (d : Compiler)
      (hd : ∃ frames outer, d = c.moved frames outer) (ht : c.Tagged t name parts)
      (hnot : name ∉ ["load", "verbatim"]) : BringsIn source libraries c t d := by
    obtain ⟨frames, outer, rfl⟩ := hd
    simp only [List.mem_cons, List.not_mem_nil, or_false, not_or] at hnot
    exact bringsIn_of_tagged hs hv ht hnot.1 hnot.2 frames outer
  cases h with
  | text hk => exact hkind _ (exists_moved_add c _) (by rw [hk]; decide)
  | comment hk => exact hkind _ ⟨c.frames, c.nodes, rfl⟩ (by rw [hk]; decide)
  | output hk _ => exact hkind _ (exists_moved_add c _) (by rw [hk]; decide)
  | autoescape ht _ => exact htagged _ ⟨_, c.nodes, rfl⟩ ht (by decide)
  | loop ht _ => exact htagged _ ⟨_, c.nodes, rfl⟩ ht (by decide)
  | choice ht _ => exact htagged _ ⟨_, c.nodes, rfl⟩ ht (by decide)
  | @load parts _ ht hload =>
    subst hs hl
    obtain ⟨frames, outer, hadd⟩ := exists_moved_add (c.accept (offersOf c.source c.libraries parts))
      (.load t.span)
    rw [eq_accept_of_load hload, hadd]
    refine ⟨_, ⟨frames, outer, none, by rw [← hv]; rfl⟩, fun rest => ?_⟩
    have hmoved : ((c.accept (offersOf c.source c.libraries parts)).moved frames outer).verbatim =
        none := hv
    rw [broughtBy, if_neg (not_not_intro ht.kind), hv, hmoved, if_pos (ht.name_eq rfl), ht.parts_eq rfl]
    rfl
  | route ht _ => exact htagged _ (exists_moved_add c _) ht (by decide)
  | verbatim ht _ =>
    refine ⟨[], ⟨c.frames, c.nodes, _, rfl⟩, fun rest => ?_⟩
    rw [broughtBy, if_neg (not_not_intro ht.kind), hv, ht.name_eq hs]
    rfl
  | call ht hnew _ _ _ =>
    refine htagged _ (exists_moved_add c _) ht fun hmem => hnew ?_
    have hsub : ["load", "verbatim"] ⊆ tagNames := by decide
    exact hsub hmem
  | elif ht _ _ => exact htagged _ ⟨_, c.nodes, rfl⟩ ht (by decide)
  | otherwise ht _ => exact htagged _ ⟨_, c.nodes, rfl⟩ ht (by decide)
  | endBranch ht _ => exact htagged _ (exists_moved_addChain _ _ _) ht (by decide)
  | endOtherwise ht _ => exact htagged _ (exists_moved_addChain _ _ _) ht (by decide)
  | empty ht _ => exact htagged _ ⟨_, c.nodes, rfl⟩ ht (by decide)
  | endLoop ht _ => exact htagged _ (exists_moved_add _ _) ht (by decide)
  | endEmpty ht _ => exact htagged _ (exists_moved_add _ _) ht (by decide)
  | endAutoescape ht _ => exact htagged _ (exists_moved_add _ _) ht (by decide)

/-- **One token,** in a verbatim block or not. -/
theorem bringsIn_of_step (hs : c.source = source) (hl : c.libraries = libraries)
    (h : c.step t = .ok c') : BringsIn source libraries c t c' := by
  cases hv : c.verbatim with
  | none => exact bringsIn_of_takes hs hl hv (takes_of_step hv h)
  | some block =>
    by_cases hk : t.kind = .tag
    · rw [step_endsVerbatim hv hk] at h
      cases h
      obtain ⟨frames, outer, hadd⟩ := exists_moved_add { c with verbatim := none }
        (.text block.span (String.ofList block.text))
      rw [hadd]
      refine ⟨[], ⟨frames, outer, none, rfl⟩, fun rest => ?_⟩
      rw [broughtBy, if_neg (not_not_intro hk), hv]
      rfl
    · rw [step_insideVerbatim hv hk] at h
      cases h
      exact bringsIn_of_ne_tag hk c.frames c.nodes (by rw [hv]; rfl)

/-- **All tokens:** a compiler was brought what they bring in. -/
theorem wasBrought_run (hs : c.source = source) (hl : c.libraries = libraries)
    (h : tokens.foldlM step c = .ok c') :
    c.WasBrought (broughtBy source libraries c.verbatim.isSome tokens) c' := by
  induction tokens generalizing c with
  | nil =>
    cases h
    exact ⟨_, _, _, rfl⟩
  | cons t rest ih =>
    rw [List.foldlM_cons, bind_eq_ok] at h
    obtain ⟨next, hnext, h⟩ := h
    obtain ⟨offers, ⟨frames, outer, verbatim, hfirst⟩, hall⟩ := bringsIn_of_step hs hl hnext
    have hs' : next.source = source := by
      rw [hfirst]
      exact hs
    have hl' : next.libraries = libraries := by
      rw [hfirst]
      exact hl
    obtain ⟨frames', outer', verbatim', hlast⟩ := ih hs' hl' h
    -- what the first token brings in lies behind all that comes later
    rw [hall]
    refine ⟨frames', outer', verbatim', hlast.trans ?_⟩
    generalize broughtBy source libraries next.verbatim.isSome rest = more
    rw [accept_append, hfirst]
    rfl

/-- **What is known** to a compiler that has read the beginning of a template: what was brought in last
is found first. -/
theorem lookup_run (h : tokens.foldlM step { source, libraries } = .ok c) (name : String) :
    (∀ f, c.filters.lookup name = some f ↔
      Latest Offer.filter? (broughtBy source libraries false tokens) name f) ∧
    ∀ b, c.tags.lookup name = some b ↔
      Latest Offer.tag? (broughtBy source libraries false tokens) name b := by
  obtain ⟨frames, outer, verbatim, rfl⟩ := wasBrought_run rfl rfl h
  refine ⟨fun f => ?_, fun b => ?_⟩
  · rw [← lookup_latest]
    change (_ ++ []).lookup name = _ ↔ _
    rw [List.append_nil]
    rfl
  · rw [← lookup_latest]
    change (_ ++ []).lookup name = _ ↔ _
    rw [List.append_nil]
    rfl

end Compiler

/-! ## What a filter name means -/

/-- **The filter that a name means:** the latest that was brought in under it, and else the one that is
always there. -/
inductive Binds (offers : List Offer) (name : String) : Filter → Prop
  | loaded {f : Function} (h : Latest Offer.filter? offers name f) : Binds offers name (.loaded name f)
  | builtin {b : BuiltinFilter} (h : ∀ f, ¬ Latest Offer.filter? offers name f)
    (hb : BuiltinFilter.ofWord? name = some b) : Binds offers name (.builtin b)

theorem Compiler.filter_eq_ok_iff {source : List Char} {libraries : List (String × Library)}
    {tokens : List Token} {c : Compiler} (h : tokens.foldlM step { source, libraries } = .ok c)
    (place : Span) (f : Filter) : c.reader.filter place = .ok f ↔
      Binds (broughtBy source libraries false tokens) (c.reader.textAt place) f := by
  have hlookup := (lookup_run h (c.reader.textAt place)).1
  have hfilters : c.reader.filters = c.filters := rfl
  unfold Reader.filter
  dsimp only
  rw [hfilters]
  cases hfound : c.filters.lookup (c.reader.textAt place) with
  | some g =>
    have hlatest := (hlookup g).1 hfound
    constructor
    · intro hf
      cases hf
      exact .loaded hlatest
    · rintro (⟨h⟩ | ⟨hnot, -⟩)
      · cases hfound.symm.trans ((hlookup _).2 h)
        rfl
      · exact absurd hlatest (hnot g)
  | none =>
    have hnot (g : Function) : ¬ Latest Offer.filter? _ _ g := fun hlatest => by
      cases hfound.symm.trans ((hlookup g).2 hlatest)
    cases hword : BuiltinFilter.ofWord? (c.reader.textAt place) with
    | some b =>
      constructor
      · intro hf
        cases hf
        exact .builtin hnot hword
      · rintro (⟨h⟩ | ⟨-, hb⟩)
        · exact absurd h (hnot _)
        · cases hword.symm.trans hb
          rfl
    | none =>
      refine ⟨nofun, ?_⟩
      rintro (⟨h⟩ | ⟨-, hb⟩)
      · exact absurd h (hnot _)
      · cases hword.symm.trans hb

end Galley
