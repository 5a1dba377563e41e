import Galley.Proofs.Nesting

/-!
# What stands in a part of a block

Tokens that leave nothing open are read in the same way in every part that awaits the same names, under
the same number of loops. They add the same nodes there, load the same filters and tags, and touch nothing
around the part; and so a block is read in the same way wherever it stands.

* `Compiler.moved`, `AlikeWithin`: a compiler among other parts, and parts that make no difference.
* `Compiler.Reads`: **the nodes that a compiler reads** from tokens, among whatever parts.
* `Compiler.Opens`: the part that the beginning of a block leaves open.
* `Compiler.reads_single`, `Compiler.opens_first`, `Compiler.next_or_ends_of_step`: one token.
* `Completed.exists_reads`, `Begun.exists_opens`: all tokens that leave nothing open, and all beginnings.
-/

namespace Galley

/-! ## Other surroundings -/

/-- **Parts that make no difference** to what is read in them: the innermost one awaits the same names, and
as many of them are loops. -/
structure AlikeWithin (parts parts' : List Part) : Prop where
  awaited : parts'.head?.map Part.awaited = parts.head?.map Part.awaited
  depth : parts'.countP Part.isLoop = parts.countP Part.isLoop

theorem AlikeWithin.refl (parts : List Part) : AlikeWithin parts parts := ⟨rfl, rfl⟩

theorem AlikeWithin.symm {parts parts' : List Part} (h : AlikeWithin parts parts') :
    AlikeWithin parts' parts :=
  ⟨h.awaited.symm, h.depth.symm⟩

theorem AlikeWithin.trans {parts parts' parts'' : List Part} (h : AlikeWithin parts parts')
    (h' : AlikeWithin parts' parts'') : AlikeWithin parts parts'' :=
  ⟨h'.awaited.trans h.awaited, h'.depth.trans h.depth⟩

/-- The same part among them makes none either. -/
theorem AlikeWithin.cons {parts parts' : List Part} (h : AlikeWithin parts parts') (part : Part) :
    AlikeWithin (part :: parts) (part :: parts') :=
  ⟨rfl, by rw [List.countP_cons, List.countP_cons, h.depth]⟩

/-- The parts of frames. -/
def frameParts (frames : List Frame) : List Part := frames.map (·.part)

namespace Compiler

/-- A compiler **among other parts,** with other nodes outside of all blocks. -/
def moved (c : Compiler) (frames : List Frame) (outer : List Node) : Compiler :=
  { c with frames, nodes := outer }

variable {c d e c' : Compiler} {source : List Char} {tokens more : List Token} {t : Token}
  {nodes others : List Node} {frames : List Frame} {outer : List Node} {name : String} {parts : Span}

/-- It reads expressions in the same way if the parts make no difference. -/
theorem reader_moved (h : AlikeWithin c.openParts (frameParts frames)) (outer : List Node) :
    (c.moved frames outer).reader = c.reader := by
  have hcount (frames : List Frame) :
      frames.countP (·.part.isLoop) = (frames.map (·.part)).countP Part.isLoop := by
    rw [List.countP_map]
    rfl
  have hdepth := h.depth
  unfold openParts frameParts at hdepth
  simp only [reader, moved, hcount, hdepth]

/-- The names that the innermost part awaits. -/
def awaitedNames (c : Compiler) : List String := (c.openParts.head?.map Part.awaited).getD []

theorem awaits_eq_contains (c : Compiler) (name : String) :
    c.awaits name = c.awaitedNames.contains name := by
  unfold awaits awaitedNames openParts
  cases c.frames <;> rfl

theorem awaitedNames_moved (h : AlikeWithin c.openParts (frameParts frames)) (outer : List Node) :
    (c.moved frames outer).awaitedNames = c.awaitedNames :=
  congrArg (fun awaited => awaited.getD []) h.awaited

/-- It awaits the same names. -/
theorem awaits_moved (h : AlikeWithin c.openParts (frameParts frames)) (outer : List Node) (name : String) :
    (c.moved frames outer).awaits name = c.awaits name := by
  rw [awaits_eq_contains, awaits_eq_contains, awaitedNames_moved h]

/-- A token is the same tag for it. -/
theorem Tagged.moved (h : c.Tagged t name parts) (frames : List Frame) (outer : List Node) :
    (c.moved frames outer).Tagged t name parts := ⟨h.kind, h.words⟩

/-- **Adding nodes** changes the innermost part only, or what is outside of all blocks. -/
theorem exists_moved_addAll (nodes : List Node) (frames : List Frame) (outer : List Node) :
    ∃ frames' outer', AlikeWithin (frameParts frames) (frameParts frames') ∧
      ∀ c : Compiler, nodes.foldl add (c.moved frames outer) = c.moved frames' outer' := by
  cases frames with
  | nil => exact ⟨[], nodes.reverse ++ outer, .refl _, fun _ => foldl_add_of_nil rfl nodes⟩
  | cons frame frames =>
    exact ⟨⟨frame.part, nodes.reverse ++ frame.nodes⟩ :: frames, outer, .refl _,
      fun _ => foldl_add_of_frames rfl nodes⟩

/-! ## Reading -/

/-- A compiler **has loaded** more than another one, and differs in nothing else. -/
def LoadsMore (c d : Compiler) : Prop := ∃ filters tags, d = { c with filters, tags }

theorem LoadsMore.trans (h : c.LoadsMore d) (h' : d.LoadsMore e) : c.LoadsMore e := by
  obtain ⟨_, _, rfl⟩ := h
  obtain ⟨_, _, rfl⟩ := h'
  exact ⟨_, _, rfl⟩

/-- **A compiler reads nodes** from tokens and has loaded more then: among all parts that make no
difference it adds these nodes to the innermost one, and that is all. -/
structure Reads (c : Compiler) (tokens : List Token) (nodes : List Node) (d : Compiler) : Prop where
  loaded : c.LoadsMore d
  run : ∀ frames outer, AlikeWithin c.openParts (frameParts frames) →
    tokens.foldlM step (c.moved frames outer) = .ok (nodes.foldl add (d.moved frames outer))

/-- **A compiler opens a part** by tokens and has loaded more then: among all parts that make no difference
the new one is the innermost. -/
structure Opens (c : Compiler) (tokens : List Token) (frame : Frame) (d : Compiler) : Prop where
  loaded : c.LoadsMore d
  run : ∀ frames outer, AlikeWithin c.openParts (frameParts frames) →
    tokens.foldlM step (c.moved frames outer) = .ok (d.moved (frame :: frames) outer)

namespace Reads

/-- What is read where the compiler stands. -/
theorem run_self (h : c.Reads tokens nodes d) : tokens.foldlM step c = .ok (nodes.foldl add d) := by
  obtain ⟨_, _, rfl⟩ := h.loaded
  exact h.run c.frames c.nodes (.refl _)

/-- What is read among other parts is read here. -/
theorem of_moved (hparts : AlikeWithin c.openParts (frameParts frames))
    (h : (c.moved frames outer).Reads tokens nodes d) :
    c.Reads tokens nodes (d.moved c.frames c.nodes) := by
  have hrun := h.run
  obtain ⟨filters, tags, rfl⟩ := h.loaded
  exact ⟨⟨filters, tags, rfl⟩, fun frames' outer' h' => hrun frames' outer' (hparts.symm.trans h')⟩

/-- What follows is read among the same parts. -/
theorem append (h : c.Reads tokens nodes d) (h' : d.Reads more others e) :
    c.Reads (tokens ++ more) (nodes ++ others) e := by
  refine ⟨h.loaded.trans h'.loaded, fun frames outer hparts => ?_⟩
  obtain ⟨frames', outer', halike, hmoved⟩ := exists_moved_addAll nodes frames outer
  have hd : d.openParts = c.openParts := by
    obtain ⟨_, _, rfl⟩ := h.loaded
    rfl
  have hnext := h'.run frames' outer' (hd ▸ hparts.trans halike)
  have hlast : nodes.foldl add (e.moved frames outer) = e.moved frames' outer' := hmoved e
  rw [List.foldlM_append, h.run frames outer hparts, List.foldl_append, hlast, ← hnext, hmoved d]
  rfl

end Reads

theorem Opens.of_moved {frame : Frame} (hparts : AlikeWithin c.openParts (frameParts frames))
    (h : (c.moved frames outer).Opens tokens frame d) :
    c.Opens tokens frame (d.moved c.frames c.nodes) := by
  have hrun := h.run
  obtain ⟨filters, tags, rfl⟩ := h.loaded
  exact ⟨⟨filters, tags, rfl⟩, fun frames' outer' h' => hrun frames' outer' (hparts.symm.trans h')⟩

/-! ## One token -/

theorem foldlM_singleton (t : Token) (c : Compiler) : [t].foldlM step c = c.step t := by
  rw [List.foldlM_cons]
  rcases c.step t with _ | _ <;> rfl

/-- A token that adds a node, wherever. -/
theorem reads_add {node : Node} (hd : c.LoadsMore d)
    (h : ∀ frames outer, AlikeWithin c.openParts (frameParts frames) →
      (c.moved frames outer).Takes t ((d.moved frames outer).add node)) (hv : c.verbatim = none) :
    c.Reads [t] [node] d :=
  ⟨hd, fun frames outer hparts =>
    (foldlM_singleton t _).trans (step_of_takes hv (h frames outer hparts))⟩

/-- **A token that opens and closes nothing** is read to at most one node. -/
theorem reads_single (hs : c.source = source) (hv : c.verbatim = none)
    (ht : t.kind = .tag → c.awaits (t.name source) = false ∧
      t.name source ∉ "verbatim" :: blockNames) (h : c.step t = .ok c') :
    ∃ nodes d, c.Reads [t] nodes d := by
  have hself : c.LoadsMore c := ⟨_, _, rfl⟩
  have hopens {name : String} {parts : Span} (htag : c.Tagged t name parts)
      (hname : name ∈ "verbatim" :: blockNames) : ∃ nodes d, c.Reads [t] nodes d :=
    absurd hname (htag.name_eq hs ▸ (ht htag.kind).2)
  have hcloses {name : String} {parts : Span} (htag : c.Tagged t name parts)
      (hawaits : c.awaits name = true) : ∃ nodes d, c.Reads [t] nodes d := by
    have hnot := (ht htag.kind).1
    rw [htag.name_eq hs, hawaits] at hnot
    cases hnot
  cases takes_of_step hv h with
  | text hk =>
    refine ⟨[.text t.span (String.ofList (t.content c.source))], c, reads_add hself ?_ hv⟩
    exact fun frames outer _ => .text (c := c.moved frames outer) hk
  | comment hk =>
    exact ⟨[], c, hself, fun _ _ _ => (foldlM_singleton t _).trans (step_of_takes hv (.comment hk))⟩
  | @output e hk he =>
    refine ⟨[outputNode t.span e], c, reads_add hself (fun frames outer hparts => .output hk ?_) hv⟩
    rw [reader_moved hparts]
    exact he
  | @load parts _ htag hl =>
    let loaded := c.accept (offersOf c.source c.libraries parts)
    have hmore : c.LoadsMore loaded := ⟨_, _, rfl⟩
    refine ⟨[.load t.span], loaded, reads_add hmore (fun frames outer _ => ?_) hv⟩
    have hload : (c.moved frames outer).load parts = .ok (loaded.moved frames outer) := by
      rcases brings_load c.source c.libraries parts with hok | ⟨e, herror⟩
      · exact hok (c.moved frames outer) rfl rfl
      · cases hl.symm.trans (herror c rfl rfl)
    exact .load (htag.moved frames outer) hload
  | @route _ call htag hc =>
    refine ⟨[.route t.span call], c, reads_add hself (fun frames outer hparts => ?_) hv⟩
    refine .route (htag.moved frames outer) ?_
    rw [reader_moved hparts]
    exact hc
  | @call _ _ _ _ call htag hnew hnot hl hc =>
    refine ⟨[.call t.span call], c, reads_add hself (fun frames outer hparts => ?_) hv⟩
    refine .call (htag.moved frames outer) hnew ?_ hl ?_
    · rw [awaits_moved hparts]
      exact hnot
    · rw [reader_moved hparts]
      exact hc
  | autoescape htag _ | loop htag _ | choice htag _ | verbatim htag _ => exact hopens htag (by decide)
  | elif htag hf _ | otherwise htag hf | endBranch htag hf | endOtherwise htag hf | empty htag hf
  | endLoop htag hf | endEmpty htag hf | endAutoescape htag hf =>
    refine hcloses htag ?_
    rw [awaits, hf]
    rfl

/-- **The tag that opens a block.** -/
theorem opens_first (hs : c.source = source) (hv : c.verbatim = none)
    (hname : t.name source ∈ blockNames) (h : c.step t = .ok c') (hk : t.kind = .tag) :
    ∃ frame, c.Opens [t] frame c ∧ frame.part.awaited = (OpenTag.mk (t.name source) t.span).awaited := by
  have hself : c.LoadsMore c := ⟨_, _, rfl⟩
  have hopen {part : Part} (h : ∀ frames outer, AlikeWithin c.openParts (frameParts frames) →
      (c.moved frames outer).Takes t ((c.moved frames outer).enter part)) : c.Opens [t] ⟨part, []⟩ c :=
    ⟨hself, fun frames outer hparts =>
      (foldlM_singleton t _).trans (step_of_takes hv (h frames outer hparts))⟩
  have hother {name : String} {parts : Span} {P : Prop} (htag : c.Tagged t name parts)
      (hnot : name ∉ blockNames) : P := absurd (htag.name_eq hs ▸ hname) hnot
  cases takes_of_step hv h with
  | autoescape htag hswitch =>
    refine ⟨_, hopen fun frames outer _ => .autoescape (htag.moved frames outer) hswitch, ?_⟩
    rw [htag.name_eq hs]
    rfl
  | @loop _ header htag hh =>
    refine ⟨⟨.loop t.span header, []⟩, hopen fun frames outer hparts =>
      .loop (htag.moved frames outer) ?_, ?_⟩
    · rw [reader_moved hparts]
      exact hh
    · rw [htag.name_eq hs]
      rfl
  | @choice _ condition htag hc =>
    refine ⟨⟨.branch [] "if" t.span condition, []⟩, hopen fun frames outer hparts =>
      .choice (htag.moved frames outer) ?_, ?_⟩
    · rw [reader_moved hparts]
      exact hc
    · rw [htag.name_eq hs]
      rfl
  | text hk' | comment hk' | output hk' _ => cases hk.symm.trans hk'
  | load htag _ | route htag _ | verbatim htag _ => exact hother htag (by decide)
  | call htag hnew _ _ _ =>
    have hsub : blockNames ⊆ tagNames := by decide
    exact hother htag fun hmem => hnew (hsub hmem)
  | elif htag _ _ | otherwise htag _ | endBranch htag _ | endOtherwise htag _ | empty htag _
  | endLoop htag _ | endEmpty htag _ | endAutoescape htag _ => exact hother htag (by decide)

/-- **A tag that the innermost part awaits** opens the next part of its block, or ends the block and adds
its nodes to what is around it. -/
theorem next_or_ends_of_step {frame : Frame} {rest : List Frame} (hs : c.source = source)
    (hv : c.verbatim = none) (hf : c.frames = frame :: rest) (hk : t.kind = .tag)
    (hname : t.name source ∈ frame.part.awaited) (h : c.step t = .ok c') :
    (Awaited.opened (t.name source) ≠ [] ∧ ∃ part : Part,
      part.awaited = (OpenTag.mk (t.name source) t.span).awaited ∧
      ∀ frames outer, AlikeWithin (frameParts rest) (frameParts frames) →
        (c.moved (frame :: frames) outer).step t = .ok (c.moved (⟨part, []⟩ :: frames) outer)) ∨
    (Awaited.opened (t.name source) = [] ∧ ∃ nodes : List Node,
      ∀ frames outer, AlikeWithin (frameParts rest) (frameParts frames) →
        (c.moved (frame :: frames) outer).step t = .ok (nodes.foldl add (c.moved frames outer))) := by
  have hawaits : c.awaits (t.name source) = true := by
    rw [awaits, hf]
    exact List.contains_iff_mem.2 hname
  have hnever {name : String} {parts : Span} {P : Prop} (htag : c.Tagged t name parts)
      (hnot : c.awaits name = false) : P := by
    rw [htag.name_eq hs, hnot] at hawaits
    cases hawaits
  cases takes_of_step hv h with
  | text hk' | comment hk' | output hk' _ => cases hk.symm.trans hk'
  | autoescape htag _ | loop htag _ | choice htag _ | load htag _ | route htag _ | verbatim htag _ =>
    exact hnever htag (awaits_eq_false (by decide))
  | call htag _ hnot _ _ => exact hnever htag hnot
  | @elif parts tag earlier _ condition condition' nodes rest htag hf' hc =>
    obtain ⟨rfl, rfl⟩ := List.cons.inj (hf.symm.trans hf')
    rw [htag.name_eq hs]
    refine .inl ⟨by decide, .branch (earlier ++ [⟨tag, condition, nodes.reverse⟩]) "elif" t.span
      condition', rfl, fun frames outer hparts => ?_⟩
    have hsame : (({ c with frames := rest } : Compiler).moved frames outer).reader =
        ({ c with frames := rest } : Compiler).reader :=
      reader_moved (c := { c with frames := rest }) hparts outer
    have hc' : (({ c with frames := rest } : Compiler).moved frames outer).reader.condition t.span
        parts = .ok condition' := by rw [hsame]; exact hc
    exact step_of_takes hv (.elif (htag.moved _ _) rfl hc')
  | @otherwise _ tag earlier _ condition nodes rest htag hf' =>
    obtain ⟨rfl, rfl⟩ := List.cons.inj (hf.symm.trans hf')
    rw [htag.name_eq hs]
    exact .inl ⟨by decide, .otherwise (earlier ++ [⟨tag, condition, nodes.reverse⟩]) t.span, rfl,
      fun frames outer _ => step_of_takes hv (.otherwise (htag.moved _ _) rfl)⟩
  | @empty _ tag header nodes rest htag hf' =>
    obtain ⟨rfl, rfl⟩ := List.cons.inj (hf.symm.trans hf')
    rw [htag.name_eq hs]
    exact .inl ⟨by decide, .empty tag header nodes.reverse t.span, rfl,
      fun frames outer _ => step_of_takes hv (.empty (htag.moved _ _) rfl)⟩
  | @endBranch _ tag earlier _ condition nodes rest htag hf' =>
    obtain ⟨rfl, rfl⟩ := List.cons.inj (hf.symm.trans hf')
    rw [htag.name_eq hs]
    exact .inr ⟨rfl, chainOf (earlier ++ [⟨tag, condition, nodes.reverse⟩]) [],
      fun frames outer _ => step_of_takes hv (.endBranch (htag.moved _ _) rfl)⟩
  | @endOtherwise _ tag earlier nodes rest htag hf' =>
    obtain ⟨rfl, rfl⟩ := List.cons.inj (hf.symm.trans hf')
    rw [htag.name_eq hs]
    exact .inr ⟨rfl, chainOf earlier nodes.reverse,
      fun frames outer _ => step_of_takes hv (.endOtherwise (htag.moved _ _) rfl)⟩
  | @endLoop _ tag header nodes rest htag hf' =>
    obtain ⟨rfl, rfl⟩ := List.cons.inj (hf.symm.trans hf')
    rw [htag.name_eq hs]
    exact .inr ⟨rfl, [.loop tag header nodes.reverse []],
      fun frames outer _ => step_of_takes hv (.endLoop (htag.moved _ _) rfl)⟩
  | @endEmpty _ tag _ header body nodes rest htag hf' =>
    obtain ⟨rfl, rfl⟩ := List.cons.inj (hf.symm.trans hf')
    rw [htag.name_eq hs]
    exact .inr ⟨rfl, [.loop tag header body nodes.reverse],
      fun frames outer _ => step_of_takes hv (.endEmpty (htag.moved _ _) rfl)⟩
  | @endAutoescape _ tag enabled nodes rest htag hf' =>
    obtain ⟨rfl, rfl⟩ := List.cons.inj (hf.symm.trans hf')
    rw [htag.name_eq hs]
    exact .inr ⟨rfl, [.autoescape tag enabled nodes.reverse],
      fun frames outer _ => step_of_takes hv (.endAutoescape (htag.moved _ _) rfl)⟩

/-! ## Several tokens -/

namespace LoadsMore

theorem source_eq (h : c.LoadsMore d) : d.source = c.source := by
  obtain ⟨_, _, rfl⟩ := h
  rfl

theorem verbatim_eq (h : c.LoadsMore d) : d.verbatim = c.verbatim := by
  obtain ⟨_, _, rfl⟩ := h
  rfl

theorem openParts_eq (h : c.LoadsMore d) : d.openParts = c.openParts := by
  obtain ⟨_, _, rfl⟩ := h
  rfl

theorem awaitedNames_moved_eq (h : c.LoadsMore d) (hparts : AlikeWithin d.openParts (frameParts frames))
    (outer : List Node) : (d.moved frames outer).awaitedNames = c.awaitedNames := by
  rw [Compiler.awaitedNames_moved hparts, awaitedNames, awaitedNames, h.openParts_eq]

/-- What was loaded in a part stays loaded around it. -/
theorem of_moved (h : (c.moved frames outer).LoadsMore d) :
    c.LoadsMore (d.moved c.frames c.nodes) := by
  obtain ⟨filters, tags, rfl⟩ := h
  exact ⟨filters, tags, rfl⟩

end LoadsMore

/-- What is read to an end is read up to any place before. -/
theorem exists_run_of_append (h : (tokens ++ more).foldlM step c = .ok c') :
    ∃ mid, tokens.foldlM step c = .ok mid ∧ more.foldlM step mid = .ok c' := by
  rwa [List.foldlM_append, bind_eq_ok] at h

/-- **More tokens** are read among the parts that the first ones were read in. -/
theorem Reads.exists_append (h : c.Reads tokens nodes d) (hrun : (tokens ++ more).foldlM step c = .ok c')
    (hmore : ∀ frames outer, AlikeWithin d.openParts (frameParts frames) →
      more.foldlM step (d.moved frames outer) = .ok c' →
      ∃ others e, (d.moved frames outer).Reads more others e) :
    ∃ nodes e, c.Reads (tokens ++ more) nodes e := by
  obtain ⟨frames, outer, halike, hmoved⟩ := exists_moved_addAll nodes c.frames c.nodes
  have hself : d.moved c.frames c.nodes = d := by
    obtain ⟨_, _, rfl⟩ := h.loaded
    rfl
  have hlast : nodes.foldl add d = d.moved frames outer := by
    rw [← hmoved d, hself]
  rw [List.foldlM_append, h.run_self, hlast] at hrun
  have hparts : AlikeWithin d.openParts (frameParts frames) := by
    rw [h.loaded.openParts_eq]
    exact halike
  obtain ⟨others, e, hreads⟩ := hmore frames outer hparts hrun
  exact ⟨nodes ++ others, _, h.append (hreads.of_moved hparts)⟩

namespace Opens

variable {frame : Frame}

/-- Where the compiler stands. -/
theorem run_self (h : c.Opens tokens frame d) :
    tokens.foldlM step c = .ok (d.moved (frame :: c.frames) c.nodes) :=
  h.run c.frames c.nodes (.refl _)

/-- **What is read in the part** becomes nodes of the part. -/
theorem body (h : c.Opens tokens frame d)
    (hbody : (d.moved (frame :: c.frames) c.nodes).Reads more nodes e) :
    c.Opens (tokens ++ more) ⟨frame.part, nodes.reverse ++ frame.nodes⟩ (e.moved c.frames c.nodes) := by
  have hloaded := hbody.loaded.of_moved
  have hd : d.moved d.frames d.nodes = d := rfl
  have hframes : d.frames = c.frames ∧ d.nodes = c.nodes := by
    obtain ⟨_, _, rfl⟩ := h.loaded
    exact ⟨rfl, rfl⟩
  rw [hframes.1, hframes.2] at hloaded
  refine ⟨h.loaded.trans hloaded, fun frames outer hparts => ?_⟩
  have hnext := hbody.run (frame :: frames) outer (hparts.cons frame.part)
  have hadded : nodes.foldl add (e.moved (frame :: frames) outer) = _ := foldl_add_of_frames rfl nodes
  rw [List.foldlM_append, h.run frames outer hparts]
  exact hnext.trans (congrArg Except.ok hadded)

/-- **A tag that the part awaits** opens the next one, or all of the block is read. -/
theorem next_or_ends (h : c.Opens tokens frame d) (hs : c.source = source) (hv : c.verbatim = none)
    (hk : t.kind = .tag) (hname : t.name source ∈ frame.part.awaited)
    (hstep : (d.moved (frame :: c.frames) c.nodes).step t = .ok c') :
    (Awaited.opened (t.name source) ≠ [] ∧ ∃ part : Part,
      part.awaited = (OpenTag.mk (t.name source) t.span).awaited ∧
      c.Opens (tokens ++ [t]) ⟨part, []⟩ d) ∨
    (Awaited.opened (t.name source) = [] ∧ ∃ nodes, c.Reads (tokens ++ [t]) nodes d) := by
  have hs' : (d.moved (frame :: c.frames) c.nodes).source = source := h.loaded.source_eq.trans hs
  have hv' : (d.moved (frame :: c.frames) c.nodes).verbatim = none := h.loaded.verbatim_eq.trans hv
  have hrun (frames : List Frame) (outer : List Node) (hparts : AlikeWithin c.openParts (frameParts frames)) :
      (tokens ++ [t]).foldlM step (c.moved frames outer) =
        (d.moved (frame :: frames) outer).step t := by
    rw [List.foldlM_append, h.run frames outer hparts]
    exact foldlM_singleton t _
  rcases next_or_ends_of_step hs' hv' rfl hk hname hstep with
    ⟨hopens, part, hawaited, hnext⟩ | ⟨hends, nodes, hclosed⟩
  · exact .inl ⟨hopens, part, hawaited, h.loaded,
      fun frames outer hparts => (hrun frames outer hparts).trans (hnext frames outer hparts)⟩
  · exact .inr ⟨hends, nodes, h.loaded,
      fun frames outer hparts => (hrun frames outer hparts).trans (hclosed frames outer hparts)⟩

theorem source_eq_moved (h : c.Opens tokens frame d) (hs : c.source = source) :
    (d.moved (frame :: c.frames) c.nodes).source = source := h.loaded.source_eq.trans hs

theorem verbatim_eq_moved (h : c.Opens tokens frame d) (hv : c.verbatim = none) :
    (d.moved (frame :: c.frames) c.nodes).verbatim = none := h.loaded.verbatim_eq.trans hv

/-- **All of a part:** what is read in it, and the tag that ends it. -/
theorem next_or_ends_of_run (h : c.Opens tokens frame d) (hs : c.source = source)
    (hv : c.verbatim = none)
    (hbody : ∀ e, more.foldlM step (d.moved (frame :: c.frames) c.nodes) = .ok e →
      ∃ nodes e', (d.moved (frame :: c.frames) c.nodes).Reads more nodes e')
    (hk : t.kind = .tag) (hname : t.name source ∈ frame.part.awaited)
    (hrun : (tokens ++ more ++ [t]).foldlM step c = .ok c') :
    ∃ d', (Awaited.opened (t.name source) ≠ [] ∧ ∃ part : Part,
      part.awaited = (OpenTag.mk (t.name source) t.span).awaited ∧
      c.Opens (tokens ++ more ++ [t]) ⟨part, []⟩ d') ∨
    (Awaited.opened (t.name source) = [] ∧ ∃ nodes, c.Reads (tokens ++ more ++ [t]) nodes d') := by
  obtain ⟨mid, hmid, hlast⟩ := exists_run_of_append hrun
  obtain ⟨_, hopened, hmore⟩ := exists_run_of_append hmid
  cases h.run_self.symm.trans hopened
  obtain ⟨nodes, e, hreads⟩ := hbody _ hmore
  have hopens := h.body hreads
  cases hopens.run_self.symm.trans hmid
  rw [foldlM_singleton] at hlast
  exact ⟨_, hopens.next_or_ends hs hv hk hname hlast⟩

end Opens

/-! ## Verbatim blocks -/

/-- A verbatim block behind tokens that are read in it. -/
def verbatimThrough (source : List Char) (block : Verbatim) (inside : List Token) : Verbatim :=
  inside.foldl (fun block t => { block with span := t.span, text := t.content source }) block

theorem foldlM_insideVerbatim {inside : List Token} (h : ∀ u ∈ inside, u.kind ≠ .tag)
    (c : Compiler) (block : Verbatim) :
    inside.foldlM step { c with verbatim := some block } =
      .ok { c with verbatim := some (verbatimThrough c.source block inside) } := by
  induction inside generalizing block with
  | nil => rfl
  | cons u inside ih =>
    obtain ⟨hu, hinside⟩ := List.forall_mem_cons.1 h
    rw [foldlM_cons_of_ok (step_insideVerbatim (c := { c with verbatim := some block }) rfl hu)]
    exact ih hinside _

/-- **A verbatim block** is read to its text. -/
theorem reads_verbatim {inside : List Token} {last : Token} (hs : c.source = source)
    (hv : c.verbatim = none) (hk : t.kind = .tag) (hname : t.name source = "verbatim")
    (hinside : ∀ u ∈ inside, u.kind ≠ .tag) (hlast : last.kind = .tag)
    (h : (t :: inside ++ [last]).foldlM step c = .ok c') :
    ∃ nodes, c.Reads (t :: inside ++ [last]) nodes c := by
  rw [List.cons_append, List.foldlM_cons, bind_eq_ok] at h
  obtain ⟨next, hnext, -⟩ := h
  have hopened : Token.opensVerbatim (Text.trim (t.content c.source)) ∧
      ∃ parts, c.Tagged t "verbatim" parts := by
    have hnot {name : String} {parts : Span} {P : Prop} (htag : c.Tagged t name parts)
        (hne : name ≠ "verbatim") : P := absurd ((htag.name_eq hs).symm.trans hname) hne
    cases takes_of_step hv hnext with
    | verbatim htag ho => exact ⟨ho, _, htag⟩
    | text hk' | comment hk' | output hk' _ => cases hk.symm.trans hk'
    | call htag hnew _ _ _ => exact hnot htag fun heq => hnew (heq ▸ by decide)
    | autoescape htag _ | loop htag _ | choice htag _ | load htag _ | route htag _ | elif htag _ _
    | otherwise htag _ | endBranch htag _ | endOtherwise htag _ | empty htag _ | endLoop htag _
    | endEmpty htag _ | endAutoescape htag _ => exact hnot htag (by decide)
  obtain ⟨ho, parts, htag⟩ := hopened
  let block := verbatimThrough c.source ⟨t.span, ⟨t.span.stop, 0⟩, []⟩ inside
  refine ⟨[.text block.span (String.ofList block.text)], ⟨_, _, rfl⟩, fun frames outer hparts => ?_⟩
  have hfirst := step_of_takes (c := c.moved frames outer) hv (.verbatim (htag.moved frames outer) ho)
  have hends := step_endsVerbatim (c := { c.moved frames outer with verbatim := some block }) rfl hlast
  have hleft : ({ c.moved frames outer with verbatim := none } : Compiler) = c.moved frames outer := by
    rw [← hv]
    rfl
  rw [List.cons_append, foldlM_cons_of_ok hfirst, List.foldlM_append, foldlM_insideVerbatim hinside]
  refine (foldlM_singleton last _).trans (hends.trans ?_)
  dsimp only
  rw [hleft]
  rfl

end Compiler

/-! ## Blocks inside blocks -/

open Compiler

variable {source : List Char}

mutual

/-- **Tokens that leave nothing open are read to nodes,** wherever. -/
theorem Completed.exists_reads : ∀ {awaited : List String} {tokens : List Token},
    Completed source awaited tokens → ∀ {c c' : Compiler}, c.source = source → c.verbatim = none →
      c.awaitedNames = awaited → tokens.foldlM step c = .ok c' → ∃ nodes d, c.Reads tokens nodes d
  | _, _, .nil, c, _, _, _, _, _ => ⟨[], c, ⟨_, _, rfl⟩, fun _ _ _ => rfl⟩
  | _, _, .single (t := t) h ht, c, c', hs, hv, ha, hrun => by
    obtain ⟨mid, hmid, -⟩ := exists_run_of_append hrun
    obtain ⟨nodes, d, hreads⟩ := h.exists_reads hs hv ha hmid
    refine hreads.exists_append hrun fun frames outer hparts hlast => ?_
    rw [foldlM_singleton] at hlast
    refine reads_single (hreads.loaded.source_eq.trans hs) (hreads.loaded.verbatim_eq.trans hv)
      (fun hk => ?_) hlast
    rw [awaits_eq_contains, hreads.loaded.awaitedNames_moved_eq hparts, ha]
    exact ⟨by simpa using (ht hk).1, (ht hk).2⟩
  | _, _, .verbatim h ht hname hinside hlast, c, c', hs, hv, ha, hrun => by
    obtain ⟨mid, hmid, -⟩ := exists_run_of_append hrun
    obtain ⟨nodes, d, hreads⟩ := h.exists_reads hs hv ha hmid
    refine hreads.exists_append hrun fun frames outer _ hblock => ?_
    obtain ⟨others, hothers⟩ := reads_verbatim (c := d.moved frames outer)
      (hreads.loaded.source_eq.trans hs) (hreads.loaded.verbatim_eq.trans hv) ht hname hinside hlast
      hblock
    exact ⟨others, _, hothers⟩
  | _, _, .block h hbegun hbody ht hname hend, c, c', hs, hv, ha, hrun => by
    obtain ⟨mid, hmid, -⟩ := exists_run_of_append hrun
    obtain ⟨nodes, d, hreads⟩ := h.exists_reads hs hv ha hmid
    refine hreads.exists_append hrun fun frames outer _ hblock => ?_
    have hs' : (d.moved frames outer).source = source := hreads.loaded.source_eq.trans hs
    have hv' : (d.moved frames outer).verbatim = none := hreads.loaded.verbatim_eq.trans hv
    obtain ⟨_, hopened, -⟩ := exists_run_of_append hblock
    obtain ⟨_, hbefore, -⟩ := exists_run_of_append hopened
    obtain ⟨frame, opened, hopens, hawaited⟩ := hbegun.exists_opens hs' hv' hbefore
    -- an awaited tag opens the next part or ends the block, and this one opens nothing
    obtain ⟨_, ⟨hnot, -⟩ | ⟨-, others, hothers⟩⟩ :=
      hopens.next_or_ends_of_run hs' hv' (fun _ => hbody.exists_reads (hopens.source_eq_moved hs')
        (hopens.verbatim_eq_moved hv') hawaited) ht (hawaited ▸ hname) hblock
    · exact absurd hend hnot
    · exact ⟨others, _, hothers⟩

/-- **Beginnings of blocks open a part,** wherever. -/
theorem Begun.exists_opens : ∀ {before : List Token} {p : OpenTag}, Begun source before p →
    ∀ {c c' : Compiler}, c.source = source → c.verbatim = none → before.foldlM step c = .ok c' →
      ∃ frame d, c.Opens before frame d ∧ frame.part.awaited = p.awaited
  | _, _, .first ht hname, c, c', hs, hv, hrun => by
    rw [foldlM_singleton] at hrun
    obtain ⟨frame, hopens, hawaited⟩ := opens_first hs hv hname hrun ht
    exact ⟨frame, c, hopens, hawaited⟩
  | _, _, .next h hbody ht hname hnext, c, c', hs, hv, hrun => by
    obtain ⟨_, hopened, -⟩ := exists_run_of_append hrun
    obtain ⟨_, hbefore, -⟩ := exists_run_of_append hopened
    obtain ⟨frame, opened, hopens, hawaited⟩ := h.exists_opens hs hv hbefore
    obtain ⟨_, ⟨-, part, hpartAwaited, hnow⟩ | ⟨hend, -⟩⟩ :=
      hopens.next_or_ends_of_run hs hv (fun _ => hbody.exists_reads (hopens.source_eq_moved hs)
        (hopens.verbatim_eq_moved hv) hawaited) ht (hawaited ▸ hname) hrun
    · exact ⟨⟨part, []⟩, _, hnow, hpartAwaited⟩
    · exact absurd hend hnext

end

end Galley
