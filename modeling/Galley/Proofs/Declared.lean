import Galley.Compile
import Galley.Proofs.Reading

/-!
# Compiling fails only in declared ways

A template compiles to nodes, or its error is one of reading words or of building the tree and
refers to places in its text. No step asks for a character, a part or a literal that is not there.

* `Compiler.Sound`: every place that a compiler remembers lies in the text, the open parts before the
  token that is read next.
* `Compiler.settles_step`: a token keeps this, or its error is proper.
* `Compiler.settles_run`: so do all tokens of a text.
* `settles_compile`: the nodes of a template stand in its text.
* `compile_declared`: a template compiles or fails in a declared way.
-/

namespace Galley

variable {source : List Char} {c : Compiler} {span parts : Span} {token : Token} {name : String}
  {m n : Nat}

/-! ## The invariant -/

/-- A token **stands in** a text with the content that is read from it. -/
structure Token.StandsIn (t : Token) (source : List Char) : Prop where
  within : t.span.Within source
  content : t.kind ≠ .text →
    (⟨t.span.start + 2, t.content source⟩ : Cursor).Reads source

theorem Token.standsIn_of_mem_scan (h : token ∈ Token.scan source) : token.StandsIn source :=
  ⟨Token.scan_within source token h, fun hk => Token.reads_content h hk⟩

/-- An open part **stands in** a text with the place of its tag and with what has been read of its
block. -/
structure Frame.StandsIn (f : Frame) (source : List Char) : Prop where
  within : f.part.span.Within source
  part : f.part.StandsIn source
  nodes : AllStandIn source f.nodes

namespace Compiler

/-- **The invariant.** A compiler is sound for a text if it reads this text and if what it has read,
the tags that were loaded and an open verbatim block stand there. The tags of its open parts lie
before the offset from which it goes on. -/
structure Sound (c : Compiler) (source : List Char) (offset : Nat) : Prop where
  source_eq : c.source = source
  nodes : AllStandIn source c.nodes
  frames : ∀ f ∈ c.frames, f.StandsIn source
  before : ∀ f ∈ c.frames, f.part.span.Before offset
  tags : ∀ entry ∈ c.tags, entry.2.2.Within source
  verbatim : ∀ block, c.verbatim = some block → block.tag.Within source

theorem sound_start (source : List Char) (libraries : List (String × Library)) :
    ({ source, libraries } : Compiler).Sound source 0 :=
  ⟨rfl, trivial, nofun, nofun, nofun, nofun⟩

namespace Sound

theorem mono (h : c.Sound source m) (hle : m ≤ n) : c.Sound source n :=
  { h with before := fun f hf => (h.before f hf).mono hle }

theorem add (h : c.Sound source n) {node : Node} (hnode : node.StandsIn source) :
    (c.add node).Sound source n := by
  unfold Compiler.add
  split
  · exact { h with nodes := ⟨hnode, h.nodes⟩ }
  · next frame rest hf =>
    have hframes := h.frames
    have hbefore := h.before
    rw [hf] at hframes hbefore
    obtain ⟨hframe, hrest⟩ := List.forall_mem_cons.1 hframes
    refine { h with frames := List.forall_mem_cons.2 ⟨?_, hrest⟩
                    before := List.forall_mem_cons.2 (List.forall_mem_cons.1 hbefore) }
    exact { hframe with nodes := ⟨hnode, hframe.nodes⟩ }

/-- What keeps the invariant at each item keeps it at all of them. -/
theorem foldl {α : Type} {f : Compiler → α → Compiler} (h : c.Sound source n) (items : List α)
    (hf : ∀ c, c.Sound source n → ∀ a ∈ items, (f c a).Sound source n) :
    (items.foldl f c).Sound source n :=
  List.foldlRecOn items f h hf

theorem addAll (h : c.Sound source n) {nodes : List Node} (hnodes : AllStandIn source nodes) :
    (nodes.foldl Compiler.add c).Sound source n :=
  h.foldl nodes fun _ hc node hnode => hc.add (allStandIn_iff.1 hnodes node hnode)

theorem enter (h : c.Sound source n) {part : Part} (hspan : part.span.Within source)
    (hbefore : part.span.Before n) (hpart : part.StandsIn source) :
    (c.enter part).Sound source n :=
  { h with frames := List.forall_mem_cons.2 ⟨⟨hspan, hpart, trivial⟩, h.frames⟩
           before := List.forall_mem_cons.2 ⟨hbefore, h.before⟩ }

/-- Without its innermost part. -/
theorem leave (h : c.Sound source n) {frame : Frame} {rest : List Frame}
    (hf : c.frames = frame :: rest) :
    frame.StandsIn source ∧ ({ c with frames := rest } : Compiler).Sound source n := by
  have hframes := h.frames
  have hbefore := h.before
  rw [hf] at hframes hbefore
  obtain ⟨hframe, hrest⟩ := List.forall_mem_cons.1 hframes
  exact ⟨hframe, { h with frames := hrest, before := (List.forall_mem_cons.1 hbefore).2 }⟩

theorem loadFilter (h : c.Sound source n) (name : String) (f : Function) :
    (c.loadFilter name f).Sound source n := { h with }

theorem loadTag (h : c.Sound source n) (hspan : span.Within source) (name : String)
    (tag : LibraryTag) : (c.loadTag span name tag).Sound source n :=
  { h with tags := List.forall_mem_cons.2 ⟨hspan, h.tags⟩ }

end Sound

/-! ## Tags -/

theorem settles_condition (h : c.Sound source n) (hspan : span.Within source)
    (hparts : parts.Within source) :
    Settles source (fun _ => True) (c.reader.condition span parts) := by
  obtain rfl := h.source_eq
  exact Reader.settles_condition hspan hparts

/-- **Closing the innermost part.** -/
theorem settles_close {frame : Frame} {rest : List Frame} (h : c.Sound source n)
    (hf : c.frames = frame :: rest) (hspan : span.Within source) (hbefore : span.Before n)
    (hparts : parts.Within source) :
    Settles source (Sound · source n) (c.close frame rest name span parts) := by
  obtain ⟨hframe, hleft⟩ := h.leave hf
  have hpart := hframe.part
  have hbody := hframe.nodes.reverse
  unfold close
  dsimp only
  generalize ({ c with frames := rest } : Compiler) = left at hleft
  split
  · -- a branch: another one follows, or what stands for all others, or nothing
    next earlier _ tag condition hp =>
    rw [hp] at hpart
    have hbranches : ∀ b ∈ earlier ++ [⟨tag, condition, frame.nodes.reverse⟩],
        AllStandIn source b.body := by
      intro b hb
      rcases List.mem_append.1 hb with hb | hb
      · exact hpart b hb
      · rw [List.mem_singleton.1 hb]
        exact hbody
    split
    · exact (settles_condition hleft hspan hparts).bind fun _ _ =>
        settles_pure (hleft.enter hspan hbefore hbranches)
    · split
      · exact hleft.enter hspan hbefore hbranches
      · exact hleft.addAll (allStandIn_chainOf hbranches trivial)
  · next hp =>
    rw [hp] at hpart
    exact hleft.addAll (allStandIn_chainOf hpart hbody)
  · -- the body of a loop: what stands for an empty one follows, or nothing
    next hp =>
    rw [hp] at hpart
    split
    · exact hleft.enter hspan hbefore ⟨hpart, hbody⟩
    · exact hleft.add ⟨hpart, hbody, trivial⟩
  · next hp =>
    rw [hp] at hpart
    exact hleft.add ⟨hpart.1, hpart.2, hbody⟩
  · exact hleft.add hbody

theorem settles_library (hspan : span.Within source) :
    Settles source (fun _ => True) (c.library name span) := by
  unfold library
  split
  · trivial
  · exact settles_syntactic hspan rfl (List.forall_mem_nil _)

theorem settles_loadMember {library : Library} {librarySpan : Span} (h : c.Sound source n)
    (hlibrary : librarySpan.Within source) (hspan : span.Within source)
    (hapart : librarySpan.Apart span) :
    Settles source (Sound · source n) (loadMember library name librarySpan c span) := by
  unfold loadMember
  dsimp only
  split
  · exact settles_syntactic hspan rfl (List.forall_mem_singleton.2 ⟨hlibrary, hapart⟩)
  · exact h.loadFilter _ _
  · exact h.loadTag hspan _ _
  · exact (h.loadFilter _ _).loadTag hspan _ _

theorem settles_loadLibrary (h : c.Sound source n) (hspan : span.Within source) :
    Settles source (Sound · source n) (c.loadLibrary span) := by
  unfold loadLibrary
  refine (settles_library hspan).bind fun library _ => ?_
  have hfilters := h.foldl library.filters
    fun _ hc entry _ => hc.loadFilter entry.1 entry.2
  have htags := hfilters.foldl library.tags
    fun _ hc entry _ => hc.loadTag hspan entry.1 entry.2
  exact settles_pure htags

/-- **Loading** what the words of a tag name. -/
theorem settles_load (h : c.Sound source n) (hparts : parts.Within source) :
    Settles source (Sound · source n) (c.load parts) := by
  have hwords : (∀ s ∈ LoadWord.all c.source parts, s.Within source) ∧
      (LoadWord.all c.source parts).Pairwise fun s t => s.Before t.start := by
    rw [h.source_eq]
    exact ⟨LoadWord.within_all hparts, LoadWord.pairwise_all hparts⟩
  have hlibraries : Settles source (Sound · source n)
      ((LoadWord.all c.source parts).foldlM loadLibrary c) :=
    settles_foldlM h fun _ s hs hc => settles_loadLibrary hc (hwords.1 s hs)
  unfold load
  dsimp only
  split
  · -- members of one library: its name is the last word, and `from` stands before it
    next librarySpan from_ member members hr =>
    have hreverse : (∀ s ∈ librarySpan :: from_ :: member :: members, s.Within source) ∧
        (librarySpan :: from_ :: member :: members).Pairwise fun s t => t.Before s.start := by
      rw [← hr]
      exact ⟨fun s hs => hwords.1 s (List.mem_reverse.1 hs), List.pairwise_reverse.2 hwords.2⟩
    obtain ⟨hlibrary, hothers⟩ := List.forall_mem_cons.1 hreverse.1
    have hmembers := (List.forall_mem_cons.1 hothers).2
    have hbefore := (List.pairwise_cons.1 hreverse.2).1
    split
    · refine (settles_library hlibrary).bind fun library _ => ?_
      refine settles_foldlM h fun _ s hs hc => ?_
      have hs := List.mem_reverse.1 hs
      exact settles_loadMember hc hlibrary (hmembers s hs)
        (.inr (hbefore s (List.mem_cons_of_mem _ hs)))
    · exact hlibraries
  · exact hlibraries

/-- **A tag that nobody knows** comes behind the tag of the innermost part. -/
theorem proper_unknownTag (h : c.Sound source span.start) (hspan : span.Within source) :
    (c.unknownTag name span).Proper source := by
  have hnone : Settles source (fun _ : Unit => True) (.error (c.unknownTag name span)) := by
    unfold unknownTag
    split
    · exact settles_syntactic hspan rfl (List.forall_mem_nil _)
    · next frame rest hf =>
      have hframe : frame ∈ c.frames := by
        rw [hf]
        exact List.mem_cons_self
      exact settles_syntactic hspan rfl (List.forall_mem_singleton.2
        ⟨(h.frames frame hframe).within, .inl (h.before frame hframe)⟩)
  exact hnone

/-- **A tag that opens a part or adds a node.** -/
theorem settles_openTag (h : c.Sound source span.start) (hspan : span.Within source)
    (hbefore : span.Before span.stop) (hparts : parts.Within source) :
    Settles source (Sound · source span.stop) (c.openTag name span parts) := by
  have hsource := h.source_eq
  have hopen := h.mono (Nat.le_add_right span.start span.length)
  change c.Sound source span.stop at hopen
  unfold openTag
  -- one case for each name that is always there, and one for all others
  split
  · rw [hsource]
    exact (SwitchWord.settles_read hparts).bind fun _ _ =>
      settles_pure (hopen.enter hspan hbefore trivial)
  · subst hsource
    exact (Reader.settles_loopHeader (r := c.reader) hspan hparts).bind fun _ hheader =>
      settles_pure (hopen.enter hspan hbefore hheader)
  · exact (settles_condition h hspan hparts).bind fun _ _ =>
      settles_pure (hopen.enter hspan hbefore (List.forall_mem_nil _))
  · exact (settles_load hopen hparts).bind fun _ hc => settles_pure (hc.add trivial)
  · subst hsource
    exact (Reader.settles_routeCall (r := c.reader) hspan hparts).bind fun _ hroute =>
      settles_pure (hopen.add hroute)
  · dsimp only
    split
    · -- the block remembers the tag that opens it
      refine { hopen with verbatim := fun block hb => ?_ }
      cases hb
      exact hspan
    · exact settles_syntactic hspan rfl (List.forall_mem_nil _)
  · split
    · -- a tag of a library: an error may point at where it was loaded
      next tag loaded ht =>
      have hloaded : loaded.Within source := h.tags _ (mem_of_lookup_eq_some ht)
      subst hsource
      exact (Reader.settles_tagCall (r := c.reader) hloaded hspan hparts).bind fun _ hcall =>
        settles_pure (hopen.add ⟨hspan, hcall⟩)
    · exact proper_unknownTag h hspan

theorem settles_tag (h : c.Sound source token.span.start) (ht : token.StandsIn source)
    (hbefore : token.span.Before token.span.stop) (hk : token.kind ≠ .text) :
    Settles source (Sound · source token.span.stop) (c.tag token) := by
  have hcontent := ht.content hk
  unfold tag
  rw [h.source_eq]
  refine (TagWords.settles_read hcontent).bind fun words? hwords => ?_
  split
  · exact settles_syntactic ht.within rfl (List.forall_mem_nil _)
  · next words =>
    obtain ⟨-, hparts⟩ := hwords words rfl
    dsimp only
    split
    · next frame rest hf =>
      split
      · have hclose := h.mono (Nat.le_add_right token.span.start token.span.length)
        exact settles_close hclose hf ht.within hbefore hparts
      · exact settles_openTag h ht.within hbefore hparts
    · exact settles_openTag h ht.within hbefore hparts

/-! ## Tokens -/

theorem settles_output (h : c.Sound source n) (ht : token.StandsIn source) (hk : token.kind ≠ .text) :
    Settles source (Sound · source n) (c.output token) := by
  have hcontent := ht.content hk
  obtain rfl := h.source_eq
  unfold output
  refine (Reader.settles_chain (r := c.reader) hcontent ht.within).bind fun e he => ?_
  split
  · exact settles_pure (h.add trivial)
  · exact settles_pure (h.add he.1)

/-- **A token keeps the invariant** from its start to its end, or its error is proper. -/
theorem settles_step (h : c.Sound source token.span.start) (ht : token.StandsIn source)
    (hpos : 0 < token.span.length) :
    Settles source (Sound · source token.span.stop) (c.step token) := by
  have hread := h.mono (Nat.le_add_right token.span.start token.span.length)
  change c.Sound source token.span.stop at hread
  unfold step
  split
  · next block hb =>
    split
    -- inside a verbatim block only its end is a tag
    · have hleft : ({ c with verbatim := none } : Compiler).Sound source token.span.stop :=
        { hread with verbatim := nofun }
      exact hleft.add trivial
    · refine { hread with verbatim := fun block' hb' => ?_ }
      cases hb'
      exact h.verbatim block hb
  · split
    · exact hread.add trivial
    · exact hread
    · next hk => exact settles_output hread ht (by rw [hk]; decide)
    · next hk =>
      have hbefore : token.span.Before token.span.stop :=
        ⟨Nat.lt_add_of_pos_right hpos, Nat.le_refl _⟩
      exact settles_tag h ht hbefore (by rw [hk]; decide)

/-- **So do all tokens** that follow each other. -/
theorem settles_run {tokens : List Token} {stop : Nat} (h : c.Sound source n)
    (ht : ∀ t ∈ tokens, t.StandsIn source) (hfollow : Token.Contiguous n tokens stop) :
    Settles source (Sound · source stop) (tokens.foldlM step c) := by
  -- the offset up to which the invariant speaks is where the next token starts
  induction tokens generalizing c n with
  | nil =>
    obtain rfl : n = stop := hfollow
    exact settles_pure h
  | cons token rest ih =>
    obtain ⟨rfl, hpos, hfollow⟩ := hfollow
    obtain ⟨htoken, hrest⟩ := List.forall_mem_cons.1 ht
    rw [List.foldlM_cons]
    exact (settles_step h htoken hpos).bind fun c' hc' => ih hc' hrest hfollow

theorem settles_finish (h : c.Sound source n) : Settles source (AllStandIn source) c.finish := by
  unfold finish
  split
  · next block hb => exact settles_syntactic (h.verbatim block hb) rfl (List.forall_mem_nil _)
  · next frame _ _ hf =>
    refine settles_syntactic (h.frames frame ?_).within rfl (List.forall_mem_nil _)
    rw [hf]
    exact List.mem_cons_self
  · exact h.nodes.reverse

end Compiler

/-- **The nodes of a template stand in its text**, or its error is proper. -/
theorem settles_compile (source : List Char) (libraries : List (String × Library)) :
    Settles source (AllStandIn source) (compile source libraries) := by
  have hstart := Compiler.sound_start source libraries
  have htokens (t : Token) (ht : t ∈ Token.scan source) : t.StandsIn source :=
    Token.standsIn_of_mem_scan ht
  unfold compile
  refine (Compiler.settles_run hstart htokens (Token.contiguous_scan source)).bind fun c hc => ?_
  exact Compiler.settles_finish hc

/-- **A template compiles or fails in a declared way.** The error is one of reading words or of
building the tree, never one of the host, and every place it refers to lies in the text. -/
theorem compile_declared (source : List Char) (libraries : List (String × Library)) :
    (∃ nodes, compile source libraries = .ok nodes) ∨
      ∃ e, compile source libraries = .error e ∧
        (e.cause.family = .lexical ∨ e.cause.family = .syntactic) ∧
        ∀ label ∈ e.labels, label.span.start + label.span.length ≤ source.length := by
  have h := settles_compile source libraries
  cases hx : compile source libraries with
  | ok nodes => exact .inl ⟨nodes, rfl⟩
  | error e => exact .inr ⟨e, rfl, h.of_error hx⟩

end Galley
