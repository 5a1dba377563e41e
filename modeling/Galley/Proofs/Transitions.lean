import Galley.Proofs.Offers

/-!
# What a token does to a compiler

Outside of verbatim blocks a token that is read without an error does one of a few things: it adds a
node, it opens a part, or it closes the innermost part, behind which the next one of the block may
open. Everything that is true of all compilers that a run leads to is shown by going through these.

* `Compiler.Tagged`: a token that is a tag with a name and parts.
* `Compiler.Takes`: what a token can do, with all that has been read for it.
* `Compiler.step_eq_ok_iff`: these are the steps without an error.
* `Compiler.exists_of_load`: loading changes filters and tags only.
-/

namespace Galley.Compiler

variable {c c' : Compiler} {t : Token} {name : String} {parts : Span}

/-- A token is **tagged** for a compiler with the name and the parts that are read from it. -/
structure Tagged (c : Compiler) (t : Token) (name : String) (parts : Span) : Prop where
  kind : t.kind = .tag
  words : ∃ words, TagWords.read? (t.content c.source) (t.span.start + 2) = .ok (some words) ∧
    c.reader.textAt words.name = name ∧ words.parts = parts

/-- Whether the innermost part awaits a name. -/
def awaits (c : Compiler) (name : String) : Bool :=
  c.frames.head?.any fun frame => frame.part.awaited.contains name

/-- The names of the tags that are always there. -/
def tagNames : List String := ["autoescape", "for", "if", "load", "url", "verbatim"]

/-- The node of a variable in the text. -/
def outputNode (span : Span) : Expression → Node
  | ⟨.translated _ text, []⟩ => .translated span text
  | e => .output span e

/-- **What a token does** that a compiler takes outside of verbatim blocks. -/
inductive Takes (c : Compiler) (t : Token) : Compiler → Prop
  | text (hk : t.kind = .text) : Takes c t (c.add (.text t.span (String.ofList (t.content c.source))))
  | comment (hk : t.kind = .comment) : Takes c t c
  | output {e : Expression} (hk : t.kind = .interpolation)
    (he : c.reader.chain (t.content c.source) t.span (t.span.start + 2) = .ok e) :
    Takes c t (c.add (outputNode t.span e))
  | autoescape {parts : Span} {switch : SwitchWord} (ht : c.Tagged t "autoescape" parts)
    (hs : SwitchWord.read c.source parts = .ok switch) :
    Takes c t (c.enter (.autoescape t.span switch.enabled))
  | loop {parts : Span} {header : LoopHeader} (ht : c.Tagged t "for" parts)
    (hh : c.reader.loopHeader t.span parts = .ok header) : Takes c t (c.enter (.loop t.span header))
  | choice {parts : Span} {condition : Condition Expression} (ht : c.Tagged t "if" parts)
    (hc : c.reader.condition t.span parts = .ok condition) :
    Takes c t (c.enter (.branch [] "if" t.span condition))
  | load {parts : Span} {c' : Compiler} (ht : c.Tagged t "load" parts) (hl : c.load parts = .ok c') :
    Takes c t (c'.add (.load t.span))
  | route {parts : Span} {call : RouteCall} (ht : c.Tagged t "url" parts)
    (hc : c.reader.routeCall t.span parts = .ok call) : Takes c t (c.add (.route t.span call))
  | verbatim {parts : Span} (ht : c.Tagged t "verbatim" parts)
    (ho : Token.opensVerbatim (Text.trim (t.content c.source))) :
    Takes c t { c with verbatim := some ⟨t.span, ⟨t.span.stop, 0⟩, []⟩ }
  | call {name : String} {parts loaded : Span} {tag : LoadedTag} {call : TagCall}
    (ht : c.Tagged t name parts) (hnew : name ∉ tagNames) (hnot : c.awaits name = false)
    (hl : c.tags.lookup name = some (tag, loaded))
    (hc : c.reader.tagCall tag loaded t.span parts = .ok call) : Takes c t (c.add (.call t.span call))
  /-- A branch is followed by another one. -/
  | elif {parts tag : Span} {earlier : List Branch} {opened : String}
    {condition condition' : Condition Expression} {nodes : List Node} {rest : List Frame}
    (ht : c.Tagged t "elif" parts)
    (hf : c.frames = ⟨.branch earlier opened tag condition, nodes⟩ :: rest)
    (hc : ({ c with frames := rest } : Compiler).reader.condition t.span parts = .ok condition') :
    Takes c t (({ c with frames := rest } : Compiler).enter
      (.branch (earlier ++ [⟨tag, condition, nodes.reverse⟩]) "elif" t.span condition'))
  /-- It is followed by what stands for all others. -/
  | otherwise {parts tag : Span} {earlier : List Branch} {opened : String}
    {condition : Condition Expression} {nodes : List Node} {rest : List Frame}
    (ht : c.Tagged t "else" parts)
    (hf : c.frames = ⟨.branch earlier opened tag condition, nodes⟩ :: rest) :
    Takes c t (({ c with frames := rest } : Compiler).enter
      (.otherwise (earlier ++ [⟨tag, condition, nodes.reverse⟩]) t.span))
  | endBranch {parts tag : Span} {earlier : List Branch} {opened : String}
    {condition : Condition Expression} {nodes : List Node} {rest : List Frame}
    (ht : c.Tagged t "endif" parts)
    (hf : c.frames = ⟨.branch earlier opened tag condition, nodes⟩ :: rest) :
    Takes c t (({ c with frames := rest } : Compiler).addChain
      (earlier ++ [⟨tag, condition, nodes.reverse⟩]) [])
  | endOtherwise {parts tag : Span} {earlier : List Branch} {nodes : List Node} {rest : List Frame}
    (ht : c.Tagged t "endif" parts) (hf : c.frames = ⟨.otherwise earlier tag, nodes⟩ :: rest) :
    Takes c t (({ c with frames := rest } : Compiler).addChain earlier nodes.reverse)
  /-- The body of a loop is followed by what stands for a loop without rounds. -/
  | empty {parts tag : Span} {header : LoopHeader} {nodes : List Node} {rest : List Frame}
    (ht : c.Tagged t "empty" parts) (hf : c.frames = ⟨.loop tag header, nodes⟩ :: rest) :
    Takes c t (({ c with frames := rest } : Compiler).enter (.empty tag header nodes.reverse t.span))
  | endLoop {parts tag : Span} {header : LoopHeader} {nodes : List Node} {rest : List Frame}
    (ht : c.Tagged t "endfor" parts) (hf : c.frames = ⟨.loop tag header, nodes⟩ :: rest) :
    Takes c t (({ c with frames := rest } : Compiler).add (.loop tag header nodes.reverse []))
  | endEmpty {parts tag tag' : Span} {header : LoopHeader} {body nodes : List Node}
    {rest : List Frame} (ht : c.Tagged t "endfor" parts)
    (hf : c.frames = ⟨.empty tag header body tag', nodes⟩ :: rest) :
    Takes c t (({ c with frames := rest } : Compiler).add (.loop tag header body nodes.reverse))
  | endAutoescape {parts tag : Span} {enabled : Bool} {nodes : List Node} {rest : List Frame}
    (ht : c.Tagged t "endautoescape" parts)
    (hf : c.frames = ⟨.autoescape tag enabled, nodes⟩ :: rest) :
    Takes c t (({ c with frames := rest } : Compiler).add (.autoescape tag enabled nodes.reverse))

/-! ## Nodes that are added -/

/-- Nodes are added to the innermost part. -/
theorem foldl_add_of_frames {frame : Frame} {frames : List Frame} (h : c.frames = frame :: frames)
    (nodes : List Node) :
    nodes.foldl add c =
      { c with frames := { frame with nodes := nodes.reverse ++ frame.nodes } :: frames } := by
  induction nodes generalizing c frame with
  | nil =>
    simp only [List.foldl_nil, List.reverse_nil, List.nil_append]
    rw [← h]
  | cons node nodes ih =>
    have hadd : c.add node =
        { c with frames := { frame with nodes := node :: frame.nodes } :: frames } := by
      unfold add
      rw [h]
    rw [List.foldl_cons, hadd, ih rfl]
    simp

/-- Without one they are outside of all blocks. -/
theorem foldl_add_of_nil (h : c.frames = []) (nodes : List Node) :
    nodes.foldl add c = { c with nodes := nodes.reverse ++ c.nodes } := by
  induction nodes generalizing c with
  | nil => rfl
  | cons node nodes ih =>
    have hadd : c.add node = { c with nodes := node :: c.nodes } := by
      unfold add
      rw [h]
    rw [List.foldl_cons, hadd, ih (c := { c with nodes := node :: c.nodes }) h]
    simp

/-! ## Loading -/

/-- **Loading changes filters and tags only.** -/
theorem exists_of_load (h : c.load parts = .ok c') :
    ∃ filters tags, c' = { c with filters, tags } :=
  ⟨_, _, eq_accept_of_load h⟩

/-! ## Tags -/

/-- None of the tags that are always there is awaited. -/
theorem awaits_eq_false (h : name ∈ tagNames) : c.awaits name = false := by
  have hpart (p : Part) : p.awaited.contains name = false := by
    simp only [tagNames, List.mem_cons, List.not_mem_nil, or_false] at h
    rcases h with rfl | rfl | rfl | rfl | rfl | rfl <;> cases p <;> rfl
  unfold awaits
  cases c.frames with
  | nil => rfl
  | cons frame rest => exact hpart frame.part

/-- A tag closes the innermost part if this awaits it, and else opens a part or adds a node. -/
theorem tag_of_tagged (h : c.Tagged t name parts) :
    c.tag t =
      match c.frames with
      | frame :: rest =>
        if frame.part.awaited.contains name then c.close frame rest name t.span parts
        else c.openTag name t.span parts
      | [] => c.openTag name t.span parts := by
  obtain ⟨words, hwords, rfl, rfl⟩ := h.words
  unfold tag
  rw [hwords]
  rfl

theorem exists_tagged_of_tag (hk : t.kind = .tag) (h : c.tag t = .ok c') :
    ∃ name parts, c.Tagged t name parts := by
  unfold tag at h
  rw [bind_eq_ok] at h
  obtain ⟨words?, hwords, h⟩ := h
  cases words? with
  | none => cases h
  | some words => exact ⟨_, _, hk, words, hwords, rfl, rfl⟩

theorem tag_eq_openTag (h : c.Tagged t name parts) (hnot : c.awaits name = false) :
    c.tag t = c.openTag name t.span parts := by
  rw [tag_of_tagged h]
  unfold awaits at hnot
  cases hf : c.frames with
  | nil => rfl
  | cons frame rest =>
    rw [hf] at hnot
    exact if_neg (Bool.eq_false_iff.1 hnot)

theorem tag_eq_close {frame : Frame} {rest : List Frame} (h : c.Tagged t name parts)
    (hf : c.frames = frame :: rest) (ha : frame.part.awaited.contains name) :
    c.tag t = c.close frame rest name t.span parts := by
  rw [tag_of_tagged h, hf]
  exact if_pos ha

theorem takes_of_close {frame : Frame} {rest : List Frame} (ht : c.Tagged t name parts)
    (hf : c.frames = frame :: rest) (ha : frame.part.awaited.contains name)
    (h : c.close frame rest name t.span parts = .ok c') : c.Takes t c' := by
  obtain ⟨part, nodes⟩ := frame
  cases part with
  | branch earlier opened tag condition =>
    simp only [Part.awaited, List.contains_cons, List.contains_nil, Bool.or_false, Bool.or_eq_true,
      beq_iff_eq] at ha
    rcases ha with rfl | rfl | rfl
    · simp only [close, if_true, bind_eq_ok] at h
      obtain ⟨condition', hc, h⟩ := h
      cases h
      exact .elif ht hf hc
    · cases h
      exact .otherwise ht hf
    · cases h
      exact .endBranch ht hf
  | otherwise earlier tag =>
    obtain rfl : name = "endif" := by simpa [Part.awaited] using ha
    cases h
    exact .endOtherwise ht hf
  | loop tag header =>
    simp only [Part.awaited, List.contains_cons, List.contains_nil, Bool.or_false, Bool.or_eq_true,
      beq_iff_eq] at ha
    rcases ha with rfl | rfl
    · cases h
      exact .empty ht hf
    · cases h
      exact .endLoop ht hf
  | empty tag header body tag' =>
    obtain rfl : name = "endfor" := by simpa [Part.awaited] using ha
    cases h
    exact .endEmpty ht hf
  | autoescape tag enabled =>
    obtain rfl : name = "endautoescape" := by simpa [Part.awaited] using ha
    cases h
    exact .endAutoescape ht hf

theorem takes_of_openTag (ht : c.Tagged t name parts) (hnot : c.awaits name = false)
    (h : c.openTag name t.span parts = .ok c') : c.Takes t c' := by
  have htoken : (⟨.tag, t.span⟩ : Token) = t := by rw [← ht.kind]
  unfold openTag at h
  -- one case for each name that is always there, and one for all others
  split at h
  · rw [bind_eq_ok] at h
    obtain ⟨switch, hs, h⟩ := h
    cases h
    exact .autoescape ht hs
  · rw [bind_eq_ok] at h
    obtain ⟨header, hh, h⟩ := h
    cases h
    exact .loop ht hh
  · rw [bind_eq_ok] at h
    obtain ⟨condition, hc, h⟩ := h
    cases h
    exact .choice ht hc
  · rw [bind_eq_ok] at h
    obtain ⟨loaded, hl, h⟩ := h
    cases h
    exact .load ht hl
  · rw [bind_eq_ok] at h
    obtain ⟨call, hc, h⟩ := h
    cases h
    exact .route ht hc
  · rw [htoken] at h
    dsimp only at h
    split at h
    · next ho =>
      cases h
      exact .verbatim ht ho
    · cases h
  · next h1 h2 h3 h4 h5 h6 =>
    split at h
    · next tag loaded hl =>
      rw [bind_eq_ok] at h
      obtain ⟨call, hc, h⟩ := h
      cases h
      refine .call ht ?_ hnot hl hc
      simp only [tagNames, List.mem_cons, List.not_mem_nil, or_false, not_or]
      exact ⟨h1, h2, h3, h4, h5, h6⟩
    · cases h

/-! ## Steps -/

theorem output_eq_ok_iff :
    c.output t = .ok c' ↔ ∃ e, c.reader.chain (t.content c.source) t.span (t.span.start + 2) = .ok e ∧
      c' = c.add (outputNode t.span e) := by
  unfold output
  rw [bind_eq_ok]
  refine exists_congr fun e => and_congr_right fun _ => ?_
  have hmade {node : Node} : (pure (c.add node) : Except TemplateError Compiler) = .ok c' ↔
      c' = c.add node := ⟨fun h => (Except.ok.inj h).symm, fun h => congrArg Except.ok h.symm⟩
  -- only a translated literal without filters has a node of its own
  obtain ⟨head, filters⟩ := e
  cases head <;> cases filters <;> exact hmade

theorem step_text (hv : c.verbatim = none) (hk : t.kind = .text) :
    c.step t = .ok (c.add (.text t.span (String.ofList (t.content c.source)))) := by
  simp only [step, hv, hk]

theorem step_comment (hv : c.verbatim = none) (hk : t.kind = .comment) : c.step t = .ok c := by
  simp only [step, hv, hk]

theorem step_output (hv : c.verbatim = none) (hk : t.kind = .interpolation) :
    c.step t = c.output t := by
  simp only [step, hv, hk]

theorem step_tag (hv : c.verbatim = none) (hk : t.kind = .tag) : c.step t = c.tag t := by
  simp only [step, hv, hk]

/-- A step that goes well is one of those it may take. -/
theorem takes_of_step (hv : c.verbatim = none) (h : c.step t = .ok c') : c.Takes t c' := by
  cases hk : t.kind with
  | text =>
    rw [step_text hv hk] at h
    cases h
    exact .text hk
  | comment =>
    rw [step_comment hv hk] at h
    cases h
    exact .comment hk
  | interpolation =>
    rw [step_output hv hk] at h
    obtain ⟨e, he, rfl⟩ := output_eq_ok_iff.1 h
    exact .output hk he
  | tag =>
    rw [step_tag hv hk] at h
    obtain ⟨name, parts, ht⟩ := exists_tagged_of_tag hk h
    cases hf : c.frames with
    | nil =>
      have hnot : c.awaits name = false := by rw [awaits, hf]; rfl
      rw [tag_eq_openTag ht hnot] at h
      exact takes_of_openTag ht hnot h
    | cons frame rest =>
      by_cases ha : frame.part.awaited.contains name
      · rw [tag_eq_close ht hf ha] at h
        exact takes_of_close ht hf ha h
      · have hnot : c.awaits name = false := by
          rw [awaits, hf]
          exact Bool.eq_false_iff.2 ha
        rw [tag_eq_openTag ht hnot] at h
        exact takes_of_openTag ht hnot h

theorem openTag_of_step (hv : c.verbatim = none) (ht : c.Tagged t name parts)
    (hnot : c.awaits name = false) (h : c.step t = .ok c') :
    c.openTag name t.span parts = .ok c' := by
  rwa [step_tag hv ht.kind, tag_eq_openTag ht hnot] at h

/-- **What a tag of a library does** is what the latest tag of its name does. -/
theorem step_libraryTag (hv : c.verbatim = none) (ht : c.Tagged t name parts) (hnew : name ∉ tagNames)
    (hnot : c.awaits name = false) :
    c.step t = match c.tags.lookup name with
      | some (tag, loaded) => do return c.add (.call t.span (← c.reader.tagCall tag loaded t.span parts))
      | none => .error (c.unknownTag name t.span) := by
  simp only [tagNames, List.mem_cons, List.not_mem_nil, or_false, not_or] at hnew
  obtain ⟨h1, h2, h3, h4, h5, h6⟩ := hnew
  rw [step_tag hv ht.kind, tag_eq_openTag ht hnot]
  unfold openTag
  split
  · exact absurd rfl h1
  · exact absurd rfl h2
  · exact absurd rfl h3
  · exact absurd rfl h4
  · exact absurd rfl h5
  · exact absurd rfl h6
  · rfl

/-- The steps a compiler may take go well. -/
theorem step_of_takes (hv : c.verbatim = none) (h : c.Takes t c') : c.step t = .ok c' := by
  have hopen {name : String} {parts : Span} (ht : c.Tagged t name parts)
      (hn : c.awaits name = false) : c.step t = c.openTag name t.span parts :=
    (step_tag hv ht.kind).trans (tag_eq_openTag ht hn)
  cases h with
  | text hk => exact step_text hv hk
  | comment hk => exact step_comment hv hk
  | output hk he =>
    rw [step_output hv hk]
    exact output_eq_ok_iff.2 ⟨_, he, rfl⟩
  | autoescape ht hs =>
    rw [hopen ht (awaits_eq_false (by decide))]
    exact bind_eq_ok.2 ⟨_, hs, rfl⟩
  | loop ht hh =>
    rw [hopen ht (awaits_eq_false (by decide))]
    exact bind_eq_ok.2 ⟨_, hh, rfl⟩
  | choice ht hc =>
    rw [hopen ht (awaits_eq_false (by decide))]
    exact bind_eq_ok.2 ⟨_, hc, rfl⟩
  | load ht hl =>
    rw [hopen ht (awaits_eq_false (by decide))]
    exact bind_eq_ok.2 ⟨_, hl, rfl⟩
  | route ht hc =>
    rw [hopen ht (awaits_eq_false (by decide))]
    exact bind_eq_ok.2 ⟨_, hc, rfl⟩
  | verbatim ht ho =>
    have htoken : (⟨.tag, t.span⟩ : Token) = t := by rw [← ht.kind]
    rw [hopen ht (awaits_eq_false (by decide))]
    simp only [openTag, htoken, ho, if_true]
  | call ht hnew hnot hl hc =>
    rw [step_libraryTag hv ht hnew hnot, hl]
    exact bind_eq_ok.2 ⟨_, hc, rfl⟩
  | elif ht hf hc =>
    rw [step_tag hv ht.kind, tag_eq_close ht hf rfl]
    exact bind_eq_ok.2 ⟨_, hc, rfl⟩
  | otherwise ht hf | endBranch ht hf | endOtherwise ht hf | empty ht hf | endLoop ht hf
  | endEmpty ht hf | endAutoescape ht hf =>
    rw [step_tag hv ht.kind, tag_eq_close ht hf rfl]
    rfl

/-- **The steps of a compiler** outside of verbatim blocks that go well. -/
theorem step_eq_ok_iff (hv : c.verbatim = none) : c.step t = .ok c' ↔ c.Takes t c' :=
  ⟨takes_of_step hv, step_of_takes hv⟩

end Galley.Compiler
