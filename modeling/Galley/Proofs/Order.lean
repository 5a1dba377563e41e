import Galley.Proofs.Transitions
import Mathlib.Data.List.Forall2

/-!
# Nodes in the order of their tokens

A template without verbatim blocks loses nothing when it is compiled, and changes no order. The nodes
of its tree, each before those in it, are made of its tokens, one of each, but for the comments and for
the tags that close a block or divide it.

* `Node.walk`, `walkAll`: the nodes of a tree, in the order of the document.
* `Awaited`, `Awaited.behind`: what open blocks await, told by the names of tags alone.
* `placed`: the tokens that nodes are made of.
* `Compiler.trail`: what a compiler has read, in the order of the document.
* `walkAll_compile`: a compiled template has its tokens in order.
-/

namespace Galley

variable {source : List Char} {c c' : Compiler} {t : Token}

/-! ## Nodes in order -/

mutual

/-- **A node and all nodes in it,** in the order of the document. -/
def Node.walk : Node → List Node
  | .autoescape span enabled body => .autoescape span enabled body :: walkAll body
  | .choice span condition truthy falsey =>
    .choice span condition truthy falsey :: (walkAll truthy ++ walkAll falsey)
  | .loop span header body empty => .loop span header body empty :: (walkAll body ++ walkAll empty)
  | node => [node]

/-- All nodes of a tree. -/
def walkAll : List Node → List Node
  | [] => []
  | node :: rest => node.walk ++ walkAll rest

end

theorem walkAll_append (first second : List Node) :
    walkAll (first ++ second) = walkAll first ++ walkAll second := by
  induction first with
  | nil => rfl
  | cons node rest ih => rw [List.cons_append, walkAll, walkAll, ih, List.append_assoc]

/-! ## Tokens that make nodes -/

/-- The name of a tag; one that has no name is empty. -/
def Token.name (source : List Char) (t : Token) : String :=
  match TagWords.read? (t.content source) (t.span.start + 2) with
  | .ok (some words) => String.ofList (words.name.slice source)
  | _ => ""

/-- The names that the open blocks await, those of the innermost block first. -/
abbrev Awaited := List (List String)

namespace Awaited

/-- What the part of a block awaits that a tag with a name opens; other tags open none. -/
def opened : String → Awaited
  | "if" | "elif" => [["elif", "else", "endif"]]
  | "else" => [["endif"]]
  | "for" => [["empty", "endfor"]]
  | "empty" => [["endfor"]]
  | "autoescape" => [["endautoescape"]]
  | _ => []

/-- Whether the innermost block awaits a name. -/
def awaits (blocks : Awaited) (name : String) : Bool := blocks.head?.any (·.contains name)

/-- **What is awaited behind a tag.** An awaited one ends a part of a block and may open the next
one; any other tag opens a block if it is one of the three that have an end. -/
def behind (blocks : Awaited) (name : String) : Awaited :=
  if blocks.awaits name then opened name ++ blocks.tail
  else if name ∈ ["if", "for", "autoescape"] then opened name ++ blocks
  else blocks

/-- Whether a tag only closes or divides a block. -/
def divides (blocks : Awaited) (name : String) : Bool :=
  blocks.awaits name && ["else", "empty", "endif", "endfor", "endautoescape"].contains name

/-- What is awaited behind a token. -/
def past (source : List Char) (blocks : Awaited) (t : Token) : Awaited :=
  if t.kind = .tag then blocks.behind (t.name source) else blocks

/-- Whether a token is left out of the tree: a comment, and a tag that only closes or divides a
block. -/
def leavesOut (source : List Char) (blocks : Awaited) (t : Token) : Bool :=
  t.kind = .comment || (t.kind = .tag && blocks.divides (t.name source))

end Awaited

/-- **The tokens that nodes are made of.** -/
def placed (source : List Char) : Awaited → List Token → List Token
  | _, [] => []
  | blocks, t :: rest =>
    let later := placed source (Awaited.past source blocks t) rest
    if Awaited.leavesOut source blocks t then later else t :: later

/-- **What becomes of a token:** a text is a text node with its content, a variable is written or
translated, and a tag is a node of another kind. All stand at the place of the token. -/
def Token.Becomes (source : List Char) (t : Token) (node : Node) : Prop :=
  match t.kind with
  | .text => node = .text t.span (String.ofList (t.content source))
  | .interpolation => (∃ e, node = .output t.span e) ∨ ∃ text, node = .translated t.span text
  | .tag => node.span = t.span ∧
    ∀ s text e, node ≠ .text s text ∧ node ≠ .output s e ∧ node ≠ .translated s text
  | .comment => False

/-! ## What nodes are made of -/

/-- The token that a node is made of, and the text that is kept of it. -/
def Node.origin : Node → Token × List Char
  | .text span kept => (⟨.text, span⟩, kept.toList)
  | .output span _ | .translated span _ => (⟨.interpolation, span⟩, [])
  | node => (⟨.tag, node.span⟩, [])

/-- A token and the text that is kept of it. -/
def Token.origin (source : List Char) (t : Token) : Token × List Char :=
  (t, if t.kind = .text then t.content source else [])

theorem Token.origin_of_tag (hk : t.kind = .tag) : t.origin source = (⟨.tag, t.span⟩, []) := by
  unfold origin
  rw [if_neg (by rw [hk]; decide), ← hk]

theorem Token.becomes_of_origin {node : Node} (h : node.origin = t.origin source)
    (hk : t.kind ≠ .comment) : t.Becomes source node := by
  obtain ⟨kind, span⟩ := t
  cases kind with
  | text =>
    cases node with
    | text place kept =>
      obtain ⟨hplace, hkept⟩ := Prod.mk.inj h
      cases hplace
      rw [if_pos rfl] at hkept
      exact congrArg (Node.text span) (String.ofList_toList.symm.trans (congrArg _ hkept))
    | _ => cases h
  | interpolation =>
    cases node <;> cases h
    · exact .inr ⟨_, rfl⟩
    · exact .inl ⟨_, rfl⟩
  | tag =>
    cases node <;> cases h
    all_goals exact ⟨rfl, fun _ _ _ => ⟨nofun, nofun, nofun⟩⟩
  | comment => exact absurd rfl hk

theorem Node.span_origin (node : Node) : node.origin.1.span = node.span := by
  cases node <;> rfl

/-- What some nodes and those in them are made of. -/
def origins (nodes : List Node) : List (Token × List Char) := (walkAll nodes).map Node.origin

theorem origins_append (first second : List Node) :
    origins (first ++ second) = origins first ++ origins second := by
  rw [origins, walkAll_append, List.map_append, origins, origins]

/-- What a branch is made of. -/
def Branch.trail (b : Branch) : List (Token × List Char) := (⟨.tag, b.span⟩, []) :: origins b.body

/-- What has been read of a block before the body of its innermost part. -/
def Part.trail : Part → List (Token × List Char)
  | .branch earlier _ span _ => earlier.flatMap Branch.trail ++ [(⟨.tag, span⟩, [])]
  | .otherwise earlier _ => earlier.flatMap Branch.trail
  | .loop span _ | .autoescape span _ => [(⟨.tag, span⟩, [])]
  | .empty span _ body _ => (⟨.tag, span⟩, []) :: origins body

/-- What has been read of a block. -/
def Frame.trail (f : Frame) : List (Token × List Char) := f.part.trail ++ origins f.nodes.reverse

/-- The nodes of a chain of branches are made of its branches and of what stands for all others. -/
theorem origins_chainOf (branches : List Branch) (otherwise : List Node) :
    origins (Compiler.chainOf branches otherwise) =
      branches.flatMap Branch.trail ++ origins otherwise := by
  induction branches with
  | nil => rfl
  | cons b rest ih =>
    have hchain : origins (Compiler.chainOf (b :: rest) otherwise) =
        (⟨.tag, b.span⟩, []) :: (origins b.body ++ origins (Compiler.chainOf rest otherwise)) := by
      simp [Compiler.chainOf, origins, walkAll, Node.walk, Node.origin, Node.span]
    rw [hchain, ih, List.flatMap_cons, Branch.trail, List.cons_append, List.cons_append,
      List.append_assoc]

namespace Compiler

/-- **What a compiler has read,** in the order of the document. -/
def trail (c : Compiler) : List (Token × List Char) :=
  origins c.nodes.reverse ++ c.frames.reverse.flatMap Frame.trail

/-- What the open parts await. -/
def awaited (c : Compiler) : Awaited := c.frames.map (·.part.awaited)

/-! ## The ways to build a compiler -/

theorem trail_leave {frame : Frame} {rest : List Frame} (hf : c.frames = frame :: rest) :
    c.trail = ({ c with frames := rest } : Compiler).trail ++ frame.trail := by
  simp only [trail, hf, List.reverse_cons, List.flatMap_append, List.flatMap_singleton,
    List.append_assoc]

theorem trail_enter (c : Compiler) (part : Part) : (c.enter part).trail = c.trail ++ part.trail := by
  rw [trail_leave (c := c.enter part) rfl, Frame.trail]
  simp [enter, trail, origins, walkAll]

theorem trail_add (c : Compiler) (node : Node) :
    (c.add node).trail = c.trail ++ node.walk.map Node.origin := by
  have hnode (nodes : List Node) :
      origins (node :: nodes).reverse = origins nodes.reverse ++ node.walk.map Node.origin := by
    rw [List.reverse_cons, origins_append]
    simp [origins, walkAll]
  unfold add
  split
  · next hf => simp only [trail, hf, hnode, List.reverse_nil, List.flatMap_nil, List.append_nil]
  · next frame rest hf =>
    rw [trail_leave hf, trail_leave (c := { c with frames := _ :: rest }) rfl]
    simp only [Frame.trail, hnode, List.append_assoc]

theorem trail_addAll (c : Compiler) (nodes : List Node) :
    (nodes.foldl add c).trail = c.trail ++ origins nodes := by
  induction nodes generalizing c with
  | nil => exact (List.append_nil _).symm
  | cons node rest ih =>
    rw [List.foldl_cons, ih, trail_add, List.append_assoc, origins, origins, walkAll,
      List.map_append]

theorem trail_addChain (c : Compiler) (branches : List Branch) (otherwise : List Node) :
    (c.addChain branches otherwise).trail =
      c.trail ++ (branches.flatMap Branch.trail ++ origins otherwise) := by
  rw [addChain, trail_addAll, origins_chainOf]

/-- What a node is added to stays open, and reads the same text. -/
theorem awaited_add (c : Compiler) (node : Node) :
    (c.add node).awaited = c.awaited ∧ (c.add node).source = c.source ∧
      (c.add node).verbatim = c.verbatim := by
  unfold add awaited
  split
  · exact ⟨rfl, rfl, rfl⟩
  · next hf => simp [hf]

theorem awaited_addChain (c : Compiler) (branches : List Branch) (otherwise : List Node) :
    (c.addChain branches otherwise).awaited = c.awaited ∧
      (c.addChain branches otherwise).source = c.source ∧
      (c.addChain branches otherwise).verbatim = c.verbatim := by
  unfold addChain
  generalize chainOf branches otherwise = nodes
  induction nodes generalizing c with
  | nil => exact ⟨rfl, rfl, rfl⟩
  | cons node rest ih =>
    obtain ⟨hawaited, hsource, hverbatim⟩ := c.awaited_add node
    rw [List.foldl_cons, ← hawaited, ← hsource, ← hverbatim]
    exact ih (c.add node)

/-! ## Tokens -/

theorem Tagged.name_eq {name : String} {parts : Span} (h : c.Tagged t name parts)
    (hs : c.source = source) : t.name source = name := by
  subst hs
  obtain ⟨words, hwords, rfl, -⟩ := h.words
  unfold Token.name
  rw [hwords]
  rfl

theorem awaits_awaited (c : Compiler) (name : String) : c.awaited.awaits name = c.awaits name := by
  unfold Awaited.awaits awaited awaits
  cases c.frames <;> rfl

/-- A compiler **went on** with a token if it reads the same text, awaits what is awaited behind the
token, and has read the token, unless this is left out of the tree. -/
structure WentOn (c : Compiler) (source : List Char) (t : Token) (c' : Compiler) : Prop where
  source_eq : c'.source = source
  verbatim : c'.verbatim = none
  awaited : c'.awaited = Awaited.past source c.awaited t
  trail : c'.trail = c.trail ++
    if Awaited.leavesOut source c.awaited t then [] else [t.origin source]

/-- A tag that adds a node. -/
theorem wentOn_add {name : String} {parts : Span} {node : Node} (hs : c.source = source)
    (hv : c.verbatim = none) (ht : c.Tagged t name parts) (hnot : c.awaits name = false)
    (hname : name ∉ ["if", "for", "autoescape"])
    (hnode : node.walk.map Node.origin = [(⟨.tag, t.span⟩, [])]) :
    WentOn c source t (c.add node) := by
  have hn := ht.name_eq hs
  have hawaits : c.awaited.awaits name = false := by rw [awaits_awaited, hnot]
  obtain ⟨hawaited, hsource, hverbatim⟩ := c.awaited_add node
  refine ⟨hsource.trans hs, hverbatim.trans hv, ?_, ?_⟩
  · rw [hawaited, Awaited.past, if_pos ht.kind, hn, Awaited.behind, hawaits, if_neg hname,
      if_neg Bool.false_ne_true]
  · rw [trail_add, hnode, Token.origin_of_tag ht.kind]
    simp [Awaited.leavesOut, ht.kind, hn, Awaited.divides, hawaits]

/-- A tag that opens a block. -/
theorem wentOn_enter {name : String} {parts : Span} {part : Part} (hs : c.source = source)
    (hv : c.verbatim = none) (ht : c.Tagged t name parts)
    (hname : name ∈ ["if", "for", "autoescape"]) (hopened : Awaited.opened name = [part.awaited])
    (hpart : part.trail = [(⟨.tag, t.span⟩, [])]) : WentOn c source t (c.enter part) := by
  have hn := ht.name_eq hs
  have hnot : c.awaits name = false := by
    refine awaits_eq_false ?_
    simp only [List.mem_cons, List.not_mem_nil, or_false] at hname
    rcases hname with rfl | rfl | rfl <;> decide
  have hawaits : c.awaited.awaits name = false := by rw [awaits_awaited, hnot]
  refine ⟨hs, hv, ?_, ?_⟩
  · rw [Awaited.past, if_pos ht.kind, hn, Awaited.behind, hawaits, if_neg Bool.false_ne_true,
      if_pos hname, hopened]
    rfl
  · rw [trail_enter, hpart, Token.origin_of_tag ht.kind]
    simp [Awaited.leavesOut, ht.kind, hn, Awaited.divides, hawaits]

/-- A tag that the innermost part awaits: its name alone tells what is awaited behind it, and whether
it is left out. -/
theorem wentOn_close {name : String} {parts : Span} {frame : Frame} {rest : List Frame}
    (hs : c.source = source) (ht : c.Tagged t name parts) (hf : c.frames = frame :: rest)
    (ha : frame.part.awaited.contains name) (hs' : c'.source = source)
    (hv : c'.verbatim = none)
    (hawaited : c'.awaited = Awaited.opened name ++ rest.map (·.part.awaited))
    (htrail : c'.trail = ({ c with frames := rest } : Compiler).trail ++ (frame.trail ++
      if ["else", "empty", "endif", "endfor", "endautoescape"].contains name then []
      else [(⟨.tag, t.span⟩, [])])) : WentOn c source t c' := by
  have hn := ht.name_eq hs
  have hawaits : c.awaited.awaits name = true := by
    rw [awaits_awaited, awaits, hf]
    exact ha
  have htail : c.awaited.tail = rest.map (·.part.awaited) := by
    rw [awaited, hf]
    rfl
  refine ⟨hs', hv, ?_, ?_⟩
  · rw [hawaited, Awaited.past, if_pos ht.kind, hn, Awaited.behind, hawaits, if_pos rfl, htail]
  · rw [htrail, trail_leave hf, List.append_assoc, Token.origin_of_tag ht.kind]
    simp [Awaited.leavesOut, ht.kind, hn, Awaited.divides, hawaits]

/-- **One token.** -/
theorem wentOn_of_takes (h : c.Takes t c') (hs : c.source = source) (hv : c.verbatim = none)
    (hname : t.kind = .tag → t.name source ≠ "verbatim") : WentOn c source t c' := by
  have hleft (node : Node) (hk : t.kind ≠ .tag) (hk' : t.kind ≠ .comment)
      (hnode : node.walk.map Node.origin = [t.origin source]) :
      WentOn c source t (c.add node) := by
    obtain ⟨hawaited, hsource, hverbatim⟩ := c.awaited_add node
    refine ⟨hsource.trans hs, hverbatim.trans hv, ?_, ?_⟩
    · rw [hawaited, Awaited.past, if_neg hk]
    · rw [trail_add, hnode]
      simp [Awaited.leavesOut, hk, hk']
  cases h with
  | text hk =>
    refine hleft _ (by rw [hk]; decide) (by rw [hk]; decide) ?_
    obtain ⟨kind, span⟩ := t
    cases hk
    simp [Node.walk, Node.origin, Token.origin, hs]
  | comment hk =>
    refine ⟨hs, hv, ?_, ?_⟩
    · rw [Awaited.past, if_neg (by rw [hk]; decide)]
    · simp [Awaited.leavesOut, hk]
  | @output e hk he =>
    refine hleft _ (by rw [hk]; decide) (by rw [hk]; decide) ?_
    obtain ⟨kind, span⟩ := t
    cases hk
    unfold outputNode
    split <;> rfl
  | autoescape ht _ => exact wentOn_enter hs hv ht (by decide) rfl rfl
  | loop ht _ => exact wentOn_enter hs hv ht (by decide) rfl rfl
  | choice ht _ => exact wentOn_enter hs hv ht (by decide) rfl rfl
  | load ht hl =>
    -- what a library brings in is not part of the tree
    obtain ⟨filters, tags, rfl⟩ := exists_of_load hl
    have hadd : WentOn { c with filters, tags } source t
        (({ c with filters, tags } : Compiler).add (.load t.span)) :=
      wentOn_add hs hv ⟨ht.kind, ht.words⟩ (awaits_eq_false (by decide)) (by decide) rfl
    exact ⟨hadd.source_eq, hadd.verbatim, hadd.awaited, hadd.trail⟩
  | route ht _ => exact wentOn_add hs hv ht (awaits_eq_false (by decide)) (by decide) rfl
  | verbatim ht _ => exact absurd (ht.name_eq hs) (hname ht.kind)
  | call ht hnew hnot _ _ =>
    refine wentOn_add hs hv ht hnot (fun hmem => hnew ?_) rfl
    simp only [List.mem_cons, List.not_mem_nil, or_false] at hmem
    rcases hmem with rfl | rfl | rfl <;> decide
  | elif ht hf _ =>
    refine wentOn_close hs ht hf rfl hs hv rfl ?_
    rw [trail_enter]
    simp [Part.trail, Frame.trail, Branch.trail, Compiler.trail]
  | otherwise ht hf =>
    refine wentOn_close hs ht hf rfl hs hv rfl ?_
    rw [trail_enter]
    simp [Part.trail, Frame.trail, Branch.trail, Compiler.trail]
  | @endBranch _ _ earlier _ condition nodes rest ht hf =>
    obtain ⟨hawaited, hsource, hverbatim⟩ := awaited_addChain { c with frames := rest }
      (earlier ++ [⟨_, condition, nodes.reverse⟩]) []
    refine wentOn_close hs ht hf rfl (hsource.trans hs) (hverbatim.trans hv) hawaited ?_
    rw [trail_addChain]
    simp [Part.trail, Frame.trail, Branch.trail, origins, walkAll]
  | @endOtherwise _ _ earlier nodes rest ht hf =>
    obtain ⟨hawaited, hsource, hverbatim⟩ :=
      awaited_addChain { c with frames := rest } earlier nodes.reverse
    refine wentOn_close hs ht hf rfl (hsource.trans hs) (hverbatim.trans hv) hawaited ?_
    rw [trail_addChain]
    simp [Part.trail, Frame.trail]
  | empty ht hf =>
    refine wentOn_close hs ht hf rfl hs hv rfl ?_
    rw [trail_enter]
    simp [Part.trail, Frame.trail, Compiler.trail]
  | @endLoop _ tag header nodes rest ht hf =>
    obtain ⟨hawaited, hsource, hverbatim⟩ :=
      awaited_add { c with frames := rest } (.loop tag header nodes.reverse [])
    refine wentOn_close hs ht hf rfl (hsource.trans hs) (hverbatim.trans hv) hawaited ?_
    rw [trail_add]
    simp [Part.trail, Frame.trail, Node.walk, Node.origin, Node.span, origins, walkAll]
  | @endEmpty _ tag _ header body nodes rest ht hf =>
    obtain ⟨hawaited, hsource, hverbatim⟩ :=
      awaited_add { c with frames := rest } (.loop tag header body nodes.reverse)
    refine wentOn_close hs ht hf rfl (hsource.trans hs) (hverbatim.trans hv) hawaited ?_
    rw [trail_add]
    simp [Part.trail, Frame.trail, Node.walk, Node.origin, Node.span, origins]
  | @endAutoescape _ tag enabled nodes rest ht hf =>
    obtain ⟨hawaited, hsource, hverbatim⟩ :=
      awaited_add { c with frames := rest } (.autoescape tag enabled nodes.reverse)
    refine wentOn_close hs ht hf rfl (hsource.trans hs) (hverbatim.trans hv) hawaited ?_
    rw [trail_add]
    simp [Part.trail, Frame.trail, Node.walk, Node.origin, Node.span, origins]

/-- **All tokens,** one after the other. -/
theorem trail_of_run {tokens : List Token} (hs : c.source = source) (hv : c.verbatim = none)
    (hname : ∀ t ∈ tokens, t.kind = .tag → t.name source ≠ "verbatim")
    (h : tokens.foldlM step c = .ok c') :
    c'.verbatim = none ∧
      c'.trail = c.trail ++ (placed source c.awaited tokens).map (Token.origin source) := by
  induction tokens generalizing c with
  | nil =>
    cases h
    exact ⟨hv, (List.append_nil _).symm⟩
  | cons t rest ih =>
    rw [List.foldlM_cons, bind_eq_ok] at h
    obtain ⟨next, hnext, h⟩ := h
    obtain ⟨hfirst, hrest⟩ := List.forall_mem_cons.1 hname
    have hwent := wentOn_of_takes ((step_eq_ok_iff hv).1 hnext) hs hv hfirst
    obtain ⟨hverbatim, htrail⟩ := ih hwent.source_eq hwent.verbatim hrest h
    refine ⟨hverbatim, ?_⟩
    rw [htrail, hwent.trail, hwent.awaited, List.append_assoc, placed]
    split <;> simp

end Compiler

/-- Only comments and the tags that close or divide a block are left out. -/
theorem kind_of_mem_placed {blocks : Awaited} {tokens : List Token}
    (h : t ∈ placed source blocks tokens) : t.kind ≠ .comment := by
  induction tokens generalizing blocks with
  | nil => cases h
  | cons first rest ih =>
    rw [placed] at h
    split at h
    · exact ih h
    · next hleft =>
      rcases List.mem_cons.1 h with rfl | h
      · intro hk
        simp [Awaited.leavesOut, hk] at hleft
      · exact ih h

/-- **Compiling loses, doubles and reorders nothing.** In a template without a verbatim tag that
compiles, the nodes of the tree in the order of the document stand at the places of the tokens, in
their order, but for the comments and the tags that only close or divide a block; and each node is
what becomes of its token. -/
theorem walkAll_compile {libraries : List (String × Library)} {nodes : List Node}
    (h : compile source libraries = .ok nodes)
    (hname : ∀ t ∈ Token.scan source, t.kind = .tag → t.name source ≠ "verbatim") :
    (walkAll nodes).map Node.span = (placed source [] (Token.scan source)).map Token.span ∧
      List.Forall₂ (Token.Becomes source) (placed source [] (Token.scan source)) (walkAll nodes) := by
  unfold compile at h
  rw [bind_eq_ok] at h
  obtain ⟨c, hrun, hfinish⟩ := h
  obtain ⟨hverbatim, htrail⟩ :=
    Compiler.trail_of_run (c := { source, libraries }) rfl rfl hname hrun
  -- at the end no part is open
  have horigins : (walkAll nodes).map Node.origin =
      (placed source [] (Token.scan source)).map (Token.origin source) := by
    unfold Compiler.finish at hfinish
    rw [hverbatim] at hfinish
    cases hf : c.frames with
    | cons frame rest =>
      rw [hf] at hfinish
      cases hfinish
    | nil =>
      rw [hf] at hfinish
      cases hfinish
      have hleft : c.trail = origins c.nodes.reverse := by simp [Compiler.trail, hf]
      rw [hleft] at htrail
      exact htrail
  constructor
  · have hspans := congrArg (List.map fun origin : Token × List Char => origin.1.span) horigins
    simpa [List.map_map, Function.comp_def, Node.span_origin, Token.origin] using hspans
  · have hpairs : List.Forall₂ Eq ((walkAll nodes).map Node.origin)
        ((placed source [] (Token.scan source)).map (Token.origin source)) := by
      rw [List.forall₂_eq_eq_eq]
      exact horigins
    rw [List.forall₂_map_left_iff, List.forall₂_map_right_iff] at hpairs
    have hkinds : ∀ t ∈ placed source [] (Token.scan source), t.kind ≠ .comment :=
      fun _ => kind_of_mem_placed
    refine ((List.forall₂_and_left _ _).2 ⟨hkinds, hpairs.flip⟩).imp ?_
    intro t node ⟨hk, horigin⟩
    exact Token.becomes_of_origin horigin hk

/-- A chain of branches with a comment in it. -/
theorem walkAll_compile_chain :
    ∃ nodes,
      compile "{% if x %}a{% elif y %}{# c #}{% else %}{{ z }}{% endif %}".toList [] = .ok nodes ∧
      (walkAll nodes).map Node.span = [⟨0, 10⟩, ⟨10, 1⟩, ⟨11, 12⟩, ⟨40, 7⟩] := by
  have hscan : Token.scan "{% if x %}a{% elif y %}{# c #}{% else %}{{ z }}{% endif %}".toList =
      [⟨.tag, ⟨0, 10⟩⟩, ⟨.text, ⟨10, 1⟩⟩, ⟨.tag, ⟨11, 12⟩⟩, ⟨.comment, ⟨23, 7⟩⟩, ⟨.tag, ⟨30, 10⟩⟩,
        ⟨.interpolation, ⟨40, 7⟩⟩, ⟨.tag, ⟨47, 11⟩⟩] := by decide +kernel
  have hcompile : compile "{% if x %}a{% elif y %}{# c #}{% else %}{{ z }}{% endif %}".toList [] =
      .ok [.choice ⟨0, 10⟩ (.operand ⟨.path ⟨6, 1⟩ "x" [], []⟩) [.text ⟨10, 1⟩ "a"]
        [.choice ⟨11, 12⟩ (.operand ⟨.path ⟨19, 1⟩ "y" [], []⟩) []
          [.output ⟨40, 7⟩ ⟨.path ⟨43, 1⟩ "z" [], []⟩]]] := by
    rw [compile, hscan]
    rfl
  obtain ⟨hspans, -⟩ := walkAll_compile hcompile (by rw [hscan]; decide +kernel)
  exact ⟨_, hcompile, hspans.trans (by rw [hscan]; decide +kernel)⟩

end Galley
