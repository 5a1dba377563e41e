import Galley.Proofs.Operands
import Galley.Proofs.Transitions

/-!
# The loops around what is read

A compiler reads the expressions of a token while some loops are open. They are the loops around the
node or the part that it makes of the token, and stay so until the template is compiled.

* `Expression.atoms`: what is looked up.
* `Compiler.openLoops`: the loops whose bodies are open.
* `Compiler.Finds`: the expressions that are read from a token.
* `Compiler.Finds.chain_or_made`, `Compiler.Finds.exists_operand`: how they were read, and that their
  atoms are read by the reader of that moment.
* `Node.Holds`, `AllHold`: a property of the expressions of nodes and of the loops around them.
* `Compiler.Holds.takes`, `Compiler.holds_run`: what holds of the expressions found in each token holds
  of all that is read.
* `allHold_of_finds`: the same of a whole template.
* `allHold_compile`: **every expression of a template was read between its loops.**
-/

namespace Galley

/-! ## What is looked up -/

/-- The atoms of an expression: its head and the arguments of its filters. -/
def Expression.atoms (e : Expression) : List Atom := e.head :: e.filters.filterMap (·.argument)

namespace Reader

variable {r : Reader} {e : Expression} {a : Atom} {tag parts : Span}

theorem exists_operand_of_filterUse {word : FilterWord} {use : FilterUse}
    (h : r.filterUse word = .ok use) (ha : use.argument = some a) :
    ∃ operand, r.atom operand = .ok a := by
  unfold filterUse at h
  dsimp only at h
  split at h
  · obtain ⟨argument, hnone, h⟩ := bind_eq_ok.1 h
    obtain ⟨_, -, h⟩ := bind_eq_ok.1 h
    obtain ⟨_, -, h⟩ := bind_eq_ok.1 h
    cases h
    cases hnone
    cases ha
  · next operand _ =>
    obtain ⟨argument, hread, h⟩ := bind_eq_ok.1 h
    obtain ⟨_, -, h⟩ := bind_eq_ok.1 h
    obtain ⟨_, -, h⟩ := bind_eq_ok.1 h
    cases h
    obtain ⟨a', ha', hsome⟩ := map_eq_ok hread
    cases hsome.trans ha
    exact ⟨operand, ha'⟩

theorem exists_operand_of_chain {content : List Char} {whole : Span} {start : Nat}
    (h : r.chain content whole start = .ok e) (ha : a ∈ e.atoms) :
    ∃ operand, r.atom operand = .ok a := by
  unfold chain at h
  obtain ⟨chain?, -, h⟩ := bind_eq_ok.1 h
  cases chain? with
  | none => cases h
  | some read =>
    obtain ⟨head, hhead, h⟩ := bind_eq_ok.1 h
    obtain ⟨uses, huses, h⟩ := bind_eq_ok.1 h
    cases h
    rcases List.mem_cons.1 ha with rfl | ha
    · exact ⟨_, hhead⟩
    · obtain ⟨use, hmem, hargument⟩ := List.mem_filterMap.1 ha
      obtain ⟨word, -, hword⟩ := exists_of_mem_mapM (Cursor.Words.mapM_words huses) hmem
      exact exists_operand_of_filterUse hword hargument

theorem exists_operand_of_expression {operand : Operand} (h : r.expression operand = .ok e)
    (ha : a ∈ e.atoms) : ∃ operand, r.atom operand = .ok a := by
  unfold expression at h
  split at h
  · exact exists_operand_of_chain h ha
  · obtain ⟨a', ha', h⟩ := bind_eq_ok.1 h
    cases h
    rw [Expression.atoms, List.filterMap_nil, List.mem_singleton] at ha
    exact ⟨operand, ha ▸ ha'⟩

/-! ## Expressions of tags -/

/-- An expression **was read** from the parts of a tag: it is that of an operand, which stands in the
text if the parts do. -/
def WasRead (r : Reader) (parts : Span) (e : Expression) : Prop :=
  ∃ operand, (parts.Within r.source → operand.StandsIn r.source) ∧ r.expression operand = .ok e

/-- What is made of operands that stand in parts was read from them. -/
theorem wasRead_of_makes {operands : List Operand} {P : Expression → Prop}
    (h : r.Makes operands P) (hin : parts.Within r.source → r.StandIn parts operands) (he : P e) :
    r.WasRead parts e := by
  obtain ⟨o, ho, hread⟩ := h.only e he
  exact ⟨o, fun hparts => (hin hparts o ho).1, hread⟩

end Reader

/-! ## Open loops -/

/-- The tag and the header of a loop whose body is open. -/
def Part.loop? : Part → Option (Span × LoopHeader)
  | .loop span header => some (span, header)
  | _ => none

/-- The loops among parts of blocks. -/
def loopsOf (frames : List Frame) : List (Span × LoopHeader) := frames.filterMap (·.part.loop?)

namespace Compiler

variable {c c' : Compiler} {t : Token} {e : Expression} {a : Atom}

/-- **The open loops** of a compiler, the innermost first: those whose bodies it reads. -/
def openLoops (c : Compiler) : List (Span × LoopHeader) := loopsOf c.frames

/-- The depth that expressions are read at is the number of open loops. -/
theorem loopDepth_reader (c : Compiler) : c.reader.loopDepth = c.openLoops.length := by
  have hpart (frame : Frame) : frame.part.isLoop = frame.part.loop?.isSome := by
    cases frame.part <;> rfl
  simp only [reader, openLoops, loopsOf, List.length_filterMap_eq_countP, hpart]

/-- A part that is no loop leaves the depth alone. -/
theorem reader_leave {frame : Frame} {rest : List Frame} (hf : c.frames = frame :: rest)
    (hpart : frame.part.isLoop = false) : ({ c with frames := rest } : Compiler).reader = c.reader := by
  simp only [reader, hf, List.countP_cons, hpart, Bool.false_eq_true, if_false, Nat.add_zero]

/-- **The condition of a branch** is read under the loops around the token. -/
theorem exists_condition_of_step {name : String} {parts : Span} (hv : c.verbatim = none)
    (ht : c.Tagged t name parts) (hname : name = "if" ∨ name = "elif" ∧ c.awaits name)
    (h : c.step t = .ok c') : ∃ condition, c.reader.condition t.span parts = .ok condition := by
  rcases hname with rfl | ⟨rfl, hawaits⟩
  · have hopen := openTag_of_step hv ht (awaits_eq_false (by decide)) h
    obtain ⟨condition, hcondition, -⟩ := bind_eq_ok.1 hopen
    exact ⟨condition, hcondition⟩
  · cases hf : c.frames with
    | nil =>
      rw [awaits, hf] at hawaits
      cases hawaits
    | cons frame rest =>
      obtain ⟨part, nodes⟩ := frame
      rw [awaits, hf] at hawaits
      rw [step_tag hv ht.kind, tag_eq_close ht hf hawaits] at h
      cases part with
      | branch earlier name tag condition =>
        obtain ⟨condition', hcondition, -⟩ := bind_eq_ok.1 h
        rw [reader_leave hf rfl] at hcondition
        exact ⟨condition', hcondition⟩
      | otherwise | loop | empty | autoescape => cases hawaits

/-- **What is found** in a token: the expressions that are read from it. -/
inductive Finds (c : Compiler) (t : Token) : Expression → Prop
  | output {e : Expression} (hk : t.kind = .interpolation)
    (he : c.reader.chain (t.content c.source) t.span (t.span.start + 2) = .ok e) : Finds c t e
  | condition {e : Expression} {name : String} {parts : Span} {made : Condition Expression}
    (ht : c.Tagged t name parts) (hname : name = "if" ∨ name = "elif")
    (hc : c.reader.condition t.span parts = .ok made) (he : .operand e ∈ made.items) : Finds c t e
  | iterable {parts : Span} {header : LoopHeader} (ht : c.Tagged t "for" parts)
    (hh : c.reader.loopHeader t.span parts = .ok header) : Finds c t header.iterable
  | route {e : Expression} {parts : Span} {call : RouteCall} (ht : c.Tagged t "url" parts)
    (hc : c.reader.routeCall t.span parts = .ok call) (he : e ∈ call.expressions) : Finds c t e
  | call {e : Expression} {name : String} {parts loaded : Span} {tag : LoadedTag} {call : TagCall}
    (ht : c.Tagged t name parts) (hl : c.tags.lookup name = some (tag, loaded))
    (hc : c.reader.tagCall tag loaded t.span parts = .ok call) (he : e ∈ call.expressions) :
    Finds c t e

/-- **What is found was read** from the content of an output, or from operands in the parts of a tag. -/
theorem Finds.chain_or_made (h : c.Finds t e) :
    (t.kind ≠ .text ∧ c.reader.chain (t.content c.source) t.span (t.span.start + 2) = .ok e) ∨
      ∃ name parts operands P, c.Tagged t name parts ∧ c.reader.Makes operands P ∧
        (parts.Within c.source → c.reader.StandIn parts operands) ∧ P e := by
  cases h with
  | output hk he => exact .inl ⟨by rw [hk]; decide, he⟩
  | condition ht _ hc he =>
    exact .inr ⟨_, _, _, _, ht, Reader.makes_condition hc,
      fun hparts => Reader.standIn_condition (r := c.reader) hparts, he⟩
  | iterable ht hh =>
    exact .inr ⟨_, _, _, _, ht, Reader.makes_loopHeader hh,
      fun hparts => Reader.standIn_loop (r := c.reader) hparts, rfl⟩
  | route ht hc he =>
    exact .inr ⟨_, _, _, _, ht, Reader.makes_routeCall hc,
      fun hparts => Reader.standIn_route (r := c.reader) hparts, he⟩
  | call ht _ hc he =>
    exact .inr ⟨_, _, _, _, ht, Reader.makes_tagCall hc,
      fun hparts => Reader.standIn_call (r := c.reader) hparts, he⟩

theorem Finds.chain_or_wasRead (h : c.Finds t e) :
    (t.kind ≠ .text ∧ c.reader.chain (t.content c.source) t.span (t.span.start + 2) = .ok e) ∨
      ∃ name parts, c.Tagged t name parts ∧ c.reader.WasRead parts e := by
  refine h.chain_or_made.imp_right ?_
  rintro ⟨name, parts, operands, P, htag, hmakes, hin, he⟩
  exact ⟨name, parts, htag, Reader.wasRead_of_makes hmakes hin he⟩

/-- The atoms of what is found are read by the reader of the compiler. -/
theorem Finds.exists_operand (h : c.Finds t e) (ha : a ∈ e.atoms) :
    ∃ operand, c.reader.atom operand = .ok a := by
  rcases h.chain_or_wasRead with ⟨-, he⟩ | ⟨_, _, -, operand, -, he⟩
  · exact Reader.exists_operand_of_chain he ha
  · exact Reader.exists_operand_of_expression he ha

end Compiler

/-! ## Trees -/

section Holds

variable (Q : List (Span × LoopHeader) → Expression → Prop)

mutual

/-- **What holds of the expressions of a node** and the loops around each of them. The body of a loop
has this loop around it, its iterable and what stands for a loop without rounds do not. -/
def Node.Holds (loops : List (Span × LoopHeader)) : Node → Prop
  | .output _ e => Q loops e
  | .autoescape _ _ body => AllHold loops body
  | .choice _ condition truthy falsey =>
    (∀ e, .operand e ∈ condition.items → Q loops e) ∧ AllHold loops truthy ∧ AllHold loops falsey
  | .loop span header body empty =>
    Q loops header.iterable ∧ AllHold ((span, header) :: loops) body ∧ AllHold loops empty
  | .route _ call => ∀ e ∈ call.expressions, Q loops e
  | .call _ call => ∀ e ∈ call.expressions, Q loops e
  | _ => True

/-- What holds of the expressions of nodes. -/
def AllHold (loops : List (Span × LoopHeader)) : List Node → Prop
  | [] => True
  | node :: rest => node.Holds loops ∧ AllHold loops rest

end

/-- What holds of a branch that has been read. -/
def Branch.Holds (loops : List (Span × LoopHeader)) (b : Branch) : Prop :=
  (∀ e, .operand e ∈ b.condition.items → Q loops e) ∧ AllHold Q loops b.body

/-- What holds of a part that is open and of what was read of its block, with loops around it. -/
def Part.Holds (loops : List (Span × LoopHeader)) : Part → Prop
  | .branch earlier _ _ condition =>
    (∀ b ∈ earlier, b.Holds Q loops) ∧ ∀ e, .operand e ∈ condition.items → Q loops e
  | .otherwise earlier _ => ∀ b ∈ earlier, b.Holds Q loops
  | .loop _ header => Q loops header.iterable
  | .empty span header body _ =>
    Q loops header.iterable ∧ AllHold Q ((span, header) :: loops) body
  | .autoescape .. => True

/-- What holds of open parts, each with the loops of those around it. -/
def FramesHold : List Frame → Prop
  | [] => True
  | frame :: rest =>
    frame.part.Holds Q (loopsOf rest) ∧ AllHold Q (loopsOf (frame :: rest)) frame.nodes ∧
      FramesHold rest

/-- What holds of all that a compiler has read. -/
structure Compiler.Holds (c : Compiler) : Prop where
  nodes : AllHold Q [] c.nodes
  frames : FramesHold Q c.frames

variable {Q} {loops : List (Span × LoopHeader)}

theorem allHold_iff {nodes : List Node} :
    AllHold Q loops nodes ↔ ∀ node ∈ nodes, node.Holds Q loops := by
  induction nodes with
  | nil => exact iff_of_true trivial (List.forall_mem_nil _)
  | cons node rest ih => rw [AllHold, ih, List.forall_mem_cons]

theorem AllHold.reverse {nodes : List Node} (h : AllHold Q loops nodes) :
    AllHold Q loops nodes.reverse :=
  allHold_iff.2 fun node hnode => allHold_iff.1 h node (List.mem_reverse.1 hnode)

theorem allHold_chainOf {branches : List Branch} {otherwise : List Node}
    (h : ∀ b ∈ branches, b.Holds Q loops) (ho : AllHold Q loops otherwise) :
    AllHold Q loops (Compiler.chainOf branches otherwise) := by
  induction branches with
  | nil => exact ho
  | cons b rest ih =>
    obtain ⟨⟨hcondition, hbody⟩, hrest⟩ := List.forall_mem_cons.1 h
    exact ⟨⟨hcondition, hbody, ih hrest⟩, trivial⟩

theorem holds_outputNode {span : Span} {e : Expression} (h : Q loops e) :
    (Compiler.outputNode span e).Holds Q loops := by
  unfold Compiler.outputNode
  split
  · trivial
  · exact h

namespace Compiler

variable {c c' : Compiler} {t : Token}

theorem openLoops_add (c : Compiler) (node : Node) : (c.add node).openLoops = c.openLoops := by
  unfold add openLoops
  split
  · rfl
  · next frame rest hf => rw [hf]; rfl

namespace Holds

theorem add (h : c.Holds Q) {node : Node} (hnode : node.Holds Q c.openLoops) :
    (c.add node).Holds Q := by
  have hframes := h.frames
  unfold Compiler.add
  unfold openLoops at hnode
  split
  · next hf =>
    rw [hf] at hnode
    exact { h with nodes := ⟨hnode, h.nodes⟩ }
  · next frame rest hf =>
    rw [hf] at hnode hframes
    exact { h with frames := ⟨hframes.1, ⟨hnode, hframes.2.1⟩, hframes.2.2⟩ }

theorem addAll (h : c.Holds Q) {nodes : List Node} (hnodes : AllHold Q c.openLoops nodes) :
    (nodes.foldl Compiler.add c).Holds Q := by
  induction nodes generalizing c with
  | nil => exact h
  | cons node rest ih =>
    refine ih (h.add hnodes.1) ?_
    rw [openLoops_add]
    exact hnodes.2

theorem enter (h : c.Holds Q) {part : Part} (hpart : part.Holds Q c.openLoops) :
    (c.enter part).Holds Q :=
  { h with frames := ⟨hpart, trivial, h.frames⟩ }

/-- Without its innermost part. -/
theorem leave (h : c.Holds Q) {frame : Frame} {rest : List Frame} (hf : c.frames = frame :: rest) :
    frame.part.Holds Q (loopsOf rest) ∧ AllHold Q c.openLoops frame.nodes.reverse ∧
      ({ c with frames := rest } : Compiler).Holds Q := by
  have hframes := h.frames
  rw [hf] at hframes
  refine ⟨hframes.1, ?_, { h with frames := hframes.2.2 }⟩
  rw [openLoops, hf]
  exact hframes.2.1.reverse

/-- A branch that is closed joins the earlier ones. -/
theorem closeBranch (h : c.Holds Q) {earlier : List Branch} {name : String} {tag : Span}
    {condition : Condition Expression} {nodes : List Node} {rest : List Frame}
    (hf : c.frames = ⟨.branch earlier name tag condition, nodes⟩ :: rest) :
    (∀ b ∈ earlier ++ [⟨tag, condition, nodes.reverse⟩], b.Holds Q (loopsOf rest)) ∧
      ({ c with frames := rest } : Compiler).Holds Q := by
  obtain ⟨⟨hearlier, hcondition⟩, hnodes, hleft⟩ := h.leave hf
  rw [openLoops, hf] at hnodes
  refine ⟨fun b hb => ?_, hleft⟩
  rcases List.mem_append.1 hb with hb | hb
  · exact hearlier b hb
  · rw [List.mem_singleton.1 hb]
    exact ⟨hcondition, hnodes⟩

/-- **A token keeps** what holds of the expressions that are found in it. -/
theorem takes (h : c.Holds Q) (hfinds : ∀ e, c.Finds t e → Q c.openLoops e) (ht : c.Takes t c') :
    c'.Holds Q := by
  cases ht with
  | text _ => exact h.add trivial
  | comment _ => exact h
  | output hk he => exact h.add (holds_outputNode (hfinds _ (.output hk he)))
  | autoescape _ _ => exact h.enter trivial
  | loop ht hh => exact h.enter (hfinds _ (.iterable ht hh))
  | choice ht hc =>
    exact h.enter ⟨List.forall_mem_nil _, fun e he => hfinds e (.condition ht (.inl rfl) hc he)⟩
  | load _ hl =>
    obtain ⟨filters, tags, rfl⟩ := exists_of_load hl
    have hloaded : ({ c with filters, tags } : Compiler).Holds Q := { h with }
    exact hloaded.add trivial
  | route ht hc => exact h.add fun e he => hfinds e (.route ht hc he)
  | verbatim _ _ => exact { h with }
  | call ht _ _ hl hc => exact h.add fun e he => hfinds e (.call ht hl hc he)
  | elif ht hf hc =>
    obtain ⟨hbranches, hleft⟩ := h.closeBranch hf
    rw [reader_leave hf rfl] at hc
    refine hleft.enter ⟨hbranches, fun e he => ?_⟩
    have hfound := hfinds e (.condition ht (.inr rfl) hc he)
    rwa [openLoops, hf] at hfound
  | otherwise _ hf =>
    obtain ⟨hbranches, hleft⟩ := h.closeBranch hf
    exact hleft.enter hbranches
  | endBranch _ hf =>
    obtain ⟨hbranches, hleft⟩ := h.closeBranch hf
    exact hleft.addAll (allHold_chainOf hbranches trivial)
  | endOtherwise _ hf =>
    obtain ⟨hbranches, hnodes, hleft⟩ := h.leave hf
    rw [openLoops, hf] at hnodes
    exact hleft.addAll (allHold_chainOf hbranches hnodes)
  | empty _ hf =>
    obtain ⟨hiterable, hbody, hleft⟩ := h.leave hf
    rw [openLoops, hf] at hbody
    exact hleft.enter ⟨hiterable, hbody⟩
  | endLoop _ hf =>
    obtain ⟨hiterable, hbody, hleft⟩ := h.leave hf
    rw [openLoops, hf] at hbody
    exact hleft.add ⟨hiterable, hbody, trivial⟩
  | endEmpty _ hf =>
    obtain ⟨⟨hiterable, hbody⟩, hempty, hleft⟩ := h.leave hf
    rw [openLoops, hf] at hempty
    exact hleft.add ⟨hiterable, hbody, hempty⟩
  | endAutoescape _ hf =>
    obtain ⟨-, hbody, hleft⟩ := h.leave hf
    rw [openLoops, hf] at hbody
    exact hleft.add hbody

/-- In a verbatim block nothing is read. -/
theorem step (h : c.Holds Q) (hfinds : ∀ e, c.Finds t e → Q c.openLoops e)
    (ht : c.step t = .ok c') : c'.Holds Q := by
  cases hv : c.verbatim with
  | none => exact h.takes hfinds ((step_eq_ok_iff hv).1 ht)
  | some block =>
    unfold Compiler.step at ht
    rw [hv] at ht
    dsimp only at ht
    split at ht
    · cases ht
      have hleft : ({ c with verbatim := none } : Compiler).Holds Q := { h with }
      exact hleft.add trivial
    · cases ht
      exact { h with }

end Holds

/-- **So do all tokens,** if it holds of what is found in each of them by then. -/
theorem holds_run {tokens : List Token} (h : c.Holds Q)
    (hfinds : ∀ before t after d, tokens = before ++ t :: after → before.foldlM step c = .ok d →
      ∀ e, d.Finds t e → Q d.openLoops e) (hrun : tokens.foldlM step c = .ok c') : c'.Holds Q := by
  induction tokens generalizing c with
  | nil =>
    cases hrun
    exact h
  | cons t rest ih =>
    rw [List.foldlM_cons, bind_eq_ok] at hrun
    obtain ⟨next, hnext, hrun⟩ := hrun
    refine ih (h.step (hfinds [] t rest c rfl rfl) hnext) (fun before t' after d hsplit hd => ?_) hrun
    have hfrom : (t :: before).foldlM step c = .ok d := by rwa [foldlM_cons_of_ok hnext]
    exact hfinds (t :: before) t' after d (congrArg (t :: ·) hsplit) hfrom

/-- A compiler is **reached** before a token of a template if it has read all tokens before it. -/
def Reached (c : Compiler) (source : List Char) (libraries : List (String × Library)) (t : Token) :
    Prop :=
  ∃ before after, Token.scan source = before ++ t :: after ∧
    before.foldlM step { source, libraries } = .ok c

end Compiler

end Holds

/-- **What holds of all that is found** in the tokens of a template holds of its expressions. -/
theorem allHold_of_finds {Q : List (Span × LoopHeader) → Expression → Prop} {source : List Char}
    {libraries : List (String × Library)} {nodes : List Node}
    (hfinds : ∀ c t e, Compiler.Reached c source libraries t → c.Finds t e → Q c.openLoops e)
    (h : compile source libraries = .ok nodes) : AllHold Q [] nodes := by
  obtain ⟨c, hrun, hfinish⟩ := bind_eq_ok.1 h
  have hstart : ({ source, libraries } : Compiler).Holds Q := ⟨trivial, trivial⟩
  have hend := Compiler.holds_run hstart
    (fun before t after d hsplit hd e he => hfinds d t e ⟨before, after, hsplit, hd⟩ he) hrun
  unfold Compiler.finish at hfinish
  split at hfinish
  · cases hfinish
  · cases hfinish
  · cases hfinish
    exact hend.nodes.reverse

/-- An expression was **found between loops** if these were open when it was read. -/
def FoundBetween (source : List Char) (libraries : List (String × Library))
    (loops : List (Span × LoopHeader)) (e : Expression) : Prop :=
  ∃ c t, Compiler.Reached c source libraries t ∧ c.Finds t e ∧ c.openLoops = loops

/-- **Every expression of a template was found between the loops around it.** -/
theorem allHold_compile {source : List Char} {libraries : List (String × Library)}
    {nodes : List Node} (h : compile source libraries = .ok nodes) :
    AllHold (FoundBetween source libraries) [] nodes :=
  allHold_of_finds (fun c t _ hreached he => ⟨c, t, hreached, he, rfl⟩) h

end Galley
