import Galley.Proofs.Mention
import Galley.Proofs.Offers
import Mathlib

/-!
# Templates without libraries

Where there are no libraries nothing is loaded, and so the filters and tags of a template are those
that are always there.

* `Reader.isBuiltin_expression`: the filters of an expression.
* `Compiler.Unaided`, `Compiler.Unaided.takes`: a compiler that has loaded nothing.
* `unaided_compile`: **the filters and tags of a template without libraries.**
-/

namespace Galley

/-! ## Expressions -/

namespace Reader

variable {r : Reader} {e : Expression}

theorem isBuiltin_filter (hr : r.filters = []) {span : Span} {f : Filter}
    (h : r.filter span = .ok f) : f.isBuiltin = true := by
  unfold filter at h
  dsimp only at h
  rw [hr, List.lookup_nil] at h
  dsimp only at h
  split at h <;> cases h
  rfl

theorem isBuiltin_filterUse (hr : r.filters = []) {word : FilterWord} {use : FilterUse}
    (h : r.filterUse word = .ok use) : use.filter.isBuiltin = true := by
  unfold filterUse at h
  dsimp only at h
  split at h
  all_goals
    obtain ⟨_, -, h⟩ := bind_eq_ok.1 h
    obtain ⟨f, hf, h⟩ := bind_eq_ok.1 h
    obtain ⟨_, -, h⟩ := bind_eq_ok.1 h
    cases h
    exact isBuiltin_filter hr hf

theorem isBuiltin_chain (hr : r.filters = []) {content : List Char} {whole : Span} {start : Nat}
    (h : r.chain content whole start = .ok e) : e.isBuiltin = true := by
  unfold chain at h
  obtain ⟨chain?, -, h⟩ := bind_eq_ok.1 h
  cases chain? with
  | none => cases h
  | some read =>
    obtain ⟨head, -, h⟩ := bind_eq_ok.1 h
    obtain ⟨uses, huses, h⟩ := bind_eq_ok.1 h
    cases h
    refine List.all_eq_true.2 fun use hmem => ?_
    obtain ⟨word, -, hword⟩ := exists_of_mem_mapM (Cursor.Words.mapM_words huses) hmem
    exact isBuiltin_filterUse hr hword

/-- **The filters of an expression** are always there if none have been loaded. -/
theorem isBuiltin_expression (hr : r.filters = []) {operand : Operand}
    (h : r.expression operand = .ok e) : e.isBuiltin = true := by
  unfold expression at h
  split at h
  · exact isBuiltin_chain hr h
  · obtain ⟨_, -, h⟩ := bind_eq_ok.1 h
    cases h
    rfl

end Reader

/-! ## Tags -/

/-- Whether a node that was read of a block calls a tag of a library. -/
def Part.callsTag : Part → Bool
  | .branch earlier _ _ _ | .otherwise earlier _ => earlier.any (anyCallsTag ·.body)
  | .empty _ _ body _ => anyCallsTag body
  | .loop .. | .autoescape .. => false

theorem anyCallsTag_eq (nodes : List Node) : anyCallsTag nodes = nodes.any Node.callsTag := by
  induction nodes with
  | nil => rfl
  | cons node rest ih => rw [anyCallsTag, ih, List.any_cons]

theorem anyCallsTag_reverse (nodes : List Node) : anyCallsTag nodes.reverse = anyCallsTag nodes := by
  rw [anyCallsTag_eq, anyCallsTag_eq, List.any_reverse]

theorem anyCallsTag_chainOf {branches : List Branch} {otherwise : List Node}
    (h : branches.any (anyCallsTag ·.body) = false) (ho : anyCallsTag otherwise = false) :
    anyCallsTag (Compiler.chainOf branches otherwise) = false := by
  induction branches with
  | nil => exact ho
  | cons b rest ih =>
    obtain ⟨hb, hrest⟩ := Bool.or_eq_false_iff.1 h
    exact Bool.or_eq_false_iff.2 ⟨Bool.or_eq_false_iff.2 ⟨hb, ih hrest⟩, rfl⟩

namespace Compiler

variable {c c' : Compiler} {t : Token}

/-- **A compiler that has loaded nothing,** and no node of which calls a tag of a library. -/
structure Unaided (c : Compiler) : Prop where
  libraries : c.libraries = []
  filters : c.filters = []
  tags : c.tags = []
  nodes : anyCallsTag c.nodes = false
  frames : ∀ frame ∈ c.frames, frame.part.callsTag = false ∧ anyCallsTag frame.nodes = false

namespace Unaided

theorem add (h : c.Unaided) {node : Node} (hnode : node.callsTag = false) : (c.add node).Unaided := by
  have hframes := h.frames
  unfold Compiler.add
  split
  · exact { h with nodes := Bool.or_eq_false_iff.2 ⟨hnode, h.nodes⟩ }
  · next frame rest hf =>
    rw [hf] at hframes
    obtain ⟨⟨hpart, hnodes⟩, hrest⟩ := List.forall_mem_cons.1 hframes
    have hframe := And.intro hpart (Bool.or_eq_false_iff.2 ⟨hnode, hnodes⟩)
    exact { h with frames := List.forall_mem_cons.2 ⟨hframe, hrest⟩ }

theorem addAll (h : c.Unaided) {nodes : List Node} (hnodes : anyCallsTag nodes = false) :
    (nodes.foldl Compiler.add c).Unaided := by
  induction nodes generalizing c with
  | nil => exact h
  | cons node rest ih =>
    obtain ⟨hnode, hrest⟩ := Bool.or_eq_false_iff.1 hnodes
    exact ih (h.add hnode) hrest

theorem enter (h : c.Unaided) {part : Part} (hpart : part.callsTag = false) :
    (c.enter part).Unaided :=
  { h with frames := List.forall_mem_cons.2 ⟨⟨hpart, rfl⟩, h.frames⟩ }

/-- Without its innermost part. -/
theorem leave (h : c.Unaided) {part : Part} {nodes : List Node} {rest : List Frame}
    (hf : c.frames = ⟨part, nodes⟩ :: rest) :
    part.callsTag = false ∧ anyCallsTag nodes.reverse = false ∧
      ({ c with frames := rest } : Compiler).Unaided := by
  have hframes := h.frames
  rw [hf] at hframes
  obtain ⟨⟨hpart, hnodes⟩, hrest⟩ := List.forall_mem_cons.1 hframes
  exact ⟨hpart, (anyCallsTag_reverse nodes).trans hnodes, { h with frames := hrest }⟩

/-- A branch that is closed joins the earlier ones. -/
theorem closeBranch (h : c.Unaided) {earlier : List Branch} {name : String} {tag : Span}
    {condition : Condition Expression} {nodes : List Node} {rest : List Frame}
    (hf : c.frames = ⟨.branch earlier name tag condition, nodes⟩ :: rest) :
    (earlier ++ [Branch.mk tag condition nodes.reverse]).any (anyCallsTag ·.body) = false ∧
      ({ c with frames := rest } : Compiler).Unaided := by
  obtain ⟨hearlier, hnodes, hleft⟩ := h.leave hf
  refine ⟨?_, hleft⟩
  rw [List.any_append, List.any_cons, hnodes]
  exact Bool.or_eq_false_iff.2 ⟨hearlier, rfl⟩

/-- Loading nothing changes nothing. -/
theorem load (h : c.Unaided) {parts : Span} (hl : c.load parts = .ok c') : c'.Unaided := by
  rw [eq_accept_of_load hl, h.libraries, offersOf_nil]
  exact h

/-- **A token** of a template without libraries. -/
theorem takes (h : c.Unaided) (ht : c.Takes t c') : c'.Unaided := by
  cases ht with
  | text _ => exact h.add rfl
  | comment _ => exact h
  | output hk he =>
    refine h.add ?_
    unfold outputNode
    split <;> rfl
  | autoescape _ _ => exact h.enter rfl
  | loop _ _ => exact h.enter rfl
  | choice _ _ => exact h.enter rfl
  | load _ hl => exact (h.load hl).add rfl
  | route _ _ => exact h.add rfl
  | verbatim _ _ => exact { h with }
  | call _ _ _ hl _ =>
    rw [h.tags, List.lookup_nil] at hl
    cases hl
  | elif _ hf _ | otherwise _ hf =>
    obtain ⟨hbranches, hleft⟩ := h.closeBranch hf
    exact hleft.enter hbranches
  | endBranch _ hf =>
    obtain ⟨hbranches, hleft⟩ := h.closeBranch hf
    exact hleft.addAll (anyCallsTag_chainOf hbranches rfl)
  | endOtherwise _ hf =>
    obtain ⟨hbranches, hnodes, hleft⟩ := h.leave hf
    exact hleft.addAll (anyCallsTag_chainOf hbranches hnodes)
  | empty _ hf =>
    obtain ⟨-, hbody, hleft⟩ := h.leave hf
    exact hleft.enter hbody
  | endLoop _ hf =>
    obtain ⟨-, hbody, hleft⟩ := h.leave hf
    exact hleft.add (Bool.or_eq_false_iff.2 ⟨hbody, rfl⟩)
  | endEmpty _ hf =>
    obtain ⟨hbody, hempty, hleft⟩ := h.leave hf
    exact hleft.add (Bool.or_eq_false_iff.2 ⟨hbody, hempty⟩)
  | endAutoescape _ hf =>
    obtain ⟨-, hbody, hleft⟩ := h.leave hf
    exact hleft.add hbody

/-- In a verbatim block nothing is read. -/
theorem step (h : c.Unaided) (ht : c.step t = .ok c') : c'.Unaided := by
  cases hv : c.verbatim with
  | none => exact h.takes ((step_eq_ok_iff hv).1 ht)
  | some block =>
    unfold Compiler.step at ht
    rw [hv] at ht
    dsimp only at ht
    split at ht <;> cases ht
    · have hleft : ({ c with verbatim := none } : Compiler).Unaided := { h with }
      exact hleft.add rfl
    · exact { h with }

end Unaided

end Compiler

/-! ## Templates -/

/-- The operands of a condition are among its words. -/
theorem Condition.operand_mem_items {α : Type} {c : Condition α} {a : α} (h : a ∈ c.operands) :
    .operand a ∈ c.items := by
  induction c with
  | operand b =>
    rw [List.mem_singleton.1 h]
    exact List.mem_singleton_self _
  | negation c ih => exact List.mem_cons_of_mem _ (ih h)
  | binary operator left right ihl ihr =>
    rcases List.mem_append.1 h with h | h
    · exact List.mem_append_left _ (ihl h)
    · exact List.mem_append_right _ (List.mem_cons_of_mem _ (ihr h))

section Holds

variable {P : Expression → Prop}

mutual

/-- What holds of the expressions of a node, whatever loops are around, holds of each of them. -/
theorem Node.Holds.expressions {node : Node} {loops : List (Span × LoopHeader)}
    (h : node.Holds (fun _ => P) loops) : ∀ e ∈ node.expressions, P e := by
  cases node with
  | text _ _ | translated _ _ | load _ => exact List.forall_mem_nil _
  | output _ e => exact List.forall_mem_cons.2 ⟨h, List.forall_mem_nil _⟩
  | autoescape _ _ body => exact AllHold.expressions h
  | choice _ condition truthy falsey =>
    obtain ⟨hcondition, htruthy, hfalsey⟩ := h
    refine List.forall_mem_append.2 ⟨fun e he => hcondition e (Condition.operand_mem_items he), ?_⟩
    exact List.forall_mem_append.2 ⟨htruthy.expressions, hfalsey.expressions⟩
  | loop _ header body empty =>
    obtain ⟨hiterable, hbody, hempty⟩ := h
    refine List.forall_mem_cons.2 ⟨hiterable, ?_⟩
    exact List.forall_mem_append.2 ⟨hbody.expressions, hempty.expressions⟩
  | route _ call => exact h
  | call _ call => exact h

/-- So do those of some nodes. -/
theorem AllHold.expressions {nodes : List Node} {loops : List (Span × LoopHeader)}
    (h : AllHold (fun _ => P) loops nodes) : ∀ e ∈ expressionsOf nodes, P e := by
  cases nodes with
  | nil => exact List.forall_mem_nil _
  | cons node rest => exact List.forall_mem_append.2 ⟨h.1.expressions, h.2.expressions⟩

end

end Holds

/-- A compiler that is given no libraries never loads anything. -/
theorem Compiler.unaided_run {source : List Char} {tokens : List Token} {c : Compiler}
    (h : tokens.foldlM step { source, libraries := [] } = .ok c) : c.Unaided :=
  of_foldlM (P := Unaided) (fun _ _ _ hd ht => hd.step ht)
    ⟨rfl, rfl, rfl, rfl, List.forall_mem_nil _⟩ h

/-- **The filters and tags of a template without libraries** are always there. -/
theorem unaided_compile {source : List Char} {nodes : List Node}
    (h : compile source [] = .ok nodes) :
    anyCallsTag nodes = false ∧ ∀ e ∈ expressionsOf nodes, e.isBuiltin = true := by
  have hfilters : AllHold (fun _ e => e.isBuiltin = true) [] nodes := by
    refine allHold_of_finds (fun c t e hc he => ?_) h
    obtain ⟨_, _, -, hbefore⟩ := hc
    have hnone := (Compiler.unaided_run hbefore).filters
    rcases he.chain_or_wasRead with ⟨-, hread⟩ | ⟨_, _, -, _, -, hread⟩
    · exact Reader.isBuiltin_chain hnone hread
    · exact Reader.isBuiltin_expression hnone hread
  refine ⟨?_, hfilters.expressions⟩
  obtain ⟨c, hrun, hfinish⟩ := bind_eq_ok.1 h
  unfold Compiler.finish at hfinish
  split at hfinish <;> cases hfinish
  exact (anyCallsTag_reverse _).trans (Compiler.unaided_run hrun).nodes

end Galley
