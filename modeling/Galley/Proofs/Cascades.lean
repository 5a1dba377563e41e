import Galley.Proofs.Bodies
import Galley.Proofs.OpenLoops
import Galley.Proofs.Verdict

/-!
# Conditions with several branches

A condition is written as a flat row of branches that share one `endif`, and it is rendered as conditions
inside each other. The row is read branch by branch, each under the same parts; behind its `endif` stands
the nest of these branches, and this renders the first one that is true.

* `Limb`, `Cascade`, `Cascade.Written`: **a condition as it is written.**
* `Compiler.ReadsCascade`: what is read of its branches.
* `Cascade.Written.foldlM_step_iff`: a condition is read exactly if its branches are.
* `Completed.holdsAlong`, `Begun.holdsAlong`: a block is open up to its end.
* `NoneTrue`, `run_chainOf`: branches that are not true are passed over.
* `cascade_renders_first_true`: **a condition renders its first true branch,** unless it has to ask a value
  for its truth that cannot tell it.
-/

namespace Galley

open Compiler

/-! ## As they are written -/

/-- **A part of a block as it is written:** its tag, and what stands behind it. -/
structure Limb where
  tag : Token
  body : List Token

namespace Limb

/-- The tokens of a part. -/
def tokens (l : Limb) : List Token := l.tag :: l.body

theorem append_tokens (before : List Token) (l : Limb) :
    before ++ l.tokens = before ++ [l.tag] ++ l.body := List.append_cons before l.tag l.body

/-- Its tag **is named,** and what stands behind it leaves nothing open. -/
structure Named (source : List Char) (name : String) (l : Limb) : Prop where
  kind : l.tag.kind = .tag
  name_eq : l.tag.name source = name
  body : Completed source (OpenTag.mk name l.tag.span).awaited l.body

end Limb

/-- **A condition as it is written:** its branches, what stands for all of them, and the tag that ends it. -/
structure Cascade where
  first : Limb
  others : List Limb
  otherwise : Option Limb
  close : Token

namespace Cascade

/-- The tokens of its branches and of what stands for all of them. -/
def inner (k : Cascade) : List Token :=
  k.first.tokens ++ k.others.flatMap Limb.tokens ++ (k.otherwise.map Limb.tokens).getD []

/-- All of its tokens. -/
def tokens (k : Cascade) : List Token := k.inner ++ [k.close]

/-- It **is written** with the names that conditions have. -/
structure Written (source : List Char) (k : Cascade) : Prop where
  first : k.first.Named source "if"
  others : ∀ l ∈ k.others, l.Named source "elif"
  otherwise : ∀ l, k.otherwise = some l → l.Named source "else"
  kind : k.close.kind = .tag
  close : k.close.name source = "endif"

end Cascade

namespace Compiler

variable {c d e c' : Compiler} {source : List Char} {tokens : List Token} {t : Token}
  {l : Limb} {limbs : List Limb} {b : Branch} {branches : List Branch} {nodes : List Node}
  {frame : Frame} {name : String}

/-! ## As they are read -/

/-- **What is read of a part** before another compiler goes on where this one stands. -/
def ReadsIn (c : Compiler) (part : Part) (tokens : List Token) (nodes : List Node) (d : Compiler) :
    Prop :=
  c.LoadsMore d ∧ (c.enter part).Reads tokens nodes (d.enter part)

/-- **What is read of a branch:** its condition, and the nodes behind it. -/
structure ReadsLimb (c : Compiler) (l : Limb) (b : Branch) (d : Compiler) : Prop where
  span : b.span = l.tag.span
  condition : ∃ name parts, c.Tagged l.tag name parts ∧
    c.reader.condition l.tag.span parts = .ok b.condition
  -- the branches before this one make no difference to what is read in it
  body : c.ReadsIn (.branch [] "if" l.tag.span b.condition) l.body b.body d

/-- What is read of branches in a row. What a branch loads is known to the later ones. -/
inductive ReadsLimbs : Compiler → List Limb → List Branch → Compiler → Prop
  | nil {c : Compiler} : ReadsLimbs c [] [] c
  | cons {c d e : Compiler} {l : Limb} {limbs : List Limb} {b : Branch} {branches : List Branch}
    (h : c.ReadsLimb l b d) (hrest : ReadsLimbs d limbs branches e) :
    ReadsLimbs c (l :: limbs) (b :: branches) e

/-- **What is read of a condition:** its branches, and the nodes that stand for all of them. -/
inductive ReadsCascade (c : Compiler) (k : Cascade) (branches : List Branch) :
    List Node → Compiler → Prop
  | branches {d : Compiler} (h : c.ReadsLimbs (k.first :: k.others) branches d)
    (hnone : k.otherwise = none) : ReadsCascade c k branches [] d
  | otherwise {d e : Compiler} {l : Limb} {nodes : List Node}
    (h : c.ReadsLimbs (k.first :: k.others) branches d) (hsome : k.otherwise = some l)
    (hbody : d.ReadsIn (.otherwise [] l.tag.span) l.body nodes e) : ReadsCascade c k branches nodes e

/-- A tag with a name is tagged with it. -/
theorem exists_tagged (hs : c.source = source) (hk : t.kind = .tag) (hn : t.name source = name)
    (hne : name ≠ "") : ∃ parts, c.Tagged t name parts := by
  subst hs
  unfold Token.name at hn
  split at hn
  · next words hwords => exact ⟨words.parts, hk, words, hwords, hn, rfl⟩
  · exact absurd hn.symm hne

/-- All parts that await the same, under the same loops, are read in the same way. -/
theorem ReadsIn.congr {part part' : Part} (h : c.ReadsIn part tokens nodes d)
    (ha : part'.awaited = part.awaited) (hl : part'.isLoop = part.isLoop) :
    c.ReadsIn part' tokens nodes d := by
  have halike : AlikeWithin (c.enter part).openParts (c.enter part').openParts := by
    refine ⟨congrArg some ha, ?_⟩
    change (part' :: c.openParts).countP _ = (part :: c.openParts).countP _
    rw [List.countP_cons, List.countP_cons, hl]
  obtain ⟨filters, tags, rfl⟩ := h.1
  exact ⟨⟨filters, tags, rfl⟩, ⟨filters, tags, rfl⟩,
    fun frames outer hparts => h.2.run frames outer (halike.trans hparts)⟩

/-- An open part goes on with what is read in it. -/
theorem Opens.of_readsIn {part : Part} {more : List Token} (h : c.Opens tokens ⟨part, []⟩ d)
    (hbody : d.ReadsIn part more nodes e) : c.Opens (tokens ++ more) ⟨part, nodes.reverse⟩ e := by
  have hframes : d.enter part = d.moved (⟨part, []⟩ :: c.frames) c.nodes := by
    obtain ⟨_, _, rfl⟩ := h.loaded
    rfl
  have hself : (e.enter part).moved c.frames c.nodes = e := by
    obtain ⟨_, _, rfl⟩ := h.loaded
    obtain ⟨_, _, rfl⟩ := hbody.1
    rfl
  have hreads := hbody.2
  rw [hframes] at hreads
  have hopens := h.body hreads
  rw [hself, List.append_nil] at hopens
  exact hopens

/-- A frame **holds branches:** the last one is open in it, and what was read of it is all of it. -/
def HoldsBranches (frame : Frame) (branches : List Branch) : Prop :=
  ∃ earlier name b, branches = earlier ++ [b] ∧
    frame = ⟨.branch earlier name b.span b.condition, b.body.reverse⟩

variable {condition : Condition Expression} {parts : Span}

/-- The tag of the first branch. -/
theorem opens_if (hv : c.verbatim = none) (htag : c.Tagged t "if" parts)
    (hcondition : c.reader.condition t.span parts = .ok condition) :
    c.Opens [t] ⟨.branch [] "if" t.span condition, []⟩ c := by
  refine ⟨⟨_, _, rfl⟩, fun frames outer hparts => (foldlM_singleton _ _).trans ?_⟩
  refine step_of_takes hv (.choice (htag.moved frames outer) ?_)
  rw [reader_moved hparts]
  exact hcondition

/-- The tag of a later branch. Its condition is read under the parts around the block. -/
theorem Opens.elif (h : c.Opens tokens frame d) (hv : c.verbatim = none)
    (hbranches : HoldsBranches frame branches) (htag : d.Tagged t "elif" parts)
    (hcondition : d.reader.condition t.span parts = .ok condition) :
    c.Opens (tokens ++ [t]) ⟨.branch branches "elif" t.span condition, []⟩ d := by
  obtain ⟨earlier, name, last, rfl, rfl⟩ := hbranches
  refine ⟨h.loaded, fun frames outer hparts => ?_⟩
  rw [List.foldlM_append, h.run frames outer hparts]
  refine (foldlM_singleton _ _).trans (step_of_takes (h.loaded.verbatim_eq.trans hv) ?_)
  have hreader : (d.moved frames outer).reader.condition t.span parts = .ok condition := by
    rw [reader_moved (h.loaded.openParts_eq ▸ hparts)]
    exact hcondition
  have htakes := Takes.elif (c := d.moved
    (⟨.branch earlier name last.span last.condition, last.body.reverse⟩ :: frames) outer)
    (htag.moved _ _) rfl hreader
  rw [List.reverse_reverse] at htakes
  exact htakes

/-- The tag of what stands for all branches. -/
theorem Opens.otherwise (h : c.Opens tokens frame d) (hv : c.verbatim = none)
    (hbranches : HoldsBranches frame branches) (htag : d.Tagged t "else" parts) :
    c.Opens (tokens ++ [t]) ⟨.otherwise branches t.span, []⟩ d := by
  obtain ⟨earlier, name, last, rfl, rfl⟩ := hbranches
  refine ⟨h.loaded, fun frames outer hparts => ?_⟩
  rw [List.foldlM_append, h.run frames outer hparts]
  refine (foldlM_singleton _ _).trans (step_of_takes (h.loaded.verbatim_eq.trans hv) ?_)
  have htakes := Takes.otherwise (c := d.moved
    (⟨.branch earlier name last.span last.condition, last.body.reverse⟩ :: frames) outer)
    (htag.moved _ _) rfl
  rw [List.reverse_reverse] at htakes
  exact htakes

/-- A branch behind its tag. -/
theorem Opens.of_readsLimb {earlier : List Branch}
    (h : c.Opens tokens ⟨.branch earlier name l.tag.span b.condition, []⟩ d)
    (hspan : b.span = l.tag.span)
    (hbody : d.ReadsIn (.branch [] "if" l.tag.span b.condition) l.body b.body e) :
    ∃ frame, HoldsBranches frame (earlier ++ [b]) ∧ c.Opens (tokens ++ l.body) frame e := by
  refine ⟨_, ⟨earlier, name, b, rfl, rfl⟩, ?_⟩
  rw [hspan]
  exact h.of_readsIn (hbody.congr rfl rfl)

/-- **The first branch.** -/
theorem ReadsLimb.exists_opens (hv : c.verbatim = none) (hs : c.source = source)
    (hl : l.Named source "if") (h : c.ReadsLimb l b d) :
    ∃ frame, HoldsBranches frame [b] ∧ c.Opens l.tokens frame d := by
  obtain ⟨name, parts, htag, hcondition⟩ := h.condition
  obtain rfl : name = "if" := (htag.name_eq hs).symm.trans hl.name_eq
  exact (opens_if hv htag hcondition).of_readsLimb h.span h.body

/-- **One more branch.** -/
theorem Opens.exists_next (h : c.Opens tokens frame d) (hv : c.verbatim = none) (hs : c.source = source)
    (hbranches : HoldsBranches frame branches) (hl : l.Named source "elif") (hlimb : d.ReadsLimb l b e) :
    ∃ frame, HoldsBranches frame (branches ++ [b]) ∧ c.Opens (tokens ++ l.tokens) frame e := by
  obtain ⟨name, parts, htag, hcondition⟩ := hlimb.condition
  obtain rfl : name = "elif" := (htag.name_eq (h.loaded.source_eq.trans hs)).symm.trans hl.name_eq
  rw [Limb.append_tokens]
  exact (h.elif hv hbranches htag hcondition).of_readsLimb hlimb.span hlimb.body

/-- **All other branches.** -/
theorem Opens.exists_all (h : c.Opens tokens frame d) (hv : c.verbatim = none) (hs : c.source = source)
    (hbranches : HoldsBranches frame branches) {more : List Branch}
    (hl : ∀ l ∈ limbs, l.Named source "elif") (hlimbs : d.ReadsLimbs limbs more e) :
    ∃ frame, HoldsBranches frame (branches ++ more) ∧
      c.Opens (tokens ++ limbs.flatMap Limb.tokens) frame e := by
  induction hlimbs generalizing tokens frame branches with
  | nil =>
    rw [List.flatMap_nil, List.append_nil, List.append_nil]
    exact ⟨frame, hbranches, h⟩
  | @cons _ _ _ l limbs b _ hlimb _ ih =>
    obtain ⟨hfirst, hothers⟩ := List.forall_mem_cons.1 hl
    obtain ⟨next, hnext, hopens⟩ := h.exists_next hv hs hbranches hfirst hlimb
    obtain ⟨last, hlast, hall⟩ := ih hopens hnext hothers
    rw [List.flatMap_cons, List.append_cons branches, ← List.append_assoc tokens]
    exact ⟨last, hlast, hall⟩

/-- **The end.** -/
theorem Opens.reads_chain (h : c.Opens tokens frame d) (hv : c.verbatim = none) (hs : c.source = source)
    (hk : t.kind = .tag) (hn : t.name source = "endif")
    (hframe : HoldsBranches frame branches ∧ nodes = [] ∨
      ∃ span, frame = ⟨.otherwise branches span, nodes.reverse⟩) :
    c.Reads (tokens ++ [t]) (chainOf branches nodes) d := by
  obtain ⟨parts, htag⟩ := exists_tagged (h.loaded.source_eq.trans hs) hk hn (by decide)
  refine ⟨h.loaded, fun frames outer hparts => ?_⟩
  rw [List.foldlM_append, h.run frames outer hparts]
  refine (foldlM_singleton _ _).trans (step_of_takes (h.loaded.verbatim_eq.trans hv) ?_)
  rcases hframe with ⟨⟨earlier, name, last, rfl, rfl⟩, rfl⟩ | ⟨span, rfl⟩
  · have htakes := Takes.endBranch (c := d.moved
      (⟨.branch earlier name last.span last.condition, last.body.reverse⟩ :: frames) outer)
      (htag.moved _ _) rfl
    rw [List.reverse_reverse] at htakes
    exact htakes
  · have htakes := Takes.endOtherwise (c := d.moved (⟨.otherwise branches span, nodes.reverse⟩ :: frames)
      outer) (htag.moved _ _) rfl
    rw [List.reverse_reverse] at htakes
    exact htakes

/-! ## What was read of them -/

/-- What leaves nothing open is read in the part that is open behind it. -/
theorem Opens.exists_readsIn {part : Part} {more : List Token} (h : c.Opens tokens ⟨part, []⟩ d)
    (hv : c.verbatim = none) (hs : c.source = source) (hmore : Completed source part.awaited more)
    (hrun : (tokens ++ more).foldlM step c = .ok c') : ∃ nodes e, d.ReadsIn part more nodes e := by
  have hframes : d.enter part = d.moved (⟨part, []⟩ :: c.frames) c.nodes := by
    obtain ⟨_, _, rfl⟩ := h.loaded
    rfl
  obtain ⟨_, hopened, hbody⟩ := exists_run_of_append hrun
  cases h.run_self.symm.trans hopened
  rw [← hframes] at hbody
  have hs' : (d.enter part).source = source := h.loaded.source_eq.trans hs
  obtain ⟨nodes, e, hreads⟩ := hmore.exists_reads hs' (h.loaded.verbatim_eq.trans hv) rfl hbody
  obtain ⟨filters, tags, rfl⟩ := hreads.loaded
  exact ⟨nodes, { d with filters, tags }, ⟨filters, tags, rfl⟩, hreads⟩

/-- The condition of an `elif`. -/
theorem Opens.exists_condition_of_step (h : c.Opens tokens frame d) (hv : c.verbatim = none)
    (hbranches : HoldsBranches frame branches) (htag : d.Tagged t "elif" parts)
    (hstep : (d.moved (frame :: c.frames) c.nodes).step t = .ok c') :
    ∃ condition, d.reader.condition t.span parts = .ok condition := by
  obtain ⟨earlier, name, last, rfl, rfl⟩ := hbranches
  let part : Part := .branch earlier name last.span last.condition
  let inside := d.moved (⟨part, last.body.reverse⟩ :: c.frames) c.nodes
  have hreader : inside.reader = d.reader := by
    obtain ⟨_, _, rfl⟩ := h.loaded
    exact (reader_leave (c := inside) rfl rfl).symm
  have hcondition := Compiler.exists_condition_of_step (c := inside) (h.loaded.verbatim_eq.trans hv)
    (htag.moved _ _) (.inr ⟨rfl, rfl⟩) hstep
  rwa [hreader] at hcondition

/-- **The first branch** was read. -/
theorem exists_readsLimb (hv : c.verbatim = none) (hs : c.source = source) (hl : l.Named source "if")
    (hrun : l.tokens.foldlM step c = .ok c') : ∃ b d, c.ReadsLimb l b d := by
  obtain ⟨parts, htag⟩ := exists_tagged hs hl.kind hl.name_eq (by decide)
  rw [Limb.tokens, ← List.singleton_append] at hrun
  obtain ⟨_, hstep, -⟩ := exists_run_of_append hrun
  rw [foldlM_singleton] at hstep
  obtain ⟨condition, hcondition⟩ := exists_condition_of_step hv htag (.inl rfl) hstep
  obtain ⟨body, d, hbody⟩ := (opens_if hv htag hcondition).exists_readsIn hv hs hl.body hrun
  exact ⟨⟨l.tag.span, condition, body⟩, d, rfl, ⟨_, _, htag, hcondition⟩, hbody⟩

/-- **One more branch** was read. -/
theorem Opens.exists_readsLimb (h : c.Opens tokens frame d) (hv : c.verbatim = none)
    (hs : c.source = source) (hbranches : HoldsBranches frame branches) (hl : l.Named source "elif")
    (hrun : (tokens ++ l.tokens).foldlM step c = .ok c') : ∃ b e, d.ReadsLimb l b e := by
  obtain ⟨parts, htag⟩ := exists_tagged (h.loaded.source_eq.trans hs) hl.kind hl.name_eq (by decide)
  rw [Limb.append_tokens] at hrun
  obtain ⟨_, htags, -⟩ := exists_run_of_append hrun
  obtain ⟨_, hopened, hstep⟩ := exists_run_of_append htags
  cases h.run_self.symm.trans hopened
  rw [foldlM_singleton] at hstep
  obtain ⟨condition, hcondition⟩ := h.exists_condition_of_step hv hbranches htag hstep
  obtain ⟨body, e, hbody⟩ := (h.elif hv hbranches htag hcondition).exists_readsIn hv hs hl.body hrun
  refine ⟨⟨l.tag.span, condition, body⟩, e, rfl, ⟨_, _, htag, hcondition⟩, ?_⟩
  exact ReadsIn.congr hbody rfl rfl

/-- **All other branches** were read. -/
theorem Opens.exists_readsLimbs (h : c.Opens tokens frame d) (hv : c.verbatim = none)
    (hs : c.source = source) (hbranches : HoldsBranches frame branches)
    (hl : ∀ l ∈ limbs, l.Named source "elif")
    (hrun : (tokens ++ limbs.flatMap Limb.tokens).foldlM step c = .ok c') :
    ∃ more e, d.ReadsLimbs limbs more e := by
  induction limbs generalizing tokens frame branches d with
  | nil => exact ⟨[], d, .nil⟩
  | cons l limbs ih =>
    obtain ⟨hfirst, hothers⟩ := List.forall_mem_cons.1 hl
    rw [List.flatMap_cons, ← List.append_assoc] at hrun
    obtain ⟨_, hnow, -⟩ := exists_run_of_append hrun
    obtain ⟨b, e, hlimb⟩ := h.exists_readsLimb hv hs hbranches hfirst hnow
    obtain ⟨next, hnext, hopens⟩ := h.exists_next hv hs hbranches hfirst hlimb
    obtain ⟨more, e', hmore⟩ := ih hopens hnext hothers hrun
    exact ⟨b :: more, e', .cons hlimb hmore⟩

end Compiler

open Compiler

namespace Cascade.Written

variable {c c' d : Compiler} {source : List Char} {k : Cascade} {branches : List Branch}
  {nodes : List Node}

/-- **What a condition is read to** where its branches are read: the nest of them. -/
theorem reads (hk : k.Written source) (hv : c.verbatim = none) (hs : c.source = source)
    (h : c.ReadsCascade k branches nodes d) : c.Reads k.tokens (chainOf branches nodes) d := by
  have hopens {d : Compiler} (hlimbs : c.ReadsLimbs (k.first :: k.others) branches d) :
      ∃ frame, HoldsBranches frame branches ∧
        c.Opens (k.first.tokens ++ k.others.flatMap Limb.tokens) frame d := by
    cases hlimbs with
    | cons hfirst hothers =>
      obtain ⟨frame, hframe, hfirst⟩ := hfirst.exists_opens hv hs hk.first
      exact hfirst.exists_all hv hs hframe hk.others hothers
  unfold tokens inner
  cases h with
  | branches hlimbs hnone =>
    obtain ⟨frame, hframe, hopens⟩ := hopens hlimbs
    rw [hnone, Option.map_none, Option.getD_none, List.append_nil]
    exact hopens.reads_chain hv hs hk.kind hk.close (.inl ⟨hframe, rfl⟩)
  | @otherwise _ _ l _ hlimbs hsome hbody =>
    obtain ⟨frame, hframe, hopens⟩ := hopens hlimbs
    have hl := hk.otherwise l hsome
    obtain ⟨parts, htag⟩ := exists_tagged (hopens.loaded.source_eq.trans hs) hl.kind hl.name_eq
      (by decide)
    have hlast := (hopens.otherwise hv hframe htag).of_readsIn (hbody.congr rfl rfl)
    rw [hsome, Option.map_some, Option.getD_some, Limb.append_tokens _ l]
    exact hlast.reads_chain hv hs hk.kind hk.close (.inr ⟨_, rfl⟩)

/-- **What was read of a condition.** -/
theorem exists_readsCascade (hk : k.Written source) (hv : c.verbatim = none) (hs : c.source = source)
    (hrun : k.tokens.foldlM step c = .ok c') : ∃ branches nodes d, c.ReadsCascade k branches nodes d := by
  unfold tokens inner at hrun
  obtain ⟨_, hinner, -⟩ := exists_run_of_append hrun
  obtain ⟨_, hlimbs, -⟩ := exists_run_of_append hinner
  obtain ⟨_, hfirst, -⟩ := exists_run_of_append hlimbs
  obtain ⟨b, mid, hb⟩ := exists_readsLimb hv hs hk.first hfirst
  obtain ⟨frame, hframe, hopens⟩ := hb.exists_opens hv hs hk.first
  obtain ⟨more, d, hmore⟩ := hopens.exists_readsLimbs hv hs hframe hk.others hlimbs
  have hall : c.ReadsLimbs (k.first :: k.others) (b :: more) d := .cons hb hmore
  cases hotherwise : k.otherwise with
  | none => exact ⟨_, _, _, .branches hall hotherwise⟩
  | some l =>
    have hl := hk.otherwise l hotherwise
    obtain ⟨frame, hframe, hopens⟩ := hopens.exists_all hv hs hframe hk.others hmore
    obtain ⟨parts, htag⟩ := exists_tagged (hopens.loaded.source_eq.trans hs) hl.kind hl.name_eq
      (by decide)
    rw [hotherwise, Option.map_some, Option.getD_some, Limb.append_tokens _ l] at hinner
    obtain ⟨nodes, e, hbody⟩ := (hopens.otherwise hv hframe htag).exists_readsIn hv hs hl.body hinner
    exact ⟨_, nodes, e, .otherwise hall hotherwise (hbody.congr rfl rfl)⟩

/-- **A condition is read exactly if its branches are,** and is then the nest of them. -/
theorem foldlM_step_iff (hk : k.Written source) (hv : c.verbatim = none) (hs : c.source = source) :
    k.tokens.foldlM step c = .ok c' ↔ ∃ branches nodes d, c.ReadsCascade k branches nodes d ∧
      c' = (chainOf branches nodes).foldl add d := by
  constructor
  · intro hrun
    obtain ⟨branches, nodes, d, h⟩ := hk.exists_readsCascade hv hs hrun
    cases (hk.reads hv hs h).run_self.symm.trans hrun
    exact ⟨branches, nodes, d, h, rfl⟩
  · rintro ⟨branches, nodes, d, h, rfl⟩
    exact (hk.reads hv hs h).run_self

end Cascade.Written

/-! ## Open up to its end -/

section Along

open OpenBlocks

variable {source : List Char} {awaited : List String} {tokens before more : List Token} {p : OpenTag}
  {opened outer : List OpenTag} {P Q : List OpenTag → Prop} {b : OpenBlocks} {t : Token}

/-- What is open **is so along tokens** if it is so behind each beginning of them. -/
def HoldsAlong (source : List Char) (P : List OpenTag → Prop) (b : OpenBlocks) (tokens : List Token) :
    Prop := ∀ front rest, tokens = front ++ rest → P (front.foldl (behind source) b).opened

theorem HoldsAlong.mono (h : HoldsAlong source P b tokens) (hle : ∀ opened, P opened → Q opened) :
    HoldsAlong source Q b tokens := fun front rest heq => hle _ (h front rest heq)

theorem holdsAlong_nil (h : P b.opened) : HoldsAlong source P b [] := by
  intro front rest heq
  obtain ⟨rfl, -⟩ := List.append_eq_nil_iff.1 heq.symm
  exact h

theorem HoldsAlong.cons (h : P b.opened) (hmore : HoldsAlong source P (b.behind source t) tokens) :
    HoldsAlong source P b (t :: tokens) := by
  intro front rest heq
  rcases List.cons_eq_append_iff.1 heq with ⟨rfl, -⟩ | ⟨front, rfl, heq⟩
  · exact h
  · exact hmore front rest (List.cons.inj heq).2

theorem HoldsAlong.append (h : HoldsAlong source P b tokens)
    (hmore : HoldsAlong source P (tokens.foldl (behind source) b) more) :
    HoldsAlong source P b (tokens ++ more) := by
  induction tokens generalizing b with
  | nil => exact hmore
  | cons t tokens ih =>
    exact .cons (h [] _ rfl) (ih (fun front rest heq => h (t :: front) rest (congrArg (t :: ·) heq)) hmore)

/-- A last token, behind which it is still so. -/
theorem HoldsAlong.concat (h : HoldsAlong source P b tokens)
    (hlast : P (((tokens ++ [t]).foldl (behind source) b).opened)) :
    HoldsAlong source P b (tokens ++ [t]) := by
  rw [List.foldl_append] at hlast
  exact h.append (.cons (h tokens [] (List.append_nil _).symm) (holdsAlong_nil hlast))

mutual

/-- **Tokens that leave nothing open close nothing** that is open around them, at no place. -/
theorem Completed.holdsAlong : ∀ {awaited : List String} {tokens : List Token},
    Completed source awaited tokens → ∀ (opened : List OpenTag), awaitedIn opened = awaited →
      HoldsAlong source (opened <:+ ·) ⟨opened, none⟩ tokens
  | _, _, .nil, _, _ => holdsAlong_nil List.suffix_rfl
  | _, _, .single h ht, opened, ho => by
    have hwhole := congrArg OpenBlocks.opened ((h.single ht).foldl_behind ho)
    exact (h.holdsAlong opened ho).concat ⟨[], hwhole.symm⟩
  | _, _, @Completed.verbatim _ _ _ inside t _ h ht hname hinside hlast, opened, ho => by
    have hbehind : HoldsAlong source (opened <:+ ·) ⟨opened, some t.span⟩ inside := by
      intro front rest heq
      have hfront : ∀ u ∈ front, u.kind ≠ .tag := fun u hu =>
        hinside u (heq ▸ List.mem_append_left _ hu)
      have hsame : front.foldl (behind source) ⟨opened, some t.span⟩ = ⟨opened, some t.span⟩ :=
        foldl_behind_inside hfront _
      exact ⟨[], (congrArg OpenBlocks.opened hsame).symm⟩
    refine (h.holdsAlong opened ho).append ?_
    rw [h.foldl_behind ho, List.cons_append]
    refine .cons List.suffix_rfl ?_
    rw [behind_verbatim ht hname]
    refine hbehind.concat ?_
    rw [List.foldl_append, foldl_behind_inside hinside, List.foldl_cons, behind_endsVerbatim hlast]
    exact List.suffix_rfl
  | _, _, .block (t := t) h hbegun hbody ht hname hend, opened, ho => by
    have hpart := hbody.holdsAlong (_ :: opened) rfl
    obtain ⟨first, more, hfirst, hmore⟩ := hbegun.holdsAlong opened
    have hbefore := HoldsAlong.cons (P := (opened <:+ ·)) (b := ⟨opened, none⟩) List.suffix_rfl
      (hmore.mono fun _ hp => hp.elim fun _ hp => (List.suffix_cons _ _).trans hp)
    rw [← hfirst] at hbefore
    refine (h.holdsAlong opened ho).append ?_
    rw [h.foldl_behind ho]
    refine (hbefore.append ?_).concat ?_
    · rw [hbegun.foldl_behind]
      exact hpart.mono fun _ => (List.suffix_cons _ _).trans
    · rw [List.foldl_append, List.foldl_append, hbegun.foldl_behind, hbody.foldl_behind rfl,
        List.foldl_cons, behind_awaited ht hname, hend]
      exact List.suffix_rfl

/-- **A block is open** behind each of its beginnings that has its first tag. -/
theorem Begun.holdsAlong : ∀ {before : List Token} {p : OpenTag}, Begun source before p →
    ∀ opened : List OpenTag, ∃ t more, before = t :: more ∧
      HoldsAlong source (fun now => ∃ p, p :: opened <:+ now) (behind source ⟨opened, none⟩ t) more
  | _, _, .first ht hname, opened => by
    refine ⟨_, [], rfl, holdsAlong_nil ?_⟩
    rw [behind_opens ht hname]
    exact ⟨_, List.suffix_rfl⟩
  | _, _, .next h hbody ht hname hnext, opened => by
    have hpart := hbody.holdsAlong (_ :: opened) rfl
    have hwhole := (h.next hbody ht hname hnext).foldl_behind opened
    have hbefore := h.foldl_behind opened
    obtain ⟨first, more, rfl, hmore⟩ := h.holdsAlong opened
    refine ⟨first, _, rfl, (hmore.append ?_).concat ?_⟩
    · rw [List.foldl_cons] at hbefore
      rw [hbefore]
      exact hpart.mono fun _ hp => ⟨_, hp⟩
    · rw [List.cons_append, List.cons_append, List.foldl_cons] at hwhole
      rw [hwhole]
      exact ⟨_, List.suffix_rfl⟩

end

end Along

/-- The next part of a block. -/
theorem Begun.limb {source : List Char} {before body : List Token} {p : OpenTag} {l : Limb}
    {name : String} (h : Begun source before p) (hbody : Completed source p.awaited body)
    (hl : l.Named source name) (hname : name ∈ p.awaited) (hopens : Awaited.opened name ≠ []) :
    Begun source (before ++ body ++ [l.tag]) ⟨name, l.tag.span⟩ := by
  have hnext := h.next hbody hl.kind (hl.name_eq ▸ hname) (hl.name_eq ▸ hopens)
  rwa [hl.name_eq] at hnext

/-- More branches of a condition. -/
theorem Begun.exists_branches {source : List Char} {before body : List Token} {p : OpenTag}
    {limbs : List Limb} (h : Begun source before p) (hbody : Completed source p.awaited body)
    (hp : p.awaited = ["elif", "else", "endif"]) (hlimbs : ∀ l ∈ limbs, l.Named source "elif") :
    ∃ before' body' p', before ++ body ++ limbs.flatMap Limb.tokens = before' ++ body' ∧
      Begun source before' p' ∧ Completed source p'.awaited body' ∧
      p'.awaited = ["elif", "else", "endif"] := by
  induction limbs generalizing before body p with
  | nil => exact ⟨before, body, p, List.append_nil _, h, hbody, hp⟩
  | cons l limbs ih =>
    obtain ⟨hl, hlimbs⟩ := List.forall_mem_cons.1 hlimbs
    have hlimb := h.limb hbody hl (by rw [hp]; decide) (by decide)
    rw [List.flatMap_cons, ← List.append_assoc, Limb.append_tokens]
    exact ih hlimb hl.body rfl hlimbs

/-- A condition as it is written is the beginning of a block, what stands in its last part, and its end. -/
theorem Cascade.Written.exists_begun {source : List Char} {k : Cascade} (hk : k.Written source) :
    ∃ before body p, k.inner = before ++ body ∧ Begun source before p ∧
      Completed source p.awaited body ∧ k.close.name source ∈ p.awaited := by
  have hfirst : Begun source [k.first.tag] ⟨"if", k.first.tag.span⟩ := by
    have hbegun : Begun source [k.first.tag] ⟨k.first.tag.name source, k.first.tag.span⟩ :=
      .first hk.first.kind (by rw [hk.first.name_eq]; decide)
    rwa [hk.first.name_eq] at hbegun
  obtain ⟨before, body, p, hinner, hbegun, hbody, hp⟩ :=
    hfirst.exists_branches hk.first.body rfl hk.others
  have htokens : k.first.tokens = [k.first.tag] ++ k.first.body := rfl
  unfold Cascade.inner
  rw [htokens, hinner, hk.close]
  cases hotherwise : k.otherwise with
  | none => exact ⟨before, body, p, List.append_nil _, hbegun, hbody, by rw [hp]; decide⟩
  | some l =>
    have hl := hk.otherwise l hotherwise
    have hlimb := hbegun.limb hbody hl (by rw [hp]; decide) (by decide)
    rw [Option.map_some, Option.getD_some, Limb.append_tokens]
    exact ⟨_, l.body, _, rfl, hlimb, hl.body, List.mem_singleton.2 rfl⟩

/-- **A condition is open up to its last tag,** and no longer. -/
theorem Cascade.Written.openTags_run {source : List Char} {k : Cascade} {c c' : Compiler}
    {front rest : List Token} (hk : k.Written source) (hc : c.Consistent source)
    (hv : c.verbatim = none) (hsplit : k.tokens = front ++ rest) (hfront : front ≠ [])
    (hrun : front.foldlM step c = .ok c') :
    (rest ≠ [] → ∃ inner p, c'.openTags = inner ++ p :: c.openTags) ∧
      (rest = [] → c'.openTags = c.openTags) := by
  obtain ⟨before, body, p, hinner, hbegun, hbody, hclose⟩ := hk.exists_begun
  obtain ⟨first, more, rfl, halong⟩ := hbegun.holdsAlong c.openTags
  have hbehind := hbegun.foldl_behind c.openTags
  obtain ⟨-, hblocks⟩ := openBlocks_run hc hrun
  rw [openBlocks_of_none hv] at hblocks
  have hopened : c'.openTags = (front.foldl (OpenBlocks.behind source) ⟨c.openTags, none⟩).opened :=
    congrArg OpenBlocks.opened hblocks
  rw [hopened]
  constructor
  · intro hrest
    have hlast : HoldsAlong source (fun now => ∃ p, p :: c.openTags <:+ now)
        (more.foldl (OpenBlocks.behind source) (.behind source ⟨c.openTags, none⟩ first)) body := by
      rw [List.foldl_cons] at hbehind
      rw [hbehind]
      exact (hbody.holdsAlong _ rfl).mono fun _ hp => ⟨_, hp⟩
    have hall := halong.append hlast
    obtain ⟨rest, last, rfl⟩ := (List.eq_nil_or_concat' rest).resolve_left hrest
    rw [Cascade.tokens, ← List.append_assoc] at hsplit
    have hbegins : first :: (more ++ body) = front ++ rest :=
      hinner.symm.trans (List.append_inj_left' hsplit rfl)
    rcases List.cons_eq_append_iff.1 hbegins with ⟨rfl, -⟩ | ⟨front, rfl, hmore⟩
    · exact absurd rfl hfront
    · obtain ⟨p, inner, hp⟩ := hall front rest hmore
      exact ⟨inner, p, hp.symm⟩
  · rintro rfl
    rw [List.append_nil] at hsplit
    rw [← hsplit, Cascade.tokens, hinner, List.foldl_append, List.foldl_append, hbehind,
      hbody.foldl_behind rfl, List.foldl_cons, OpenBlocks.behind_awaited hk.kind hclose, hk.close]
    rfl

/-! ## As they are rendered -/

section Rendered

open Rendering

variable {routes : RouteTable} {nodes otherwise : List Node} {node : Node} {s s' : Scope}
  {branches earlier later : List Branch} {b : Branch} {e : HostError}

/-- What is done to a fault where it leaves a text. -/
theorem run_closed (x : Rendering String) (s : Scope) :
    (closed x).run.run s =
      match x.run.run s with
      | (.error (.host e), s') => (.error (.host e.leavingText), s')
      | outcome => outcome := by
  change (match x.run.run s with | (outcome, s') => (outcome.mapError _, s')) = _
  rcases x.run.run s with ⟨(fault | fault) | text, s'⟩ <;> rfl

/-- Errors that have left a text **leave it once.** -/
def LeavesOnce (x : Rendering String) : Prop :=
  ∀ s e, (x.run.run s).1 = .error (.host e) → e.leavingText = e

theorem leavesOnce_closed (x : Rendering String) : LeavesOnce (closed x) := by
  intro s e h
  rw [run_closed] at h
  rcases hrun : x.run.run s with ⟨(fault | fault) | text, s'⟩
  · rw [hrun] at h
    cases h
  · rw [hrun] at h
    cases h
    unfold HostError.leavingText
    by_cases hkind : fault.kind = "StopIteration"
    · rw [if_pos hkind, if_neg (by decide)]
    · rw [if_neg hkind, if_neg hkind]
  · rw [hrun] at h
    cases h

theorem LeavesOnce.run_closed {x : Rendering String} (h : LeavesOnce x) (s : Scope) :
    (closed x).run.run s = x.run.run s := by
  rw [Galley.run_closed]
  rcases hrun : x.run.run s with ⟨(fault | fault) | text, s'⟩
  · rfl
  · have hleft := h s fault (by rw [hrun])
    dsimp only
    rw [hleft]
  · rfl

theorem leavesOnce_renderAll (routes : RouteTable) (nodes : List Node) :
    LeavesOnce (renderAll routes nodes) := by
  induction nodes with
  | nil =>
    intro s e h
    cases h
  | cons node rest ih =>
    intro s e h
    rw [renderAll, run_bind] at h
    have hfirst := leavesOnce_closed (node.render routes) s
    rcases hrun : (closed (node.render routes)).run.run s with ⟨fault | text, s'⟩
    · rw [hrun] at h hfirst
      exact hfirst e h
    · rw [hrun] at h
      dsimp only at h
      rw [run_bind] at h
      have hrest := ih s'
      rcases hrun' : (renderAll routes rest).run.run s' with ⟨fault | text', s''⟩
      · rw [hrun'] at h hrest
        exact hrest e h
      · rw [hrun'] at h
        cases h

/-- A node alone. -/
theorem run_renderAll_singleton (routes : RouteTable) (node : Node) (s : Scope) :
    (renderAll routes [node]).run.run s = (closed (node.render routes)).run.run s := by
  rw [renderAll, run_bind]
  rcases (closed (node.render routes)).run.run s with ⟨fault | text, s'⟩
  · rfl
  · change (Except.ok (text ++ ""), s') = _
    rw [String.append_empty]

/-- **Branches that are not true,** looked at one after the other. -/
inductive NoneTrue : List Branch → Scope → Scope → Prop
  | nil {s : Scope} : NoneTrue [] s s
  | cons {b : Branch} {branches : List Branch} {s s' : Scope}
    (h : (b.condition.evaluate.run s).1.truth = .ok false)
    (hrest : NoneTrue branches (b.condition.evaluate.run s).2 s') : NoneTrue (b :: branches) s s'

/-- **The nest of branches** at a branch that has a truth. -/
theorem run_chainOf_cons {holds : Bool} (h : (b.condition.evaluate.run s).1.truth = .ok holds) :
    (renderAll routes (chainOf (b :: later) otherwise)).run.run s =
      (renderAll routes (if holds then b.body else chainOf later otherwise)).run.run
        (b.condition.evaluate.run s).2 := by
  let node : Node := .choice b.span b.condition b.body (chainOf later otherwise)
  let chosen := if holds then b.body else chainOf later otherwise
  have hnode : (node.render routes).run.run s =
      (renderAll routes chosen).run.run (b.condition.evaluate.run s).2 :=
    run_choice_of_truth routes b.span b.condition b.body (chainOf later otherwise) s h
  calc (renderAll routes [node]).run.run s
      = (closed (node.render routes)).run.run s := run_renderAll_singleton routes node s
    _ = (closed (renderAll routes chosen)).run.run (b.condition.evaluate.run s).2 := by
        rw [run_closed, hnode, ← run_closed]
    _ = (renderAll routes chosen).run.run (b.condition.evaluate.run s).2 :=
        (leavesOnce_renderAll routes chosen).run_closed _

/-- At one whose truth cannot be told. -/
theorem run_chainOf_of_error (h : (b.condition.evaluate.run s).1.truth = .error e) :
    (renderAll routes (chainOf (b :: later) otherwise)).run.run s =
      (.error (.host e.leavingText), (b.condition.evaluate.run s).2) := by
  let node : Node := .choice b.span b.condition b.body (chainOf later otherwise)
  have hnode : (node.render routes).run.run s = (.error (.host e), (b.condition.evaluate.run s).2) :=
    run_choice_of_error routes b.span b.condition b.body (chainOf later otherwise) s h
  change (renderAll routes [node]).run.run s = _
  rw [run_renderAll_singleton, run_closed, hnode]

/-- **Branches that are not true are passed over.** -/
theorem NoneTrue.run_chainOf (h : NoneTrue earlier s s') :
    (renderAll routes (chainOf (earlier ++ later) otherwise)).run.run s =
      (renderAll routes (chainOf later otherwise)).run.run s' := by
  induction h with
  | nil => rfl
  | cons h _ ih => exact (run_chainOf_cons h).trans ih

/-- The conditions have only looked at the scope. -/
theorem NoneTrue.untouched (h : NoneTrue branches s s') : s.Untouched s' := by
  induction h with
  | nil => exact refl_of Scope.Untouched _
  | cons _ _ ih => exact trans_of Scope.Untouched (Condition.untouched_evaluate _ _) ih

/-- **Either no branch is true, or there is a first one** that is true or has no truth. -/
theorem noneTrue_or_exists_first (branches : List Branch) (s : Scope) :
    (∃ s', NoneTrue branches s s') ∨
      ∃ earlier b later s', branches = earlier ++ b :: later ∧ NoneTrue earlier s s' ∧
        ((b.condition.evaluate.run s').1.truth = .ok true ∨
          ∃ e, (b.condition.evaluate.run s').1.truth = .error e) := by
  induction branches generalizing s with
  | nil => exact .inl ⟨s, .nil⟩
  | cons b branches ih =>
    cases htruth : (b.condition.evaluate.run s).1.truth with
    | error e => exact .inr ⟨[], b, branches, s, rfl, .nil, .inr ⟨e, htruth⟩⟩
    | ok holds =>
      cases holds with
      | true => exact .inr ⟨[], b, branches, s, rfl, .nil, .inl htruth⟩
      | false =>
        rcases ih (b.condition.evaluate.run s).2 with ⟨s', hnone⟩ |
          ⟨earlier, first, later, s', rfl, hnone, hfirst⟩
        · exact .inl ⟨s', .cons htruth hnone⟩
        · exact .inr ⟨b :: earlier, first, later, s', rfl, .cons htruth hnone, hfirst⟩

end Rendered

/-- Nodes outside of all blocks are the nodes of the template. -/
theorem Compiler.finish_addAll {d : Compiler} (hv : d.verbatim = none) (hf : d.frames = [])
    (nodes : List Node) : (nodes.foldl add d).finish = .ok (d.nodes.reverse ++ nodes) := by
  rw [foldl_add_of_nil hf]
  unfold finish
  rw [hv, hf, List.reverse_append, List.reverse_reverse]

/-- **A condition renders its first true branch.** Its branches are as many as there may be, and what
stands in them may hold conditions, too. It is read exactly if its branches are, and is then the nest of
them; it is open from its first tag to its last one, which ends nothing else. In whatever scope the nest
renders the nodes of the first branch that is true, or those that stand for all branches if none is. The
conditions up to there have only looked at the scope. The one exception is a branch that has no truth and
is reached before a true one: its error ends the text. -/
theorem cascade_renders_first_true {source : List Char} {libraries : List (String × Library)}
    {before after : List Token} {k : Cascade} {c : Compiler}
    (hscan : Token.scan source = before ++ k.tokens ++ after)
    (hrun : before.foldlM step { source, libraries } = .ok c) (hv : c.verbatim = none)
    (hk : k.Written source) :
    (∀ c', k.tokens.foldlM step c = .ok c' ↔
      ∃ branches otherwise d, c.ReadsCascade k branches otherwise d ∧
        c' = (chainOf branches otherwise).foldl add d) ∧
    (before = [] → after = [] → ∀ nodes, compile source libraries = .ok nodes ↔
      ∃ branches otherwise d, c.ReadsCascade k branches otherwise d ∧
        nodes = chainOf branches otherwise) ∧
    (∀ front rest c', k.tokens = front ++ rest → front ≠ [] → front.foldlM step c = .ok c' →
      (rest ≠ [] → ∃ inner p, c'.openTags = inner ++ p :: c.openTags) ∧
        (rest = [] → c'.openTags = c.openTags)) ∧
    ∀ branches otherwise d, c.ReadsCascade k branches otherwise d → ∀ routes s,
      let shown := (renderAll routes (chainOf branches otherwise)).run.run s
      (∀ earlier b later s', branches = earlier ++ b :: later → NoneTrue earlier s s' →
        s.Untouched (b.condition.evaluate.run s').2 ∧
        ((b.condition.evaluate.run s').1.truth = .ok true →
          shown = (renderAll routes b.body).run.run (b.condition.evaluate.run s').2) ∧
        ∀ e, (b.condition.evaluate.run s').1.truth = .error e →
          shown = (.error (.host e.leavingText), (b.condition.evaluate.run s').2)) ∧
      (∀ s', NoneTrue branches s s' →
        s.Untouched s' ∧ shown = (renderAll routes otherwise).run.run s') ∧
      ((∃ s', NoneTrue branches s s') ∨
        ∃ earlier b later s', branches = earlier ++ b :: later ∧ NoneTrue earlier s s' ∧
          ((b.condition.evaluate.run s').1.truth = .ok true ∨
            ∃ e, (b.condition.evaluate.run s').1.truth = .error e)) := by
  have hstart : ({ source, libraries } : Compiler).Consistent source := ⟨rfl, List.forall_mem_nil _⟩
  obtain ⟨hc, -⟩ := openBlocks_run hstart hrun
  refine ⟨fun c' => hk.foldlM_step_iff hv hc.source_eq, ?_, fun front rest c' hsplit hfront hfrom =>
    hk.openTags_run hc hv hsplit hfront hfrom, fun branches otherwise d _ routes s => ⟨?_, ?_, ?_⟩⟩
  · rintro rfl rfl nodes
    cases hrun
    have hfinish {branches : List Branch} {otherwise : List Node} {d : Compiler}
        (h : ({ source, libraries } : Compiler).ReadsCascade k branches otherwise d) :
        ((chainOf branches otherwise).foldl add d).finish = .ok (chainOf branches otherwise) := by
      obtain ⟨filters, tags, rfl⟩ := (hk.reads rfl rfl h).loaded
      exact finish_addAll rfl rfl _
    rw [compile, hscan, List.nil_append, List.append_nil, bind_eq_ok]
    constructor
    · rintro ⟨c', hread, hend⟩
      obtain ⟨branches, otherwise, d, h, rfl⟩ := (hk.foldlM_step_iff rfl rfl).1 hread
      exact ⟨branches, otherwise, d, h, Except.ok.inj (hend.symm.trans (hfinish h))⟩
    · rintro ⟨branches, otherwise, d, h, rfl⟩
      exact ⟨_, (hk.foldlM_step_iff rfl rfl).2 ⟨branches, otherwise, d, h, rfl⟩, hfinish h⟩
  · rintro earlier b later s' rfl hnone
    refine ⟨trans_of Scope.Untouched hnone.untouched (Condition.untouched_evaluate _ _),
      fun htrue => ?_, fun e herror => ?_⟩
    · exact hnone.run_chainOf.trans (run_chainOf_cons htrue)
    · exact hnone.run_chainOf.trans (run_chainOf_of_error herror)
  · intro s' hnone
    refine ⟨hnone.untouched, ?_⟩
    have hpassed : (renderAll routes (chainOf (branches ++ []) otherwise)).run.run s =
        (renderAll routes otherwise).run.run s' := hnone.run_chainOf
    rwa [List.append_nil] at hpassed
  · exact noneTrue_or_exists_first branches s

/-- The second of two branches is rendered. -/
theorem cascade_renders_first_true_second :
    let source := "{% if a %}1{% elif b %}2{% else %}3{% endif %}".toList
    let k : Cascade := ⟨⟨⟨.tag, ⟨0, 10⟩⟩, [⟨.text, ⟨10, 1⟩⟩]⟩, [⟨⟨.tag, ⟨11, 12⟩⟩, [⟨.text, ⟨23, 1⟩⟩]⟩],
      some ⟨⟨.tag, ⟨24, 10⟩⟩, [⟨.text, ⟨34, 1⟩⟩]⟩, ⟨.tag, ⟨35, 11⟩⟩⟩
    let s := Scope.create (some [(.str "a", .int 0), (.str "b", .int 1)]) true none
    k.Written source ∧ ∃ branches otherwise d,
      ({ source, libraries := [] } : Compiler).ReadsCascade k branches otherwise d ∧
        ((renderAll {} (chainOf branches otherwise)).run.run s).1 = .ok "2" := by
  have hscan : Token.scan "{% if a %}1{% elif b %}2{% else %}3{% endif %}".toList =
      [⟨.tag, ⟨0, 10⟩⟩, ⟨.text, ⟨10, 1⟩⟩, ⟨.tag, ⟨11, 12⟩⟩, ⟨.text, ⟨23, 1⟩⟩, ⟨.tag, ⟨24, 10⟩⟩,
        ⟨.text, ⟨34, 1⟩⟩, ⟨.tag, ⟨35, 11⟩⟩] := by
    decide +kernel
  let a : Condition Expression := .operand ⟨.path ⟨6, 1⟩ "a" [], []⟩
  let b : Condition Expression := .operand ⟨.path ⟨19, 1⟩ "b" [], []⟩
  have hnest : compile "{% if a %}1{% elif b %}2{% else %}3{% endif %}".toList [] =
      .ok [.choice ⟨0, 10⟩ a [.text ⟨10, 1⟩ "1"]
        [.choice ⟨11, 12⟩ b [.text ⟨23, 1⟩ "2"] [.text ⟨34, 1⟩ "3"]]] := by
    rw [compile, hscan]
    rfl
  intro source k s
  have htext (awaited : List String) (span : Span) : Completed source awaited [⟨.text, span⟩] :=
    .single .nil fun hk => by cases hk
  have hk : k.Written source := by
    refine ⟨⟨rfl, by decide +kernel, htext _ _⟩, ?_, ?_, rfl, by decide +kernel⟩
    · intro l hl
      obtain rfl := List.mem_singleton.1 hl
      exact ⟨rfl, by decide +kernel, htext _ _⟩
    · rintro l ⟨⟩
      exact ⟨rfl, by decide +kernel, htext _ _⟩
  have htokens : Token.scan source = [] ++ k.tokens ++ [] := hscan
  have hempty : [].foldlM step ({ source, libraries := [] } : Compiler) =
      .ok ({ source, libraries := [] } : Compiler) := rfl
  obtain ⟨-, hcompile, -⟩ := cascade_renders_first_true htokens hempty rfl hk
  obtain ⟨branches, otherwise, d, hread, hnodes⟩ := (hcompile rfl rfl _).1 hnest
  exact ⟨hk, branches, otherwise, d, hread, by rw [← hnodes]; rfl⟩

/-- A value that raises an error when it is asked for its truth, in the first of two branches: the second
one is true, but is not rendered, in whatever scope. -/
theorem cascade_without_branch :
    let source := "{% if x %}a{% elif y %}b{% endif %}".toList
    let k : Cascade := ⟨⟨⟨.tag, ⟨0, 10⟩⟩, [⟨.text, ⟨10, 1⟩⟩]⟩, [⟨⟨.tag, ⟨11, 12⟩⟩, [⟨.text, ⟨23, 1⟩⟩]⟩],
      none, ⟨.tag, ⟨24, 11⟩⟩⟩
    let first : Branch := ⟨⟨0, 10⟩, .operand ⟨.path ⟨6, 1⟩ "x" [], []⟩, [.text ⟨10, 1⟩ "a"]⟩
    let second : Branch := ⟨⟨11, 12⟩, .operand ⟨.path ⟨19, 1⟩ "y" [], []⟩, [.text ⟨23, 1⟩ "b"]⟩
    let x : Value := .object ⟨1, "Obj", "<obj>", "<obj>", false, some (.valueError "no")⟩ [] none
    let s := Scope.create (some [(.str "x", x), (.str "y", .bool true)]) true none
    Token.scan source = k.tokens ∧ k.Written source ∧
      compile source [] = .ok (chainOf [first, second] []) ∧
      (first.condition.evaluate.run s).1.truth ≠ .ok true ∧
      (second.condition.evaluate.run s).1.truth = .ok true ∧
      ((renderAll {} (chainOf [first, second] [])).run.run s).1 = .error (.host (.valueError "no")) ∧
      ∀ s', (renderAll {} (chainOf [first, second] [])).run.run s ≠
        (renderAll {} second.body).run.run s' := by
  have hscan : Token.scan "{% if x %}a{% elif y %}b{% endif %}".toList =
      [⟨.tag, ⟨0, 10⟩⟩, ⟨.text, ⟨10, 1⟩⟩, ⟨.tag, ⟨11, 12⟩⟩, ⟨.text, ⟨23, 1⟩⟩, ⟨.tag, ⟨24, 11⟩⟩] := by
    decide +kernel
  have hnest : compile "{% if x %}a{% elif y %}b{% endif %}".toList [] =
      .ok [.choice ⟨0, 10⟩ (.operand ⟨.path ⟨6, 1⟩ "x" [], []⟩) [.text ⟨10, 1⟩ "a"]
        [.choice ⟨11, 12⟩ (.operand ⟨.path ⟨19, 1⟩ "y" [], []⟩) [.text ⟨23, 1⟩ "b"] []]] := by
    rw [compile, hscan]
    rfl
  intro source k first second x s
  have htext (awaited : List String) (span : Span) : Completed source awaited [⟨.text, span⟩] :=
    .single .nil fun hk => by cases hk
  have hrun : ((renderAll {} (chainOf [first, second] [])).run.run s).1 =
      .error (.host (.valueError "no")) := rfl
  have htruth : (first.condition.evaluate.run s).1.truth = .error (.valueError "no") := rfl
  refine ⟨hscan, ⟨⟨rfl, by decide +kernel, htext _ _⟩, ?_, ?_, rfl, by decide +kernel⟩, hnest, ?_, rfl,
    hrun, fun s' heq => ?_⟩
  · intro l hl
    obtain rfl := List.mem_singleton.1 hl
    exact ⟨rfl, by decide +kernel, htext _ _⟩
  · rintro l ⟨⟩
  · rw [htruth]
    rintro ⟨⟩
  · rw [heq] at hrun
    cases hrun

end Galley
