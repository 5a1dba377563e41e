import Galley.Proofs.Order
import Galley.Proofs.Verbatim
import Mathlib.Data.List.Induction

/-!
# Blocks inside blocks

Which blocks are open behind some tokens of a template is told by the tokens alone: they fall into
tokens that leave nothing open and the beginnings of the blocks that are open, each up to the tag of
its current part. A compiler keeps exactly the tags of these parts. What is wrong with a tag, or with
the end of the template, is told with the innermost of them.

* `OpenTag`: the tag of an open part, and the names that it awaits.
* `Completed`, `Begun`: tokens that leave nothing open, and the beginning of a block.
* `OpenBehind`, `OpenAroundVerbatim`: **what is open** behind tokens.
* `OpenBlocks.behind`, `openBehind_iff`: the same, told token by token.
* `Compiler.openBlocks_run`: what a compiler keeps of the tokens that it has read.
* `open_tags_of_run`: the open parts, and the errors that name the innermost one.
-/

namespace Galley

/-! ## Open parts -/

/-- The tag of an open part: its name and its place. -/
structure OpenTag where
  name : String
  span : Span
deriving DecidableEq

/-- The names of the tags that end the part behind a tag. -/
def OpenTag.awaited (p : OpenTag) : List String := (Awaited.opened p.name).flatten

/-- The names that are awaited where parts are open, the innermost first: those that the innermost
one awaits. -/
def awaitedIn (opened : List OpenTag) : List String := (opened.head?.map OpenTag.awaited).getD []

/-- The names of the tags that open a block. -/
def blockNames : List String := ["if", "for", "autoescape"]

mutual

/-- **Tokens that leave nothing open** in a part that awaits some names. A tag in a verbatim block
ends it, whatever its name is. -/
inductive Completed (source : List Char) : List String → List Token → Prop
  | nil {awaited : List String} : Completed source awaited []
  | single {awaited : List String} {tokens : List Token} {t : Token}
    (h : Completed source awaited tokens)
    (ht : t.kind = .tag → t.name source ∉ awaited ∧ t.name source ∉ "verbatim" :: blockNames) :
    Completed source awaited (tokens ++ [t])
  | verbatim {awaited : List String} {tokens inside : List Token} {t last : Token}
    (h : Completed source awaited tokens) (ht : t.kind = .tag)
    (hname : t.name source = "verbatim") (hinside : ∀ u ∈ inside, u.kind ≠ .tag)
    (hlast : last.kind = .tag) : Completed source awaited (tokens ++ (t :: inside ++ [last]))
  | block {awaited : List String} {tokens before body : List Token} {p : OpenTag} {t : Token}
    (h : Completed source awaited tokens) (hbegun : Begun source before p)
    (hbody : Completed source p.awaited body) (ht : t.kind = .tag)
    (hname : t.name source ∈ p.awaited) (hend : Awaited.opened (t.name source) = []) :
    Completed source awaited (tokens ++ (before ++ body ++ [t]))

/-- **The beginning of a block** up to the tag of one of its parts; the parts before it are complete. -/
inductive Begun (source : List Char) : List Token → OpenTag → Prop
  | first {t : Token} (ht : t.kind = .tag) (hname : t.name source ∈ blockNames) :
    Begun source [t] ⟨t.name source, t.span⟩
  | next {before body : List Token} {p : OpenTag} {t : Token} (h : Begun source before p)
    (hbody : Completed source p.awaited body) (ht : t.kind = .tag)
    (hname : t.name source ∈ p.awaited) (hnext : Awaited.opened (t.name source) ≠ []) :
    Begun source (before ++ body ++ [t]) ⟨t.name source, t.span⟩

end

/-- **What is open behind tokens,** the innermost part first: around the open parts and in each of
them stand tokens that leave nothing open. -/
inductive OpenBehind (source : List Char) : List Token → List OpenTag → Prop
  | outside {tokens : List Token} (h : Completed source [] tokens) : OpenBehind source tokens []
  | inside {tokens before body : List Token} {opened : List OpenTag} {p : OpenTag}
    (h : OpenBehind source tokens opened) (hbegun : Begun source before p)
    (hbody : Completed source p.awaited body) :
    OpenBehind source (tokens ++ (before ++ body)) (p :: opened)

/-- **What is open around a verbatim block** in which tokens end, and whose tag stands at a place. -/
def OpenAroundVerbatim (source : List Char) (tokens : List Token) (span : Span)
    (opened : List OpenTag) : Prop :=
  ∃ before t inside, tokens = before ++ t :: inside ∧ OpenBehind source before opened ∧
    t.kind = .tag ∧ t.name source = "verbatim" ∧ t.span = span ∧ ∀ u ∈ inside, u.kind ≠ .tag

variable {source : List Char} {awaited : List String} {tokens before body more inside : List Token}
  {t last : Token} {name : String} {p : OpenTag} {opened : List OpenTag} {span : Span}

/-- No part awaits a tag that opens a block. -/
theorem not_mem_awaited (h : name ∈ "verbatim" :: blockNames) (p : OpenTag) : name ∉ p.awaited := by
  have hopened (other : String) : ∀ names ∈ Awaited.opened other,
      ∀ awaited ∈ names, awaited ∉ "verbatim" :: blockNames := by
    unfold Awaited.opened
    split <;> decide
  intro hmem
  obtain ⟨names, hnames, hname⟩ := List.mem_flatten.1 hmem
  exact hopened p.name names hnames name hname h

theorem not_mem_awaitedIn (h : name ∈ "verbatim" :: blockNames) (opened : List OpenTag) :
    name ∉ awaitedIn opened := by
  cases opened with
  | nil => exact List.not_mem_nil
  | cons p rest => exact not_mem_awaited h p

/-- A tag opens one part at most. -/
theorem map_opened (name : String) (span : Span) : Awaited.opened name = [] ∨
    Awaited.opened name ≠ [] ∧
      (Awaited.opened name).map (fun _ => OpenTag.mk name span) = [⟨name, span⟩] := by
  unfold Awaited.opened
  split
  all_goals first | exact .inl rfl | exact .inr ⟨List.cons_ne_nil _ _, rfl⟩

/-! ## Token by token -/

/-- What is open where a template is read: the parts of blocks, the innermost first, and a verbatim
block, by the place of its tag. -/
structure OpenBlocks where
  opened : List OpenTag := []
  verbatim : Option Span := none

namespace OpenBlocks

/-- **What is open behind one more token.** -/
def behind (source : List Char) (b : OpenBlocks) (t : Token) : OpenBlocks :=
  let name := t.name source
  if t.kind ≠ .tag then b
  else if b.verbatim.isSome then ⟨b.opened, none⟩
  else if name ∈ awaitedIn b.opened then
    ⟨(Awaited.opened name).map (fun _ => ⟨name, t.span⟩) ++ b.opened.tail, none⟩
  else if name ∈ blockNames then ⟨⟨name, t.span⟩ :: b.opened, none⟩
  else if name = "verbatim" then ⟨b.opened, some t.span⟩
  else b

theorem behind_of_ne_tag (b : OpenBlocks) (ht : t.kind ≠ .tag) : b.behind source t = b := if_pos ht

theorem behind_single
    (ht : t.kind = .tag → t.name source ∉ awaitedIn opened ∧
      t.name source ∉ "verbatim" :: blockNames) :
    behind source ⟨opened, none⟩ t = ⟨opened, none⟩ := by
  by_cases hk : t.kind = .tag
  · obtain ⟨hawaited, hnames⟩ := ht hk
    obtain ⟨hverbatim, hblock⟩ := not_or.1 (mt List.mem_cons.2 hnames)
    simp [behind, hk, hawaited, hverbatim, hblock]
  · exact behind_of_ne_tag _ hk

theorem behind_opens (ht : t.kind = .tag) (hname : t.name source ∈ blockNames) :
    behind source ⟨opened, none⟩ t = ⟨⟨t.name source, t.span⟩ :: opened, none⟩ := by
  have hawaited := not_mem_awaitedIn (List.mem_cons_of_mem _ hname) opened
  simp [behind, ht, hawaited, hname]

theorem behind_awaited (ht : t.kind = .tag) (hname : t.name source ∈ p.awaited) :
    behind source ⟨p :: opened, none⟩ t =
      ⟨(Awaited.opened (t.name source)).map (fun _ => ⟨t.name source, t.span⟩) ++ opened, none⟩ := by
  have hawaited : t.name source ∈ awaitedIn (p :: opened) := hname
  simp [behind, ht, hawaited]

theorem behind_verbatim (ht : t.kind = .tag) (hname : t.name source = "verbatim") :
    behind source ⟨opened, none⟩ t = ⟨opened, some t.span⟩ := by
  have hawaited : "verbatim" ∉ awaitedIn opened := not_mem_awaitedIn List.mem_cons_self opened
  have hblock : "verbatim" ∉ blockNames := by decide
  simp [behind, ht, hname, hawaited, hblock]

theorem behind_endsVerbatim (ht : t.kind = .tag) :
    behind source ⟨opened, some span⟩ t = ⟨opened, none⟩ := by
  simp [behind, ht]

/-- Where no tag is, nothing changes. -/
theorem foldl_behind_inside (h : ∀ u ∈ inside, u.kind ≠ .tag) (b : OpenBlocks) :
    inside.foldl (behind source) b = b := by
  induction inside with
  | nil => rfl
  | cons u inside ih =>
    obtain ⟨hu, hinside⟩ := List.forall_mem_cons.1 h
    rw [List.foldl_cons, behind_of_ne_tag b hu, ih hinside]

end OpenBlocks

open OpenBlocks

mutual

/-- Behind tokens that leave nothing open the same is open as before. -/
theorem Completed.foldl_behind : ∀ {awaited : List String} {tokens : List Token},
    Completed source awaited tokens → ∀ {opened : List OpenTag}, awaitedIn opened = awaited →
      tokens.foldl (behind source) ⟨opened, none⟩ = ⟨opened, none⟩
  | _, _, .nil, _, _ => rfl
  | _, _, .single h ht, _, ho => by
    rw [List.foldl_append, h.foldl_behind ho]
    exact behind_single (by rwa [ho])
  | _, _, .verbatim h ht hname hinside hlast, _, ho => by
    rw [List.foldl_append, h.foldl_behind ho, List.cons_append, List.foldl_cons,
      behind_verbatim ht hname, List.foldl_append, foldl_behind_inside hinside]
    exact behind_endsVerbatim hlast
  | _, _, .block h hbegun hbody ht hname hend, _, ho => by
    rw [List.foldl_append, h.foldl_behind ho, List.foldl_append, List.foldl_append,
      hbegun.foldl_behind, hbody.foldl_behind rfl]
    exact (behind_awaited ht hname).trans (by rw [hend]; rfl)

/-- Behind the beginning of a block its current part is open, too. -/
theorem Begun.foldl_behind : ∀ {before : List Token} {p : OpenTag}, Begun source before p →
    ∀ opened : List OpenTag,
      before.foldl (behind source) ⟨opened, none⟩ = ⟨p :: opened, none⟩
  | _, _, .first ht hname, _ => behind_opens ht hname
  | _, _, .next (t := t) h hbody ht hname hnext, _ => by
    rw [List.foldl_append, List.foldl_append, h.foldl_behind, hbody.foldl_behind rfl]
    refine (behind_awaited ht hname).trans ?_
    obtain hnil | ⟨-, hone⟩ := map_opened (t.name source) t.span
    · exact absurd hnil hnext
    · rw [hone]
      rfl

end

theorem OpenBehind.foldl_behind (h : OpenBehind source tokens opened) :
    tokens.foldl (behind source) {} = ⟨opened, none⟩ := by
  induction h with
  | outside h => exact h.foldl_behind rfl
  | inside h hbegun hbody ih =>
    rw [List.foldl_append, ih, List.foldl_append, hbegun.foldl_behind, hbody.foldl_behind rfl]

/-- What leaves nothing open in the innermost part may follow. -/
theorem OpenBehind.append (h : OpenBehind source tokens opened)
    (hmore : ∀ body, Completed source (awaitedIn opened) body →
      Completed source (awaitedIn opened) (body ++ more)) :
    OpenBehind source (tokens ++ more) opened := by
  cases h with
  | outside h => exact .outside (hmore _ h)
  | inside h hbegun hbody =>
    rw [List.append_assoc, List.append_assoc]
    exact h.inside hbegun (hmore _ hbody)

/-- **One more token** outside of verbatim blocks. -/
theorem OpenBehind.behind (h : OpenBehind source tokens opened) (t : Token) :
    (∃ opened', OpenBlocks.behind source ⟨opened, none⟩ t = ⟨opened', none⟩ ∧
      OpenBehind source (tokens ++ [t]) opened') ∨
    (OpenBlocks.behind source ⟨opened, none⟩ t = ⟨opened, some t.span⟩ ∧ t.kind = .tag ∧
      t.name source = "verbatim") := by
  by_cases hsingle : t.kind = .tag →
      t.name source ∉ awaitedIn opened ∧ t.name source ∉ "verbatim" :: blockNames
  · exact .inl ⟨opened, behind_single hsingle, h.append fun _ hbody => hbody.single hsingle⟩
  · obtain ⟨hk, hname⟩ := Classical.not_imp.1 hsingle
    by_cases hawaited : t.name source ∈ awaitedIn opened
    · cases h with
      | outside => exact absurd hawaited List.not_mem_nil
      | @inside tokens before body opened p h hbegun hbody =>
        refine .inl ⟨_, behind_awaited hk hawaited, ?_⟩
        rw [List.append_assoc]
        obtain hend | ⟨hnext, hone⟩ := map_opened (t.name source) t.span
        · rw [hend]
          exact h.append fun _ houter => houter.block hbegun hbody hk hawaited hend
        · rw [hone, ← List.append_nil (before ++ body ++ [t])]
          exact h.inside (hbegun.next hbody hk hawaited hnext) .nil
    · have hname : t.name source ∈ "verbatim" :: blockNames := by
        by_contra hnot
        exact hname ⟨hawaited, hnot⟩
      rcases List.mem_cons.1 hname with hverbatim | hblock
      · exact .inr ⟨behind_verbatim hk hverbatim, hk, hverbatim⟩
      · refine .inl ⟨_, behind_opens hk hblock, ?_⟩
        exact h.inside (.first hk hblock) .nil

/-- **What is open is told token by token.** -/
theorem openBehind_foldl (source : List Char) (tokens : List Token) :
    (∃ opened, tokens.foldl (behind source) {} = ⟨opened, none⟩ ∧ OpenBehind source tokens opened) ∨
    ∃ opened span, tokens.foldl (behind source) {} = ⟨opened, some span⟩ ∧
      OpenAroundVerbatim source tokens span opened := by
  induction tokens using List.reverseRecOn with
  | nil => exact .inl ⟨[], rfl, .outside .nil⟩
  | append_singleton tokens t ih =>
    rw [List.foldl_append]
    obtain ⟨opened, hfold, h⟩ |
      ⟨opened, span, hfold, outer, tag, inside, rfl, h, hk, hname, hspan, hinside⟩ := ih
    · rw [hfold]
      obtain ⟨opened', hbehind, h'⟩ | ⟨hbehind, hk, hname⟩ := h.behind t
      · exact .inl ⟨opened', hbehind, h'⟩
      · exact .inr ⟨opened, t.span, hbehind, tokens, t, [], rfl, h, hk, hname, rfl,
          List.forall_mem_nil _⟩
    · rw [hfold, List.append_assoc]
      by_cases ht : t.kind = .tag
      · exact .inl ⟨opened, behind_endsVerbatim ht, h.append fun _ hbody =>
          hbody.verbatim hk hname hinside ht⟩
      · refine .inr ⟨opened, span, behind_of_ne_tag _ ht, outer, tag, inside ++ [t], rfl, h, hk, hname,
          hspan, fun u hu => ?_⟩
        rcases List.mem_append.1 hu with hu | hu
        · exact hinside u hu
        · rwa [List.mem_singleton.1 hu]

theorem openBehind_iff :
    OpenBehind source tokens opened ↔ tokens.foldl (behind source) {} = ⟨opened, none⟩ := by
  refine ⟨OpenBehind.foldl_behind, fun hfold => ?_⟩
  obtain ⟨opened', hfold', h⟩ | ⟨_, _, hfold', -⟩ := openBehind_foldl source tokens
  · cases hfold.symm.trans hfold'
    exact h
  · cases hfold.symm.trans hfold'

theorem openAroundVerbatim_iff :
    OpenAroundVerbatim source tokens span opened ↔
      tokens.foldl (behind source) {} = ⟨opened, some span⟩ := by
  constructor
  · rintro ⟨outer, tag, inside, rfl, h, hk, hname, rfl, hinside⟩
    rw [List.foldl_append, h.foldl_behind, List.foldl_cons, behind_verbatim hk hname,
      foldl_behind_inside hinside]
  · intro hfold
    obtain ⟨_, hfold', -⟩ | ⟨_, _, hfold', h⟩ := openBehind_foldl source tokens
    · cases hfold.symm.trans hfold'
    · cases hfold.symm.trans hfold'
      exact h

/-! ## The compiler -/

/-- The tag of a part. -/
def Part.openTag (p : Part) : OpenTag := ⟨p.name, p.span⟩

namespace Compiler

variable {c c' : Compiler} {words : Span}

/-- The open parts, the innermost first. -/
def openParts (c : Compiler) : List Part := c.frames.map (·.part)

/-- **The tags of the open parts,** the innermost first. -/
def openTags (c : Compiler) : List OpenTag := c.openParts.map Part.openTag

/-- What is open where a compiler reads. -/
def openBlocks (c : Compiler) : OpenBlocks := ⟨c.openTags, c.verbatim.map (·.tag)⟩

/-- A compiler that reads a text is **consistent** if its parts await what their tags tell. -/
structure Consistent (c : Compiler) (source : List Char) : Prop where
  source_eq : c.source = source
  awaited : ∀ part ∈ c.openParts, part.awaited = part.openTag.awaited

theorem openParts_add (c : Compiler) (node : Node) : (c.add node).openParts = c.openParts := by
  unfold add openParts
  split
  · rfl
  · next frame rest hf => rw [hf]; rfl

theorem openParts_addChain (c : Compiler) (branches : List Branch) (otherwise : List Node) :
    (c.addChain branches otherwise).openParts = c.openParts := by
  unfold addChain
  generalize chainOf branches otherwise = nodes
  induction nodes generalizing c with
  | nil => rfl
  | cons node rest ih => rw [List.foldl_cons, ih, openParts_add]

/-- A compiler awaits the names that its innermost tag tells. -/
theorem Consistent.awaits_iff (h : c.Consistent source) (name : String) :
    c.awaits name ↔ name ∈ awaitedIn c.openTags := by
  have hawaited := h.awaited
  unfold openParts at hawaited
  unfold awaits openTags openParts
  cases hf : c.frames with
  | nil => simp [awaitedIn]
  | cons frame rest =>
    rw [hf] at hawaited
    have hframe := hawaited frame.part List.mem_cons_self
    simp [awaitedIn, hframe]

/-- Nothing is open exactly if nothing is awaited: every part awaits some tag. -/
theorem openTags_eq_nil_iff (c : Compiler) :
    c.openTags = [] ↔ ∀ name, c.awaits name = false := by
  unfold awaits openTags openParts
  cases hf : c.frames with
  | nil => simp
  | cons frame rest =>
    obtain ⟨name, hname⟩ : ∃ name, frame.part.awaited.contains name := by
      cases frame.part with
      | branch => exact ⟨"endif", rfl⟩
      | otherwise => exact ⟨"endif", rfl⟩
      | loop => exact ⟨"endfor", rfl⟩
      | empty => exact ⟨"endfor", rfl⟩
      | autoescape => exact ⟨"endautoescape", rfl⟩
    refine ⟨fun h => absurd h (List.cons_ne_nil _ _), fun h => ?_⟩
    have hnot : frame.part.awaited.contains name = false := h name
    rw [hname] at hnot
    cases hnot

/-- A compiler **keeps track** of a token if it stays consistent and what is open for it is what is
open behind the token. -/
def KeepsTrack (c : Compiler) (source : List Char) (t : Token) (c' : Compiler) : Prop :=
  c'.Consistent source ∧ c'.openBlocks = c.openBlocks.behind source t

theorem openBlocks_of_none (hv : c.verbatim = none) : c.openBlocks = ⟨c.openTags, none⟩ := by
  rw [openBlocks, hv]
  rfl

/-- A token that opens and closes nothing. -/
theorem keepsTrack_single (h : c.Consistent source) (hv : c.verbatim = none)
    (hs : c'.source = c.source) (hv' : c'.verbatim = c.verbatim) (hparts : c'.openParts = c.openParts)
    (ht : t.kind = .tag → c.awaits (t.name source) = false ∧
      t.name source ∉ "verbatim" :: blockNames) : c.KeepsTrack source t c' := by
  refine ⟨⟨hs.trans h.source_eq, hparts ▸ h.awaited⟩, ?_⟩
  rw [openBlocks_of_none hv, openBlocks_of_none (hv'.trans hv), openTags, hparts, ← openTags]
  refine (behind_single fun hk => ⟨fun hmem => ?_, (ht hk).2⟩).symm
  have hawaits := (h.awaits_iff _).2 hmem
  rw [(ht hk).1] at hawaits
  cases hawaits

/-- A tag that is made a node. -/
theorem keepsTrack_add (h : c.Consistent source) (hv : c.verbatim = none)
    (ht : c.Tagged t name words) (hnot : c.awaits name = false)
    (hname : name ∉ "verbatim" :: blockNames) (node : Node) :
    c.KeepsTrack source t (c.add node) := by
  obtain ⟨-, hs, hv'⟩ := c.awaited_add node
  have hn := ht.name_eq h.source_eq
  exact keepsTrack_single h hv hs hv' (c.openParts_add node) fun _ => by rw [hn]; exact ⟨hnot, hname⟩

/-- A tag that opens a block. -/
theorem keepsTrack_enter (h : c.Consistent source) (hv : c.verbatim = none)
    (ht : c.Tagged t name words) (hname : name ∈ blockNames) {part : Part}
    (hopen : part.openTag = ⟨name, t.span⟩) (hawaited : part.awaited = part.openTag.awaited) :
    c.KeepsTrack source t (c.enter part) := by
  have hn := ht.name_eq h.source_eq
  refine ⟨⟨h.source_eq, List.forall_mem_cons.2 ⟨hawaited, h.awaited⟩⟩, ?_⟩
  have hopened : (c.enter part).openTags = ⟨name, t.span⟩ :: c.openTags :=
    congrArg (· :: c.openTags) hopen
  rw [openBlocks_of_none hv, openBlocks_of_none (c := c.enter part) hv, hopened, ← hn]
  exact (behind_opens ht.kind (hn ▸ hname)).symm

/-- A tag that the innermost part awaits: the part ends, and the next one of its block may open. -/
theorem keepsTrack_close (h : c.Consistent source) (hv : c.verbatim = none)
    (ht : c.Tagged t name words) {frame : Frame} {rest : List Frame} (hf : c.frames = frame :: rest)
    (ha : frame.part.awaited.contains name) (hs : c'.source = c.source)
    (hv' : c'.verbatim = c.verbatim) (next : List Part)
    (hparts : c'.openParts = next ++ rest.map (·.part))
    (hnext : next.map Part.openTag = (Awaited.opened name).map fun _ => ⟨name, t.span⟩)
    (hawaited : ∀ part ∈ next, part.awaited = part.openTag.awaited) :
    c.KeepsTrack source t c' := by
  have hn := ht.name_eq h.source_eq
  have hbefore := h.awaited
  rw [Compiler.openParts, hf] at hbefore
  obtain ⟨hframe, hrest⟩ := List.forall_mem_cons.1 hbefore
  refine ⟨⟨hs.trans h.source_eq, fun part hpart => ?_⟩, ?_⟩
  · rw [hparts] at hpart
    exact (List.mem_append.1 hpart).elim (hawaited part) (hrest part)
  · have hopened : c.openTags = frame.part.openTag :: (rest.map (·.part)).map Part.openTag := by
      rw [openTags, Compiler.openParts, hf]
      rfl
    have hmem : t.name source ∈ frame.part.openTag.awaited := by
      rw [hn, ← hframe]
      simpa using ha
    rw [openBlocks_of_none hv, openBlocks_of_none (hv'.trans hv), hopened,
      behind_awaited ht.kind hmem, openTags, hparts, List.map_append, hnext, hn]

/-- **One token** outside of verbatim blocks. -/
theorem keepsTrack_of_takes (h : c.Consistent source) (hv : c.verbatim = none)
    (ht : c.Takes t c') : c.KeepsTrack source t c' := by
  have hleft (node : Node) (hk : t.kind ≠ .tag) : c.KeepsTrack source t (c.add node) := by
    obtain ⟨-, hs, hv'⟩ := c.awaited_add node
    exact keepsTrack_single h hv hs hv' (c.openParts_add node) fun hk' => absurd hk' hk
  cases ht with
  | text hk => exact hleft _ (by rw [hk]; decide)
  | comment hk =>
    exact keepsTrack_single h hv rfl rfl rfl fun hk' => by rw [hk] at hk'; cases hk'
  | output hk _ => exact hleft _ (by rw [hk]; decide)
  | autoescape ht _ => exact keepsTrack_enter h hv ht (by decide) rfl rfl
  | loop ht _ => exact keepsTrack_enter h hv ht (by decide) rfl rfl
  | choice ht _ => exact keepsTrack_enter h hv ht (by decide) rfl rfl
  | load ht hl =>
    obtain ⟨filters, tags, rfl⟩ := exists_of_load hl
    have hadd : ({ c with filters, tags } : Compiler).KeepsTrack source t
        (({ c with filters, tags } : Compiler).add (.load t.span)) :=
      keepsTrack_add (c := { c with filters, tags }) ⟨h.source_eq, h.awaited⟩ hv ⟨ht.kind, ht.words⟩
        (awaits_eq_false (by decide)) (by decide) _
    exact hadd
  | route ht _ => exact keepsTrack_add h hv ht (awaits_eq_false (by decide)) (by decide) _
  | verbatim ht _ =>
    have hn := ht.name_eq h.source_eq
    refine ⟨⟨h.source_eq, h.awaited⟩, ?_⟩
    rw [openBlocks_of_none hv, behind_verbatim ht.kind hn]
    rfl
  | call ht hnew hnot _ _ =>
    refine keepsTrack_add h hv ht hnot (fun hmem => hnew ?_) _
    have hsub : "verbatim" :: blockNames ⊆ tagNames := by decide
    exact hsub hmem
  | @elif _ tag earlier _ condition condition' nodes rest ht hf _ =>
    exact keepsTrack_close h hv ht hf rfl rfl rfl
      [.branch (earlier ++ [⟨tag, condition, nodes.reverse⟩]) "elif" t.span condition'] rfl rfl
      (List.forall_mem_singleton.2 rfl)
  | @otherwise _ tag earlier _ condition nodes rest ht hf =>
    exact keepsTrack_close h hv ht hf rfl rfl rfl
      [.otherwise (earlier ++ [⟨tag, condition, nodes.reverse⟩]) t.span] rfl rfl
      (List.forall_mem_singleton.2 rfl)
  | @empty _ tag header nodes rest ht hf =>
    exact keepsTrack_close h hv ht hf rfl rfl rfl [.empty tag header nodes.reverse t.span] rfl rfl
      (List.forall_mem_singleton.2 rfl)
  | @endBranch _ tag earlier _ condition nodes rest ht hf =>
    obtain ⟨-, hs, hv'⟩ := awaited_addChain { c with frames := rest }
      (earlier ++ [⟨tag, condition, nodes.reverse⟩]) []
    exact keepsTrack_close h hv ht hf rfl hs hv' []
      (openParts_addChain { c with frames := rest } _ _) rfl (List.forall_mem_nil _)
  | @endOtherwise _ tag earlier nodes rest ht hf =>
    obtain ⟨-, hs, hv'⟩ := awaited_addChain { c with frames := rest } earlier nodes.reverse
    exact keepsTrack_close h hv ht hf rfl hs hv' []
      (openParts_addChain { c with frames := rest } _ _) rfl (List.forall_mem_nil _)
  | @endLoop _ tag header nodes rest ht hf =>
    obtain ⟨-, hs, hv'⟩ := awaited_add { c with frames := rest } (.loop tag header nodes.reverse [])
    exact keepsTrack_close h hv ht hf rfl hs hv' []
      (openParts_add { c with frames := rest } _) rfl (List.forall_mem_nil _)
  | @endEmpty _ tag _ header body nodes rest ht hf =>
    obtain ⟨-, hs, hv'⟩ := awaited_add { c with frames := rest } (.loop tag header body nodes.reverse)
    exact keepsTrack_close h hv ht hf rfl hs hv' []
      (openParts_add { c with frames := rest } _) rfl (List.forall_mem_nil _)
  | @endAutoescape _ tag enabled nodes rest ht hf =>
    obtain ⟨-, hs, hv'⟩ := awaited_add { c with frames := rest } (.autoescape tag enabled nodes.reverse)
    exact keepsTrack_close h hv ht hf rfl hs hv' []
      (openParts_add { c with frames := rest } _) rfl (List.forall_mem_nil _)

/-- **One token,** in a verbatim block or not. -/
theorem keepsTrack_step (h : c.Consistent source) (ht : c.step t = .ok c') :
    c.KeepsTrack source t c' := by
  cases hv : c.verbatim with
  | none => exact keepsTrack_of_takes h hv ((step_eq_ok_iff hv).1 ht)
  | some block =>
    have hblocks : c.openBlocks = ⟨c.openTags, some block.tag⟩ := by
      rw [openBlocks, hv]
      rfl
    by_cases hk : t.kind = .tag
    · rw [step_endsVerbatim hv hk] at ht
      cases ht
      obtain ⟨-, hs, hv'⟩ := awaited_add { c with verbatim := none }
        (.text block.span (String.ofList block.text))
      have hparts := openParts_add { c with verbatim := none }
        (.text block.span (String.ofList block.text))
      refine ⟨⟨hs.trans h.source_eq, hparts ▸ h.awaited⟩, ?_⟩
      rw [openBlocks_of_none hv', openTags, hparts, hblocks]
      exact (behind_endsVerbatim hk).symm
    · rw [step_insideVerbatim hv hk] at ht
      cases ht
      refine ⟨⟨h.source_eq, h.awaited⟩, ?_⟩
      rw [behind_of_ne_tag _ hk, hblocks]
      rfl

/-- **All tokens:** what is open for a compiler is what is open behind the tokens that it has read. -/
theorem openBlocks_run (h : c.Consistent source) (hrun : tokens.foldlM step c = .ok c') :
    c'.Consistent source ∧ c'.openBlocks = tokens.foldl (behind source) c.openBlocks := by
  induction tokens generalizing c with
  | nil =>
    cases hrun
    exact ⟨h, rfl⟩
  | cons t rest ih =>
    rw [List.foldlM_cons, bind_eq_ok] at hrun
    obtain ⟨next, hnext, hrun⟩ := hrun
    obtain ⟨hconsistent, hblocks⟩ := keepsTrack_step h hnext
    rw [List.foldl_cons, ← hblocks]
    exact ih hconsistent hrun

/-- A tag that is not always there, not loaded and not awaited. -/
theorem step_unknownTag (hv : c.verbatim = none) (ht : c.Tagged t name words)
    (hname : name ∉ tagNames) (hload : c.tags.lookup name = none) (hnot : c.awaits name = false) :
    c.step t = .error (c.unknownTag name t.span) := by
  rw [step_libraryTag hv ht hname hnot, hload]

/-- The error of an unknown tag is told with the innermost part. -/
theorem Consistent.unknownTag_eq (h : c.Consistent source) (name : String) (span : Span) :
    c.unknownTag name span =
      match c.openTags with
      | [] => .here (.unexpectedTag name) span
      | p :: _ => .here (.wrongEndTag name (", ".intercalate p.awaited) p.span) span := by
  have hawaited := h.awaited
  unfold openParts at hawaited
  unfold unknownTag openTags openParts
  cases hf : c.frames with
  | nil => rfl
  | cons frame rest =>
    rw [hf] at hawaited
    have hframe := hawaited frame.part List.mem_cons_self
    simp only [Part.expected, hframe]
    rfl

/-- The error of an end that comes too early is told with the innermost part, too. -/
theorem Consistent.finish_eq (h : c.Consistent source) :
    c.finish =
      match c.verbatim, c.openTags with
      | some block, _ => .error (.here (.missingEndTag "verbatim" "endverbatim") block.tag)
      | none, p :: _ => .error (.here (.missingEndTag p.name (", ".intercalate p.awaited)) p.span)
      | none, [] => .ok c.nodes.reverse := by
  have hawaited := h.awaited
  unfold openParts at hawaited
  unfold finish openTags openParts
  cases c.verbatim with
  | some block => rfl
  | none =>
    cases hf : c.frames with
    | nil => rfl
    | cons frame rest =>
      rw [hf] at hawaited
      have hframe := hawaited frame.part List.mem_cons_self
      simp only [Part.expected, hframe]
      rfl

end Compiler

/-- **The open parts are known at every token.** Behind tokens that a compiler has read without an
error it has the tags of exactly the parts that are open there, each with its name and place, and
awaits what the innermost one awaits; it has none exactly if it awaits nothing. So a tag that is not
always there, not loaded and not awaited is unexpected if no part is open, and else a wrong end of
the innermost part; and the end of the template is too early for the innermost part, unless a
verbatim block is open in it. -/
theorem open_tags_of_run {libraries : List (String × Library)} {c : Compiler} {rest : List Token}
    (hscan : Token.scan source = tokens ++ rest)
    (hrun : tokens.foldlM Compiler.step { source, libraries } = .ok c) :
    (∀ opened, OpenBehind source tokens opened ↔ c.verbatim = none ∧ c.openTags = opened) ∧
    (∀ span opened, OpenAroundVerbatim source tokens span opened ↔
      c.verbatim.map (·.tag) = some span ∧ c.openTags = opened) ∧
    (∀ name, c.awaits name ↔ name ∈ awaitedIn c.openTags) ∧
    (c.openTags = [] ↔ ∀ name, c.awaits name = false) ∧
    (∀ t later name words, rest = t :: later → c.verbatim = none → c.Tagged t name words →
      name ∉ Compiler.tagNames → c.tags.lookup name = none → c.awaits name = false →
      compile source libraries = .error (match c.openTags with
        | [] => .here (.unexpectedTag name) t.span
        | p :: _ => .here (.wrongEndTag name (", ".intercalate p.awaited) p.span) t.span)) ∧
    (rest = [] → compile source libraries = match c.verbatim, c.openTags with
      | some block, _ => .error (.here (.missingEndTag "verbatim" "endverbatim") block.tag)
      | none, p :: _ => .error (.here (.missingEndTag p.name (", ".intercalate p.awaited)) p.span)
      | none, [] => .ok c.nodes.reverse) := by
  have hstart : ({ source, libraries } : Compiler).Consistent source :=
    ⟨rfl, List.forall_mem_nil _⟩
  obtain ⟨hc, hblocks⟩ := Compiler.openBlocks_run hstart hrun
  have hfold : tokens.foldl (behind source) {} = ⟨c.openTags, c.verbatim.map (·.tag)⟩ := hblocks.symm
  have hread (later : List Token) : (tokens ++ later).foldlM Compiler.step { source, libraries } =
      later.foldlM Compiler.step c := by
    rw [List.foldlM_append, hrun]
    rfl
  refine ⟨fun opened => ?_, fun span opened => ?_, hc.awaits_iff, c.openTags_eq_nil_iff, ?_, ?_⟩
  · rw [openBehind_iff, hfold, OpenBlocks.mk.injEq, Option.map_eq_none_iff, and_comm]
  · rw [openAroundVerbatim_iff, hfold, OpenBlocks.mk.injEq, and_comm]
  · rintro t later name words rfl hv ht hname hload hnot
    rw [compile, hscan, hread, List.foldlM_cons, Compiler.step_unknownTag hv ht hname hload hnot,
      hc.unknownTag_eq]
    rfl
  · rintro rfl
    rw [compile, hscan, hread]
    exact hc.finish_eq

/-- The end of a condition in a loop that is open in it. -/
theorem open_tags_of_run_crossed :
    compile "{% if a %}{% for b in c %}{% endif %}".toList [] =
      .error (.here (.wrongEndTag "endif" "empty, endfor" ⟨10, 16⟩) ⟨26, 11⟩) := by
  have hscan : Token.scan "{% if a %}{% for b in c %}{% endif %}".toList =
      [⟨.tag, ⟨0, 10⟩⟩, ⟨.tag, ⟨10, 16⟩⟩] ++ [⟨.tag, ⟨26, 11⟩⟩] := by decide +kernel
  have hrun : ([⟨.tag, ⟨0, 10⟩⟩, ⟨.tag, ⟨10, 16⟩⟩] : List Token).foldlM Compiler.step
      { source := "{% if a %}{% for b in c %}{% endif %}".toList, libraries := [] } =
      .ok { source := "{% if a %}{% for b in c %}{% endif %}".toList
            libraries := []
            frames := [
              ⟨.loop ⟨10, 16⟩ ⟨["b"], ⟨17, 1⟩, ⟨.path ⟨22, 1⟩ "c" [], []⟩, false⟩, []⟩,
              ⟨.branch [] "if" ⟨0, 10⟩ (.operand ⟨.path ⟨6, 1⟩ "a" [], []⟩), []⟩] } := rfl
  obtain ⟨-, -, -, -, herror, -⟩ := open_tags_of_run hscan hrun
  exact herror ⟨.tag, ⟨26, 11⟩⟩ [] "endif" ⟨34, 0⟩ rfl rfl ⟨rfl, ⟨⟨29, 5⟩, ⟨34, 0⟩⟩, rfl, rfl, rfl⟩
    (by decide) rfl rfl

end Galley
