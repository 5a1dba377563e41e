import Galley.Proofs.Frame
import Galley.Proofs.OpenLoops
import Galley.Proofs.Watch
import Galley.Template

/-!
# Rounds and the loops of a text

`forloop` is written between loops and read in rounds. As many loops run when an atom is looked up as
were open when it was read, and they are the same ones.

* `Round.tag`, `Round.loop`, `Round.read`: the loop of a round in the text and in a scope, and its
  counters.
* `Watched.Leads`: what is true before a computation that is watched, and what is true behind it.
* `Inside`, `leads_watchAll`: the loops of a scope are those of the rounds around, all through a
  render.
* `Look.Enclosed`, `looks_enclosed`: **what a lookup finds** of the loops around it.
-/

namespace Galley

open Rendering Watched

variable {α β : Type}

namespace Round

/-- The loop of a round as it stands in the text. -/
def tag (r : Round) : Span × LoopHeader := (r.span, r.header)

/-- The counters of the loop in a round. -/
def loop (r : Round) : Loop := ⟨r.index, r.items.length⟩

/-- **The counters of a round**: of `n` rounds the one with number `i`, from zero. -/
def read (r : Round) : LoopCounter → Value
  | .counter0 => .int r.index
  | .counter => .int (r.index + 1)
  | .revcounter => .int (r.items.length - r.index : Nat)
  | .revcounter0 => .int (r.items.length - r.index - 1 : Nat)
  | .first => .bool (r.index = 0)
  | .last => .bool (r.index = r.items.length - 1)

theorem read_loop (r : Round) (c : LoopCounter) : r.loop.read c = r.read c := by
  have hlt := r.index_lt
  cases c <;> simp only [Loop.read, loop, read] <;> congr 1 <;> grind

/-- The value of the loop itself, with the rounds around it, or of one of its counters. -/
def value (r : Round) (around : List Round) : Option LoopCounter → Value
  | some c => r.read c
  | none => Scope.nestLoops ((r :: around).map loop)

end Round

/-! ## What is true of a computation -/

namespace Watched

variable {J K M : Scope → List Look → Prop} {x : Watched α} {f : α → Watched β} {y : Rendering α}

/-- What is true of the scope and the lookups before a computation **leads** to what is true of them
behind it, whether it ends well or in a fault. -/
def Leads (J : Scope → List Look → Prop) (x : Watched α) (K : Scope → List Look → Prop) : Prop :=
  ∀ s looks, J s looks → K (x.on s looks).1.2 (x.on s looks).2

theorem leads_pure (a : α) : Leads J (pure a) J := fun _ _ h => h

theorem leads_get : Leads J get J := fun _ _ h => h

theorem leads_quiet (h : ∀ s looks, J s looks → K (y.run.run s).2 looks) : Leads J (quiet y) K := h

/-- **One after the other.** -/
theorem Leads.bind (hx : Leads J x M) (hf : ∀ a, Leads M (f a) K)
    (hfault : ∀ s looks, M s looks → K s looks) : Leads J (x >>= f) K := by
  intro s looks h
  have hfirst := hx s looks h
  rw [on_bind]
  cases hrun : x.on s looks with
  | mk made looks' =>
    rw [hrun] at hfirst
    obtain ⟨e | a, s'⟩ := made
    · exact hfault _ _ hfirst
    · exact hf a s' looks' hfirst

/-- One after the other, where the same is true between them and behind them. -/
theorem Leads.next (hx : Leads J x K) (hf : ∀ a, Leads K (f a) K) : Leads J (x >>= f) K :=
  hx.bind hf fun _ _ h => h

/-- A change of the scope before it. -/
theorem Leads.modified {f : Scope → Scope} (hx : Leads M x K)
    (hf : ∀ s looks, J s looks → M (f s) looks) : Leads J (do quiet (modify f); x) K :=
  fun s looks hs => hx (f s) looks (hf s looks hs)

theorem Leads.map {g : α → β} (hx : Leads J x K) : Leads J (do return g (← x)) K :=
  hx.next fun _ => leads_pure _

theorem leads_mapM {items : List α} (h : ∀ a ∈ items, Leads J (f a) J) :
    Leads J (items.mapM f) J := by
  induction items with
  | nil => exact leads_pure _
  | cons a rest ih =>
    obtain ⟨ha, hrest⟩ := List.forall_mem_cons.1 h
    rw [List.mapM_cons]
    exact ha.next fun _ => (ih hrest).map

theorem leads_foldlM {f : β → α → Watched β} {items : List α}
    (h : ∀ b, ∀ a ∈ items, Leads J (f b a) J) (b : β) : Leads J (items.foldlM f b) J := by
  induction items generalizing b with
  | nil => exact leads_pure _
  | cons a rest ih =>
    rw [List.foldlM_cons]
    exact (h b a List.mem_cons_self).next
      (ih fun b a ha => h b a (List.mem_cons_of_mem _ ha))

theorem Leads.attempt (hx : Leads J x K) : Leads J (attempt x) K := hx

theorem Leads.mapFault (hx : Leads J x K) (g : Fault → Fault) : Leads J (Watched.mapFault x g) K := hx

/-- What is done in any case is done to the scope that the computation leaves. -/
theorem Leads.ending (hx : Leads J x M) {last : Scope → Except HostError Unit × Scope}
    (hlast : ∀ s looks, M s looks → K (last s).2 looks) : Leads J (Watched.ending x last) K := by
  intro s looks h
  have hfirst := hlast _ _ (hx s looks h)
  change K (Watched.ending x last s looks).1.2 (Watched.ending x last s looks).2
  unfold Watched.ending
  cases hrun : x.on s looks with
  | mk made looks' =>
    rw [hrun] at hfirst
    cases hlast : last made.2 with
    | mk outcome s' =>
      rw [hlast] at hfirst
      cases outcome <;> simpa only [hlast] using hfirst

end Watched

/-! ## Loops that stay -/

namespace Scope

/-- Two scopes have the same running loops. -/
def SameLoops (s t : Scope) : Prop := t.loops = s.loops

instance : IsPreorder Scope SameLoops where
  refl _ := rfl
  trans _ _ _ h h' := h'.trans h

variable {s t : Scope}

theorem Untouched.sameLoops (h : s.Untouched t) : s.SameLoops t := by
  unfold Untouched at h
  rw [h]
  rfl

/-- Leaving a loop leaves those around it. -/
theorem loops_leaveLoop (s : Scope) : s.leaveLoop.2.loops = s.loops.tail := by
  unfold leaveLoop pop
  rcases s.upper with _ | ⟨layer, _ | _⟩ <;> rfl

end Scope

open Scope

theorem sameLoops_deliver (target : Option String) (v : Value) :
    Keeps SameLoops (deliver target v) :=
  (keeps_deliver target v).mono fun _ _ h => h.loops

theorem LoopHeader.sameLoops_bind (h : LoopHeader) (item : Value) : Keeps SameLoops (h.bind item) := by
  have hassign (name : String) (v : Value) : Keeps SameLoops (assign name v) := by
    have hkept : Keeps (KeptBut [name]) (assign name v) := keeps_assign v List.mem_cons_self
    exact hkept.mono fun _ _ h => h.loops
  unfold LoopHeader.bind
  refine ((keeps_current item).mono fun _ _ => Untouched.sameLoops).bind fun item => ?_
  split
  · exact hassign _ _
  · refine ((h.keeps_unpack item).mono fun _ _ => Untouched.sameLoops).bind fun values => ?_
    exact keeps_forM fun entry _ => hassign _ _

/-! ## The invariant -/

/-- A lookup **fits** if its atom belongs to an expression with a property, which may depend on the
loops around, and if the loops of the scope are those of the rounds around. -/
structure Look.Fits (Q : List (Span × LoopHeader) → Expression → Prop) (look : Look) : Prop where
  found : ∃ e, Q (look.rounds.map Round.tag) e ∧ look.atom ∈ e.atoms
  loops : look.scope.loops = look.rounds.map Round.loop

/-- **Inside of rounds** their loops are running, and all lookups so far fit. -/
structure Inside (Q : List (Span × LoopHeader) → Expression → Prop) (rounds : List Round) (s : Scope)
    (looks : List Look) : Prop where
  loops : s.loops = rounds.map Round.loop
  fits : ∀ look ∈ looks, look.Fits Q

/-- Between two rounds of a loop with `n` of them its number is that of some round. -/
structure Between (Q : List (Span × LoopHeader) → Expression → Prop) (n : Nat) (rounds : List Round)
    (s : Scope) (looks : List Look) : Prop where
  loops : ∃ count, s.loops = ⟨count, n⟩ :: rounds.map Round.loop
  fits : ∀ look ∈ looks, look.Fits Q

section Inside

variable {Q : List (Span × LoopHeader) → Expression → Prop} {rounds : List Round} {e : Expression}
  {a : Atom} {s t : Scope} {looks : List Look}

theorem Inside.same (h : Inside Q rounds s looks) (hst : s.SameLoops t) : Inside Q rounds t looks :=
  { h with loops := hst.trans h.loops }

theorem leads_quiet_inside {y : Rendering α} (h : Keeps SameLoops y) :
    Leads (Inside Q rounds) (quiet y) (Inside Q rounds) :=
  leads_quiet fun s _ hs => hs.same (h s)

theorem leads_quiet_untouched {y : Rendering α} (h : Keeps Untouched y) :
    Leads (Inside Q rounds) (quiet y) (Inside Q rounds) :=
  leads_quiet_inside (h.mono fun _ _ => Untouched.sameLoops)

/-- **A lookup** of an atom of an expression fits. -/
theorem Atom.leads_watch (he : Q (rounds.map Round.tag) e) (ha : a ∈ e.atoms)
    (strictness : Strictness) :
    Leads (Inside Q rounds) (a.watch rounds strictness) (Inside Q rounds) := by
  have hnote (s : Scope) : Leads (fun s' looks => s' = s ∧ Inside Q rounds s' looks)
      (note ⟨a, s, rounds⟩) (Inside Q rounds) := by
    rintro _ looks ⟨rfl, h⟩
    refine ⟨h.loops, fun look hlook => ?_⟩
    rcases List.mem_append.1 hlook with hlook | hlook
    · exact h.fits look hlook
    · rw [List.mem_singleton.1 hlook]
      exact ⟨⟨e, he, ha⟩, h.loops⟩
  intro s looks h
  have hnoted := hnote s s looks ⟨rfl, h⟩
  exact leads_quiet_untouched (a.keeps_resolve strictness) _ _ hnoted

theorem Atom.leads_watchPresent (he : Q (rounds.map Round.tag) e) (ha : a ∈ e.atoms) :
    Leads (Inside Q rounds) (a.watchPresent rounds) (Inside Q rounds) := by
  unfold watchPresent
  refine (Atom.leads_watch he ha .strict).next fun v? => ?_
  cases v? with
  | some v => exact leads_pure _
  | none =>
    exact leads_quiet_untouched (keeps_get.bind fun _ => (keeps_host _).bind fun _ => keeps_fail _ _)

theorem FilterUse.leads_watchGiven {use : FilterUse} (he : Q (rounds.map Round.tag) e)
    (huse : use ∈ e.filters) (v : Option Value) :
    Leads (Inside Q rounds) (use.watchGiven rounds v) (Inside Q rounds) := by
  have hargument (a : Atom) (ha : use.argument = some a) :
      Leads (Inside Q rounds) (a.watchPresent rounds) (Inside Q rounds) :=
    Atom.leads_watchPresent he (List.mem_cons_of_mem _ (List.mem_filterMap.2 ⟨use, huse, ha⟩))
  obtain ⟨span, filter, argument⟩ := use
  cases argument with
  | none => exact leads_pure _
  | some a =>
    cases filter with
    | builtin f =>
      unfold watchGiven
      dsimp only
      split
      · exact (hargument a rfl).map
      · exact leads_pure _
    | loaded name f => exact (hargument a rfl).map

theorem FilterUse.leads_watchApply {use : FilterUse} (he : Q (rounds.map Round.tag) e)
    (huse : use ∈ e.filters) (v : Option Value) :
    Leads (Inside Q rounds) (use.watchApply rounds v) (Inside Q rounds) := by
  refine (FilterUse.leads_watchGiven he huse v).next fun given => leads_quiet_untouched ?_
  refine (keeps_option_mapM keeps_current).bind fun v => ?_
  split
  · exact keeps_ofExcept _
  · exact keeps_get.bind fun _ => (keeps_ofExcept _).bind fun _ => keeps_option_mapM keeps_numbered

/-- **An expression.** -/
theorem Expression.leads_watch (he : Q (rounds.map Round.tag) e) (strictness : Strictness) :
    Leads (Inside Q rounds) (e.watch rounds strictness) (Inside Q rounds) :=
  (Atom.leads_watch he List.mem_cons_self strictness).next fun v =>
    leads_foldlM (fun v _ huse => FilterUse.leads_watchApply he huse v) v

/-- **A condition.** -/
theorem Condition.leads_watch {c : Condition Expression}
    (h : ∀ e, .operand e ∈ c.items → Q (rounds.map Round.tag) e) :
    Leads (Inside Q rounds) (c.watch rounds) (Inside Q rounds) := by
  induction c with
  | operand e =>
    have he := h e (List.mem_singleton.2 rfl)
    refine (Expression.leads_watch he .lenient).attempt.next fun outcome => ?_
    split <;> exact leads_pure _
  | negation c ih => exact (ih fun e he => h e (List.mem_cons_of_mem _ he)).map
  | binary operator left right ihl ihr =>
    have hleft := ihl fun e he => h e (List.mem_append_left _ he)
    have hright := ihr fun e he => h e (List.mem_append_right _ (List.mem_cons_of_mem _ he))
    refine hleft.next fun a => ?_
    split
    · exact leads_pure _
    · exact hright.next fun b => leads_get.map

theorem leads_watchArgument (he : Q (rounds.map Round.tag) e) :
    Leads (Inside Q rounds) (watchArgument rounds e) (Inside Q rounds) :=
  (Expression.leads_watch he .strict).next fun _ => leads_quiet_untouched (keeps_numbered _)

theorem leads_watchArguments {positional : List Expression} {keyword : List (String × Expression)}
    (h : ∀ e ∈ positional ++ keyword.map (·.2), Q (rounds.map Round.tag) e) :
    Leads (Inside Q rounds) (watchArguments rounds positional keyword) (Inside Q rounds) := by
  have hpositional : ∀ e ∈ positional, Q (rounds.map Round.tag) e := fun e he =>
    h e (List.mem_append_left _ he)
  have hkeyword : ∀ entry ∈ keyword, Q (rounds.map Round.tag) entry.2 := fun entry hentry =>
    h entry.2 (List.mem_append_right _ (List.mem_map_of_mem hentry))
  refine (leads_mapM fun e he => leads_watchArgument (hpositional e he)).next fun values => ?_
  refine (leads_mapM fun entry hentry => ?_).next fun named => leads_get.map
  exact (leads_watchArgument (hkeyword entry hentry)).map

namespace LoopHeader

variable {h : LoopHeader} {span : Span} {body : List Value → Value → List Value → Watched String}
  {empty : Watched String}

theorem leads_watchItems (hiterable : Q (rounds.map Round.tag) h.iterable) :
    Leads (Inside Q rounds) (h.watchItems rounds) (Inside Q rounds) := by
  refine (Expression.leads_watch hiterable .strict).next fun v? => leads_quiet_untouched ?_
  repeat' split
  all_goals first | exact keeps_pure _ | exact keeps_fail _ _

/-- **The rounds of a loop.** In each of them its counters are those of the round. -/
theorem leads_watchRounds {n : Nat} (done items : List Value) (hn : done.length + items.length = n)
    (hbody : ∀ done item rest, Leads (Inside Q (⟨span, h, done, item, rest⟩ :: rounds))
      (body done item rest) (Inside Q (⟨span, h, done, item, rest⟩ :: rounds))) :
    Leads (Between Q n rounds) (h.watchRounds body done items) (Between Q n rounds) := by
  induction items generalizing done with
  | nil => exact leads_pure _
  | cons item rest ih =>
    let round : Round := ⟨span, h, done, item, rest⟩
    have hlength : round.items.length = n := by
      rw [← hn]
      exact List.length_append
    have hrest := ih (done ++ [item]) (by rw [← hn, List.length_append]; simp; omega)
    have hcount : Leads (Between Q n rounds) (quiet (modify (·.setCount done.length)))
        (Inside Q (round :: rounds)) := by
      refine leads_quiet fun s looks hs => ⟨?_, hs.fits⟩
      obtain ⟨count, hloops⟩ := hs.loops
      change (s.setCount done.length).loops = round.loop :: rounds.map Round.loop
      unfold setCount
      rw [hloops, Round.loop, hlength]
      rfl
    have hleave (s : Scope) (looks : List Look) (hs : Inside Q (round :: rounds) s looks) :
        Between Q n rounds s looks := by
      refine ⟨⟨round.index, hs.loops.trans ?_⟩, hs.fits⟩
      rw [List.map_cons, Round.loop, hlength]
    refine hcount.bind (fun _ => ?_) hleave
    refine (leads_quiet_inside (h.sameLoops_bind item)).bind (fun _ => ?_) hleave
    refine (hbody done item rest).bind (fun text => ?_) hleave
    intro s looks hs
    exact hrest.map s looks (hleave s looks hs)

/-- **A loop** is left behind its rounds, and not entered for what stands for it without any. -/
theorem leads_watchRun (hiterable : Q (rounds.map Round.tag) h.iterable)
    (hbody : ∀ done item rest, Leads (Inside Q (⟨span, h, done, item, rest⟩ :: rounds))
      (body done item rest) (Inside Q (⟨span, h, done, item, rest⟩ :: rounds)))
    (hempty : Leads (Inside Q rounds) empty (Inside Q rounds)) :
    Leads (Inside Q rounds) (h.watchRun rounds body empty) (Inside Q rounds) := by
  refine (leads_watchItems hiterable).next fun items => ?_
  cases items with
  | nil => exact hempty
  | cons item rest =>
    have henter (s : Scope) (looks : List Look) (hs : Inside Q rounds s looks) :
        Between Q (item :: rest).length rounds (s.enterLoop ((item :: rest).length : Nat)) looks :=
      ⟨⟨0, congrArg (_ :: ·) hs.loops⟩, hs.fits⟩
    have hrounds : Leads (Between Q (item :: rest).length rounds)
        (h.watchRounds body [] (item :: rest)) (Between Q (item :: rest).length rounds) :=
      leads_watchRounds [] (item :: rest) (Nat.zero_add _) hbody
    have hended : Leads (Between Q (item :: rest).length rounds)
        (Watched.ending (h.watchRounds body [] (item :: rest)) Scope.leaveLoop) (Inside Q rounds) := by
      refine hrounds.ending fun s looks hs => ⟨?_, hs.fits⟩
      obtain ⟨count, hloops⟩ := hs.loops
      rw [loops_leaveLoop, hloops]
      rfl
    exact hended.map.modified henter

end LoopHeader

/-- **A route.** -/
theorem RouteCall.leads_watch {c : RouteCall} (h : ∀ e ∈ c.expressions, Q (rounds.map Round.tag) e)
    (routes : RouteTable) :
    Leads (Inside Q rounds) (c.watch rounds routes) (Inside Q rounds) := by
  obtain ⟨hroute, harguments⟩ := List.forall_mem_cons.1 h
  refine (leads_watchArgument hroute).next fun name => ?_
  refine (leads_watchArguments harguments).next fun arguments => leads_quiet_inside ?_
  refine ((keeps_current name).mono fun _ _ => Untouched.sameLoops).bind fun name => ?_
  refine keeps_get.bind fun s => ?_
  dsimp only
  split
  · exact sameLoops_deliver _ _
  · split
    · exact keeps_pure _
    · exact keeps_throw _

/-- **A call** of a function that does not take the scope. -/
theorem TagCall.leads_watch {c : TagCall} (h : ∀ e ∈ c.expressions, Q (rounds.map Round.tag) e)
    (hfree : c.takesScope = false) (span : Span) :
    Leads (Inside Q rounds) (c.watch rounds span) (Inside Q rounds) := by
  unfold TagCall.watch
  refine (leads_watchArguments h).next fun arguments => leads_quiet_inside ?_
  simp only [hfree, Bool.false_eq_true, if_false]
  refine keeps_get.bind fun s => ?_
  split
  · exact sameLoops_deliver _ _
  · exact keeps_fail _ _

theorem leads_watchAutoescape (enabled : Bool) {body : Watched String}
    (h : Leads (Inside Q rounds) body (Inside Q rounds)) :
    Leads (Inside Q rounds) (watchAutoescape enabled body) (Inside Q rounds) := by
  intro s looks hs
  have hset : Inside Q rounds { s with autoescape := enabled } looks := hs.same rfl
  have hrestored : Leads (Inside Q rounds)
      (Watched.ending body fun t => (.ok (), { t with autoescape := s.autoescape }))
      (Inside Q rounds) := h.ending fun _ _ ht => ht.same rfl
  exact hrestored _ _ hset

mutual

/-- **A node** looks up what fits, and leaves the loops around it running. -/
theorem Node.leads_watch (routes : RouteTable) (rounds : List Round) (node : Node)
    (h : node.Holds Q (rounds.map Round.tag)) (hfree : node.takesScope = false) :
    Leads (Inside Q rounds) (node.watch routes rounds) (Inside Q rounds) := by
  cases node with
  | text _ _ => exact leads_pure _
  | translated _ _ => exact leads_pure _
  | load _ => exact leads_pure _
  | output _ e =>
    exact (Expression.leads_watch h .lenient).next fun v => leads_quiet_untouched (keeps_written v)
  | autoescape _ enabled body =>
    exact leads_watchAutoescape enabled (leads_watchAll routes rounds body h hfree)
  | choice _ condition truthy falsey =>
    obtain ⟨hcondition, htruthy, hfalsey⟩ := h
    obtain ⟨hfree, hfree'⟩ := Bool.or_eq_false_iff.1 hfree
    have hverdict : Leads (Inside Q rounds) (watchVerdict rounds condition) (Inside Q rounds) :=
      (Condition.leads_watch hcondition).next fun _ => leads_quiet_untouched (keeps_host _)
    unfold Node.watch
    refine hverdict.next fun holds => ?_
    split
    · exact leads_watchAll routes rounds truthy htruthy hfree
    · exact leads_watchAll routes rounds falsey hfalsey hfree'
  | loop span header body empty =>
    obtain ⟨hiterable, hbody, hempty⟩ := h
    obtain ⟨hfree, hfree'⟩ := Bool.or_eq_false_iff.1 hfree
    exact LoopHeader.leads_watchRun hiterable
      (fun done item rest => leads_watchAll routes (⟨span, header, done, item, rest⟩ :: rounds) body
        hbody hfree)
      (leads_watchAll routes rounds empty hempty hfree')
  | route _ call => exact call.leads_watch h routes
  | call span call => exact call.leads_watch h hfree span

/-- So do nodes one behind the other. -/
theorem leads_watchAll (routes : RouteTable) (rounds : List Round) (nodes : List Node)
    (h : AllHold Q (rounds.map Round.tag) nodes) (hfree : anyTakesScope nodes = false) :
    Leads (Inside Q rounds) (watchAll routes rounds nodes) (Inside Q rounds) := by
  cases nodes with
  | nil => exact leads_pure _
  | cons node rest =>
    obtain ⟨hnode, hrest⟩ := h
    obtain ⟨hfree, hfree'⟩ := Bool.or_eq_false_iff.1 hfree
    unfold watchAll
    refine ((Node.leads_watch routes rounds node hnode hfree).mapFault _).next fun _ => ?_
    exact (leads_watchAll routes rounds rest hrest hfree').map

end

end Inside

/-! ## What a lookup finds -/

/-- Whether an atom is a running loop. -/
def Atom.isLoop : Atom → Bool
  | .loop .. => true
  | _ => false

/-- `forloop` is a running loop if it is read in the body of a loop, and else a variable. -/
theorem Reader.isLoop_iff {r : Reader} {operand : Operand} {a : Atom} (h : r.atom operand = .ok a)
    (hroot : a.rootName = "forloop") : a.isLoop ↔ 0 < r.loopDepth := by
  have hliteral : "" ≠ "forloop" := by decide
  unfold atom at h
  split at h
  · unfold number at h
    dsimp only at h
    split at h
    · cases h
      exact absurd hroot hliteral
    · split at h <;> cases h
      exact absurd hroot hliteral
  · obtain ⟨text, -, h⟩ := bind_eq_ok.1 h
    cases h
    exact absurd hroot hliteral
  · obtain ⟨text, -, h⟩ := bind_eq_ok.1 h
    cases h
    exact absurd hroot hliteral
  · cases h
    unfold path at hroot ⊢
    split
    · next hp =>
      rw [hp] at hroot
      exact absurd hroot hliteral
    · next root names hp =>
      rw [hp] at hroot
      dsimp only at hroot
      split
      · next hloop =>
        simp only [Bool.and_eq_true, decide_eq_true_eq] at hloop
        exact iff_of_true rfl hloop.1
      · next hloop =>
        rw [if_neg hloop] at hroot
        have hname : root = "forloop" := hroot
        simp only [Bool.and_eq_true, decide_eq_true_eq, not_and] at hloop
        exact iff_of_false Bool.false_ne_true fun hpos => hloop hpos hname

/-- **The loop around at some distance** is that of the round there. -/
theorem loopValue_rounds {s : Scope} {rounds around : List Round} {round : Round} {parents : Nat}
    (hloops : s.loops = rounds.map Round.loop) (hdrop : rounds.drop parents = round :: around)
    (requested : Option LoopCounter) :
    loopValue s parents requested = .ok (some (round.value around requested)) := by
  have hdrop' : s.loops.drop parents = round.loop :: around.map Round.loop := by
    rw [hloops, ← List.map_drop, hdrop, List.map_cons]
  have hget : s.loops[parents]? = some round.loop := by
    rw [← List.head?_drop, hdrop']
    rfl
  have hat : s.loopAt parents = .ok (some round.loop) := by
    simp only [Scope.loopAt, Int.toNat_natCast, hget]
    rfl
  unfold loopValue
  rw [hat]
  cases requested with
  | some c => exact congrArg (Except.ok ∘ some) (round.read_loop c)
  | none =>
    have hlt : parents < s.loops.length := (List.getElem?_eq_some_iff.1 hget).1
    have hwithin : s.loopsWithin parents = parents := by
      simp only [Scope.loopsWithin]
      omega
    change Except.ok (some (s.loopDict parents)) = _
    rw [Scope.loopDict, hwithin, hdrop']
    rfl

/-- **A lookup is enclosed** as the text says. `c` is the compiler that was about to read the token in
which the atom is written. -/
structure Look.Enclosed (look : Look) (c : Compiler) : Prop where
  /-- As many loops are running as were open. -/
  depth : look.scope.loops.length = c.reader.loopDepth
  /-- They are the same ones, the innermost first. -/
  tags : look.rounds.map Round.tag = c.openLoops
  /-- The counters of each are those of its round. -/
  loops : look.scope.loops = look.rounds.map Round.loop
  /-- `forloop` is a running loop inside of loops, and an ordinary variable outside. -/
  name : look.atom.rootName = "forloop" → (look.atom.isLoop ↔ look.rounds ≠ [])
  /-- A running loop some way out is the loop of the round there. -/
  value : ∀ span parents requested names round around,
    look.atom = .loop span parents requested names → look.rounds.drop parents = round :: around →
      ∀ strictness, (look.atom.resolve strictness).run.run look.scope =
        ((round.value around requested).follow strictness span.start
          (loopPathLength parents requested) names).run.run look.scope

theorem Look.Fits.enclosed {source : List Char} {libraries : List (String × Library)} {look : Look}
    (h : look.Fits (FoundBetween source libraries)) :
    ∃ c t e, Compiler.Reached c source libraries t ∧ c.Finds t e ∧ look.atom ∈ e.atoms ∧
      look.Enclosed c := by
  obtain ⟨e, ⟨c, t, hreached, hfinds, hopen⟩, hmem⟩ := h.found
  obtain ⟨operand, hread⟩ := hfinds.exists_operand hmem
  have hlength : c.reader.loopDepth = look.rounds.length := by
    rw [c.loopDepth_reader, hopen, List.length_map]
  refine ⟨c, t, e, hreached, hfinds, hmem, ?_, hopen.symm, h.loops, fun hroot => ?_, ?_⟩
  · rw [h.loops, List.length_map, hlength]
  · rw [Reader.isLoop_iff hread hroot, hlength, List.length_pos_iff]
  · intro span parents requested names round around hatom hdrop strictness
    rw [hatom]
    rw [Atom.run_resolve_loop, loopValue_rounds h.loops hdrop requested]

theorem loops_ofContext {context : Value} {autoescape : Bool} {request : Option Request} {s : Scope}
    (h : Scope.ofContext context autoescape request = .ok s) : s.loops = [] := by
  unfold Scope.ofContext at h
  split at h <;> cases h <;> rfl

/-- **`forloop` refers to the loops around it.** In every render of a template without tags that take
the scope, each lookup of an atom is enclosed as the text says. -/
theorem looks_enclosed {source : String} {name : Option String}
    {libraries : List (String × Library)} {t : Template}
    (hcompile : Template.compile source name libraries = .ok t)
    (hfree : anyTakesScope t.nodes = false) (routes : RouteTable) {context : Value}
    {autoescape : Bool} {request : Option Request} {s : Scope}
    (hcontext : Scope.ofContext context autoescape request = .ok s) :
    let bound : Scope := { s with bound := true, templateName := Template.scopeName t.name }
    let watched := (watchAll routes [] t.nodes).on bound []
    watched.1 = (renderAll routes t.nodes).run.run bound ∧
      ∀ look ∈ watched.2, ∃ c token e, Compiler.Reached c source.toList libraries token ∧
        c.Finds token e ∧ look.atom ∈ e.atoms ∧ look.Enclosed c := by
  intro bound watched
  refine ⟨mirrors_watchAll routes [] t.nodes bound [], fun look hlook => ?_⟩
  have hnodes : compile source.toList libraries = .ok t.nodes := by
    unfold Template.compile at hcompile
    split at hcompile
    · next nodes h =>
      cases hcompile
      exact h
    · cases hcompile
  have hloops : bound.loops = s.loops := rfl
  have hstart : Inside (FoundBetween source.toList libraries) [] bound [] :=
    ⟨hloops.trans (loops_ofContext hcontext), List.forall_mem_nil _⟩
  have hend := leads_watchAll routes [] t.nodes (allHold_compile hnodes) hfree bound [] hstart
  exact (hend.fits look hlook).enclosed

/-- A loop in a loop, with something for the rounds in which the inner one has none. -/
def table : String :=
  "{% for x in xs %}{% for y in x %}{{ forloop.parentloop.first }}" ++
    "{% empty %}{{ forloop.last }}{% endfor %}{% endfor %}"

set_option maxRecDepth 2000 in
/-- In both places the outer loop is read. -/
theorem looks_enclosed_table :
    ∃ t s, Template.compile table none [] = .ok t ∧ anyTakesScope t.nodes = false ∧
      Scope.ofContext (.dict 0 [(.str "xs", .list 0 [.list 0 [.int 7], .list 0 []])]) true none =
        .ok s ∧
      let watched := (watchAll {} [] t.nodes).on
        { s with bound := true, templateName := Template.scopeName t.name } []
      watched.1.1 = .ok "TrueTrue" ∧
        watched.2.map (fun look => (look.atom.span.start, look.rounds.map Round.index)) =
          [(12, []), (29, [0]), (36, [0, 0]), (29, [1]), (77, [1])] ∧
        ∀ look ∈ watched.2, ∃ c token e, Compiler.Reached c table.toList [] token ∧
          c.Finds token e ∧ look.atom ∈ e.atoms ∧ look.Enclosed c := by
  let nodes : List Node :=
    [.loop ⟨0, 17⟩ ⟨["x"], ⟨7, 1⟩, ⟨.path ⟨12, 2⟩ "xs" [], []⟩, false⟩
      [.loop ⟨17, 16⟩ ⟨["y"], ⟨24, 1⟩, ⟨.path ⟨29, 1⟩ "x" [], []⟩, false⟩
        [.output ⟨33, 30⟩ ⟨.loop ⟨36, 24⟩ 1 (some .first) [], []⟩]
        [.output ⟨74, 18⟩ ⟨.loop ⟨77, 12⟩ 0 (some .last) [], []⟩]] []]
  have hscan : Token.scan table.toList =
      [⟨.tag, ⟨0, 17⟩⟩, ⟨.tag, ⟨17, 16⟩⟩, ⟨.interpolation, ⟨33, 30⟩⟩, ⟨.tag, ⟨63, 11⟩⟩,
        ⟨.interpolation, ⟨74, 18⟩⟩, ⟨.tag, ⟨92, 12⟩⟩, ⟨.tag, ⟨104, 12⟩⟩] := by decide +kernel
  have hnodes : compile table.toList [] = .ok nodes := by
    rw [compile, hscan]
    rfl
  have hcompile : Template.compile table none [] = .ok ⟨table.toList, none, nodes⟩ := by
    rw [Template.compile, hnodes]
  let layer : Layer := [(.str "xs", .list 0 [.list 0 [.int 7], .list 0 []])]
  have hcontext : Scope.ofContext (.dict 0 layer) true none =
      .ok (Scope.create (some layer) true none) := rfl
  obtain ⟨-, hlooks⟩ := looks_enclosed hcompile rfl {} hcontext
  exact ⟨_, _, hcompile, rfl, hcontext, by cbv, by cbv, hlooks⟩

end Galley
