import Galley.Proofs.Declared
import Galley.Proofs.Effects
import Galley.Proofs.Remarks
import Mathlib

/-!
# Every error of a template can be shown

Rendering reports an error at a place that the tree remembers, or at two: a name behind a dot with
what stands before the dot, and the names of a loop with its expression. In a tree that stands in
its text these places lie there and are apart, and so the error can be shown.

* `FaultLocated`, `Rendering.Locates`: outcomes and computations whose template errors are located,
  with one lemma for each way to build a computation.
* `Value.locates_follow`, `Atom.locates_resolve`, `Expression.locates_resolve`: looking at values.
* `RefusesAt`, `BuiltinFilter.refusesAt_apply`: the faults that a filter has of its own.
* `LoopHeader.locates_run`, `locates_renderAll`: loops and nodes.
* `shown_of_error`: every error of a template, from compiling it or from rendering it, can be shown.
-/

namespace Galley

open Rendering

variable {source : List Char} {α β : Type}

/-! ## Outcomes -/

/-- An outcome has its fault **located** in a text if an error of the template in it is located there.
An error of the application has no place. -/
def FaultLocated (source : List Char) (x : Except Fault α) : Prop :=
  ∀ e, x = .error (.template e) → e.Located source

theorem faultLocated_ok (a : α) : FaultLocated source (.ok a : Except Fault α) :=
  fun _ he => nomatch he

theorem faultLocated_host (e : HostError) : FaultLocated source (.error (.host e) : Except Fault α) :=
  fun _ he => nomatch he

theorem faultLocated_here {cause : Cause} {span : Span} (h : span.Within source)
    (ho : ∀ s ∈ cause.otherSpans, s.Within source ∧ s.Apart span) :
    FaultLocated source (.error (.template (.here cause span)) : Except Fault α) := by
  intro e he
  cases he
  exact located_here h ho

/-! ## Computations -/

namespace Rendering

/-- A computation **locates** its faults in a text if its outcome has them located, in whatever scope
it starts. -/
def Locates (source : List Char) (x : Rendering α) : Prop :=
  ∀ s, FaultLocated source (x.run.run s).1

variable {x : Rendering α} {f : α → Rendering β}

theorem locates_pure (a : α) : Locates source (pure a) := fun _ => faultLocated_ok a

theorem locates_get : Locates source (get : Rendering Scope) := fun s => faultLocated_ok s

theorem locates_modify (g : Scope → Scope) : Locates source (modify g : Rendering Unit) :=
  fun _ => faultLocated_ok _

theorem locates_set (s : Scope) : Locates source (set s : Rendering Unit) :=
  fun _ => faultLocated_ok _

theorem locates_lift (x : StateM Scope α) : Locates source (liftM x : Rendering α) :=
  fun _ => faultLocated_ok _

theorem locates_ofExcept {outcome : Except Fault α} (h : FaultLocated source outcome) :
    Locates source (ofExcept outcome) := by
  intro s
  rw [run_ofExcept]
  exact h

theorem locates_hostError (e : HostError) : Locates source (throw (.host e) : Rendering α) :=
  fun _ => faultLocated_host e

theorem locates_host (outcome : Except HostError α) : Locates source (host outcome) := by
  cases outcome with
  | ok a => exact locates_pure a
  | error e => exact locates_hostError e

theorem locates_fail {cause : Cause} {span : Span} (h : span.Within source)
    (ho : ∀ s ∈ cause.otherSpans, s.Within source ∧ s.Apart span) :
    Locates source (fail cause span : Rendering α) := fun _ => faultLocated_here h ho

/-- One after the other, where the second computation depends on what the first came to. -/
theorem Locates.bind_of_ok (hx : Locates source x)
    (hf : ∀ a s, (x.run.run s).1 = .ok a → Locates source (f a)) : Locates source (x >>= f) := by
  intro s e he
  rw [run_bind] at he
  have hfirst := hx s e
  have hsecond (a : α) := hf a s
  -- the fault is that of the first one, or of the second one in the scope left by it
  rcases hrun : x.run.run s with ⟨a | fault, s'⟩
  · rw [hrun] at he
    cases he
    rw [hrun] at hfirst
    exact hfirst rfl
  · rw [hrun] at he hsecond
    exact hsecond _ rfl s' e he

/-- **One after the other.** -/
theorem Locates.bind (hx : Locates source x) (hf : ∀ a, Locates source (f a)) :
    Locates source (x >>= f) := hx.bind_of_ok fun a _ _ => hf a

theorem Locates.map {g : α → β} (hx : Locates source x) : Locates source (do return g (← x)) :=
  hx.bind fun _ => locates_pure _

theorem locates_option_mapM {o : Option α} (h : ∀ a, Locates source (f a)) :
    Locates source (o.mapM f) := by
  cases o with
  | none => exact locates_pure _
  | some a => exact (h a).map

theorem locates_mapM {items : List α} (h : ∀ a ∈ items, Locates source (f a)) :
    Locates source (items.mapM f) := by
  induction items with
  | nil => exact locates_pure _
  | cons a rest ih =>
    obtain ⟨ha, hrest⟩ := List.forall_mem_cons.1 h
    rw [List.mapM_cons]
    exact ha.bind fun _ => (ih hrest).bind fun _ => locates_pure _

theorem locates_forM {f : α → Rendering PUnit} {items : List α} (h : ∀ a, Locates source (f a)) :
    Locates source (items.forM f) := by
  induction items with
  | nil => exact locates_pure _
  | cons a rest ih => exact (h a).bind fun _ => ih

theorem locates_foldlM {f : β → α → Rendering β} {items : List α}
    (h : ∀ b, ∀ a ∈ items, Locates source (f b a)) (b : β) : Locates source (items.foldlM f b) := by
  induction items generalizing b with
  | nil => exact locates_pure _
  | cons a rest ih =>
    rw [List.foldlM_cons]
    refine (h b a List.mem_cons_self).bind fun b' => ?_
    exact ih (fun b a ha => h b a (List.mem_cons_of_mem _ ha)) b'

/-- What is done in any case can only fail in the application. -/
theorem Locates.ending (hx : Locates source x) (last : Scope → Except HostError Unit × Scope) :
    Locates source (ending x last) := by
  intro s e he
  have hfirst := hx s e
  change (Rendering.ending x last s).1 = _ at he
  unfold Rendering.ending at he
  rcases hrun : x.run.run s with ⟨outcome, s'⟩
  rw [hrun] at he hfirst
  dsimp only at he
  rcases hlast : last s' with ⟨_ | _, s''⟩
  · rw [hlast] at he
    cases he
  · rw [hlast] at he
    exact hfirst he

theorem Locates.closed {part : Rendering String} (h : Locates source part) :
    Locates source (closed part) := by
  intro s e he
  have hpart := h s
  change (part.run.run s).1.mapError _ = _ at he
  rcases hrun : (part.run.run s).1 with (e' | e') | text
  · rw [hrun] at he hpart
    cases he
    exact hpart e rfl
  · rw [hrun] at he
    cases he
  · rw [hrun] at he
    cases he

theorem locates_current (v : Value) : Locates source (current v) :=
  locates_get.bind fun _ => locates_pure _

theorem locates_numbered (v : Value) : Locates source (numbered v) := fun _ => faultLocated_ok _

end Rendering

/-! ## Looking at values -/

theorem locates_hushed (result : Except HostError (Option Value)) : Locates source (hushed result) := by
  unfold hushed
  split
  · exact locates_pure _
  · split
    · exact locates_pure _
    · exact locates_hostError _

/-- A name that is not found behind a value is reported with what stands before its dot. -/
theorem Value.locates_dot {strictness : Strictness} {v : Value} {name : String} {start offset : Nat}
    (h : start + offset + (name.length + 1) ≤ source.length) :
    Locates source (v.dot strictness name start offset) := by
  have hcall (w : Value) : Locates source (do (← hushed w.called).mapM Rendering.numbered) :=
    (locates_hushed _).bind fun _ => locates_option_mapM locates_numbered
  unfold Value.dot
  split
  · -- what is found may be called, and fails in the application at most
    split
    · exact (locates_modify _).bind fun _ => hcall _
    · exact hcall _
  · exact locates_hushed _
  · cases strictness with
    | lenient => exact locates_pure _
    | strict =>
      -- the dot stands between the two places
      have hbefore : (⟨start, offset⟩ : Span).Before (start + offset + 1) :=
        ⟨Nat.lt_succ_of_le (Nat.le_add_right _ _), Nat.le_succ _⟩
      have hobject : (⟨start, offset⟩ : Span).Within source := by
        simp only [Span.Within, Span.stop]
        omega
      have hname : (⟨start + offset + 1, name.length⟩ : Span).Within source := by
        simp only [Span.Within, Span.stop]
        omega
      intro s
      change FaultLocated source (.error (lookupError name v start offset))
      unfold lookupError
      split
      · exact faultLocated_here hname (List.forall_mem_singleton.2 ⟨hobject, .inl hbefore⟩)
      · exact faultLocated_host _

/-- **The names behind a value** have room in the text. -/
theorem Value.locates_follow {strictness : Strictness} {v : Value} {start offset : Nat}
    {names : List String} (h : start + offset + namesLength names ≤ source.length) :
    Locates source (v.follow strictness start offset names) := by
  -- each name that was followed belongs to what stands before the next dot
  induction names generalizing v offset with
  | nil => exact locates_pure _
  | cons name rest ih =>
    rw [namesLength_cons] at h
    unfold Value.follow
    refine (Value.locates_dot (by omega)).bind fun next? => ?_
    cases next? with
    | none => exact locates_pure _
    | some next => exact ih (by omega)

theorem Atom.locates_resolve {a : Atom} (strictness : Strictness) (h : a.StandsIn source) :
    Locates source (a.resolve strictness) := by
  have hroom : a.span.start + a.pathLength ≤ source.length :=
    Nat.le_trans (Nat.add_le_add_left h.path _) h.within
  unfold Atom.resolve
  split
  · exact locates_pure _
  · exact locates_pure _
  · exact locates_pure _
  · exact locates_pure _
  · -- a variable and the names behind it
    simp only [Atom.span, Atom.pathLength, ← Nat.add_assoc] at hroom
    refine locates_get.bind fun s => ?_
    split
    · exact locates_pure _
    · refine (locates_current _).bind fun v => (locates_host _).bind fun called? => ?_
      cases called? with
      | none => exact locates_pure _
      | some v => exact (locates_numbered v).bind fun _ => Value.locates_follow hroom
  · -- a running loop: its counter is a part of what stands before the names
    simp only [Atom.span, Atom.pathLength, ← Nat.add_assoc] at hroom
    refine locates_get.bind fun s => (locates_host _).bind fun loop? => ?_
    cases loop? with
    | none => exact locates_pure _
    | some v => exact Value.locates_follow hroom

theorem Atom.locates_resolvePresent {a : Atom} (h : a.StandsIn source) :
    Locates source a.resolvePresent := by
  unfold Atom.resolvePresent
  refine (a.locates_resolve .strict h).bind fun v? => ?_
  cases v? with
  | some v => exact locates_pure _
  | none =>
    refine locates_get.bind fun _ => (locates_host _).bind fun _ => ?_
    exact locates_fail h.within (List.forall_mem_nil _)

/-! ## Filters -/

/-- **The faults of a filter** with an argument: the application fails, or the argument is no width. -/
inductive Fault.OfFilter (argument : Atom) : Fault → Prop
  | host (e : HostError) : OfFilter argument (.host e)
  | notAnInteger (shown : String) :
    OfFilter argument (.template (.here (.notAnInteger shown) argument.span))
  | notFinite (shown : String) :
    OfFilter argument (.template (.here (.notFinite shown) argument.span))
  | integerOverflow (n : Int) :
    OfFilter argument (.template (.here (.integerOverflow n) argument.span))

/-- An outcome that **refuses at an argument** if anywhere: its fault is one of a filter with it. -/
def RefusesAt (argument : Atom) (x : Except Fault α) : Prop := ∀ f, x = .error f → f.OfFilter argument

section Refusals

variable {a : Atom}

theorem refusesAt_ok (b : α) : RefusesAt a (.ok b : Except Fault α) := fun _ h => nomatch h

theorem refusesAt_error {f : Fault} (h : f.OfFilter a) :
    RefusesAt a (.error f : Except Fault α) := by
  rintro _ ⟨⟩
  exact h

theorem refusesAt_ofHost (outcome : Except HostError α) : RefusesAt a (ofHost outcome) := by
  cases outcome with
  | ok b => exact refusesAt_ok b
  | error e => exact refusesAt_error (.host e)

theorem RefusesAt.bind {x : Except Fault α} {f : α → Except Fault β} (hx : RefusesAt a x)
    (hf : ∀ b, RefusesAt a (f b)) : RefusesAt a (x >>= f) := by
  cases x with
  | ok b => exact hf b
  | error fault => exact refusesAt_error (hx fault rfl)

/-- Such a fault is located where the argument is. -/
theorem RefusesAt.faultLocated {x : Except Fault α} (hx : RefusesAt a x)
    (h : a.span.Within source) : FaultLocated source x := by
  rintro e rfl
  have hhere {cause : Cause} (ho : cause.otherSpans = []) :
      (TemplateError.here cause a.span).Located source :=
    located_here h (by rw [ho]; exact List.forall_mem_nil _)
  cases hx _ rfl with
  | notAnInteger _ | notFinite _ | integerOverflow _ => exact hhere rfl

/-- A width that is no integer is reported at the argument. -/
theorem Value.refusesAt_toWidth (v : Value) (a : Atom) : RefusesAt a (v.toWidth a) := by
  have hbounded (n : Int) : RefusesAt a (if Integer.fitsWord n then .ok n
      else if Integer.hasText n then .error (.template (.here (.integerOverflow n) a.span))
      else .error (.host .tooManyDigits)) := by
    split
    · exact refusesAt_ok _
    · split
      · exact refusesAt_error (.integerOverflow n)
      · exact refusesAt_error (.host _)
  unfold toWidth
  dsimp only
  split
  · exact refusesAt_ok _
  · exact hbounded _
  · exact refusesAt_error (.notFinite _)
  · split
    · exact hbounded _
    · exact refusesAt_error (.notFinite _)
  · split
    · exact hbounded _
    · split
      · exact refusesAt_error (.notAnInteger _)
      · exact refusesAt_error (.host _)

theorem refusesAt_onText (v : Option Value) (f : List Char → List Char) :
    RefusesAt a (onText v f) :=
  (refusesAt_ofHost _).bind fun _ => refusesAt_ok _

/-- **A filter that is always there** refuses nothing but the width that an argument asks for. -/
theorem BuiltinFilter.refusesAt_apply (f : BuiltinFilter) (argument : Option Argument)
    (v : Option Value) :
    RefusesAt (argument.getD ⟨.text ⟨0, 0⟩ "", .str ""⟩).atom (f.apply argument v) := by
  unfold apply
  cases f with
  | add =>
    cases v with
    | none => exact refusesAt_ok _
    | some v => exact refusesAt_ofHost _
  | addslashes => exact refusesAt_onText _ _
  | capfirst => exact refusesAt_onText _ _
  | center =>
    refine (Value.refusesAt_toWidth _ _).bind fun width => ?_
    refine (refusesAt_ofHost _).bind fun text => ?_
    dsimp only
    split
    · exact refusesAt_error (.host _)
    · exact refusesAt_ok _
  | default => exact refusesAt_ok _
  | escape =>
    dsimp only
    split
    · exact refusesAt_ok _
    · exact (refusesAt_ofHost _).bind fun _ => refusesAt_ok _
  | lower => exact refusesAt_onText _ _
  | safe => exact (refusesAt_ofHost _).bind fun _ => refusesAt_ok _
  | slugify =>
    dsimp only
    split
    · exact (refusesAt_ofHost _).bind fun _ => refusesAt_ok _
    · exact refusesAt_ok _
    · exact refusesAt_ok _
    · exact refusesAt_onText _ _
  | upper => exact refusesAt_onText _ _
  | wordwrap =>
    refine (Value.refusesAt_toWidth _ _).bind fun width => ?_
    dsimp only
    split
    · exact refusesAt_error (.host _)
    · exact refusesAt_onText _ _
  | yesno => exact refusesAt_ofHost _

/-- A filter of a library has no faults of its own. -/
theorem refusesAt_applyLoaded (f : Function) (argument : Option Argument) (v : Option Value)
    (scope : Scope) : RefusesAt a (applyLoaded f argument v scope) := by
  unfold applyLoaded
  dsimp only
  refine (refusesAt_ofHost _).bind fun result => ?_
  split
  · exact (refusesAt_ofHost _).bind fun _ => refusesAt_ok _
  · exact refusesAt_ok _

end Refusals

theorem BuiltinFilter.faultLocated_apply (f : BuiltinFilter) {argument : Option Argument}
    (v : Option Value) (h : ∀ given ∈ argument, given.atom.span.Within source) :
    FaultLocated source (f.apply argument v) := by
  -- without an argument its place is the start of the text, which lies in every text
  have hgiven : (argument.getD ⟨.text ⟨0, 0⟩ "", .str ""⟩).atom.span.Within source := by
    cases argument with
    | none => exact Nat.zero_le _
    | some given => exact h given rfl
  exact (f.refusesAt_apply argument v).faultLocated hgiven

theorem faultLocated_applyLoaded (f : Function) (argument : Option Argument) (v : Option Value)
    (scope : Scope) : FaultLocated source (applyLoaded f argument v scope) := by
  -- it reports nowhere, so not outside the text either
  have hstart : (Atom.text ⟨0, 0⟩ "").span.Within source := Nat.zero_le _
  exact (refusesAt_applyLoaded f argument v scope).faultLocated hstart

namespace FilterUse

variable {use : FilterUse} {v : Option Value}

/-- What a filter is given is looked up, or nothing is. -/
theorem locates_given (h : use.StandsIn source) : Locates source (use.given v) := by
  unfold given
  split
  · exact locates_pure _
  · next a _ ha _ =>
    have hpresent := Atom.locates_resolvePresent (h.argument a ha)
    split
    · exact hpresent.map
    · exact locates_pure _
  · next a _ _ ha _ =>
    have hpresent := Atom.locates_resolvePresent (h.argument a ha)
    exact hpresent.map

/-- The argument that a filter is given is its own. -/
theorem argument_of_given {s : Scope} {given : Option Argument}
    (h : ((use.given v).run.run s).1 = .ok given) : ∀ a ∈ given, use.argument = some a.atom := by
  unfold FilterUse.given at h
  split at h
  · cases h
    nofun
  · next a _ ha _ =>
    split at h
    · obtain ⟨value, s', -, h⟩ := exists_of_run_bind h
      cases h
      rintro _ ⟨⟩
      exact ha
    · cases h
      nofun
  · next a _ _ ha _ =>
    obtain ⟨value, s', -, h⟩ := exists_of_run_bind h
    cases h
    rintro _ ⟨⟩
    exact ha

/-- **A filter in use** reports at its argument. -/
theorem locates_apply (v : Option Value) (h : use.StandsIn source) :
    Locates source (use.apply v) := by
  unfold apply
  -- the place that a width is reported at is that of the argument in the tree
  refine (locates_given h).bind_of_ok fun given s hgiven => ?_
  have hargument : ∀ a ∈ given, a.atom.span.Within source := fun a ha =>
    (h.argument a.atom (argument_of_given hgiven a ha)).within
  refine (locates_option_mapM locates_current).bind fun v => ?_
  split
  · exact locates_ofExcept (BuiltinFilter.faultLocated_apply _ _ hargument)
  · refine locates_get.bind fun s => ?_
    refine (locates_ofExcept (faultLocated_applyLoaded _ _ _ s)).bind fun result => ?_
    exact locates_option_mapM locates_numbered

end FilterUse

/-- **An expression** reports at its atom or at the argument of a filter. -/
theorem Expression.locates_resolve {e : Expression} (strictness : Strictness)
    (h : e.StandsIn source) : Locates source (e.resolve strictness) := by
  unfold resolve
  refine (Atom.locates_resolve strictness h.head).bind fun v => ?_
  exact locates_foldlM (fun v use huse => FilterUse.locates_apply v (h.filters use huse)) v

/-! ## Tags -/

theorem locates_written (v : Option Value) : Locates source (written v) :=
  locates_get.bind fun _ => locates_host _

theorem locates_argumentValue {e : Expression} (h : e.StandsIn source) :
    Locates source (argumentValue e) :=
  (Expression.locates_resolve .strict h).bind fun _ => locates_numbered _

theorem locates_argumentValues {positional : List Expression} {keyword : List (String × Expression)}
    (h : ∀ e ∈ positional, e.StandsIn source) (hk : ∀ entry ∈ keyword, entry.2.StandsIn source) :
    Locates source (argumentValues positional keyword) := by
  refine (locates_mapM fun e he => locates_argumentValue (h e he)).bind fun values => ?_
  refine (locates_mapM fun entry hentry => ?_).bind fun named =>
    locates_get.bind fun _ => locates_pure _
  exact (locates_argumentValue (hk entry hentry)).map

theorem locates_assign (name : String) (v : Value) : Locates source (assign name v) :=
  (locates_numbered v).bind fun _ => locates_modify _

theorem locates_deliver (target : Option String) (v : Value) : Locates source (deliver target v) := by
  cases target with
  | none => exact locates_written _
  | some name => exact (locates_assign name v).bind fun _ => locates_pure _

theorem RouteCall.locates_run {c : RouteCall} (routes : RouteTable) (h : c.StandsIn source) :
    Locates source (c.run routes) := by
  unfold run
  refine (locates_argumentValue h.route).bind fun name => ?_
  refine (locates_argumentValues h.positional h.keyword).bind fun arguments => ?_
  refine (locates_current name).bind fun name => locates_get.bind fun s => ?_
  dsimp only
  split
  · exact locates_deliver _ _
  · split
    · exact locates_pure _
    · exact locates_hostError _

/-- **A call** that the application fails in is reported at its tag. -/
theorem TagCall.locates_run {c : TagCall} {span : Span} (hspan : span.Within source)
    (h : c.StandsIn source) : Locates source (c.run span) := by
  have hraised (e : HostError) : Locates source
      (fail (.raised e "here") span : Rendering String) :=
    locates_fail hspan (List.forall_mem_nil _)
  unfold run
  refine (locates_argumentValues h.positional h.keyword).bind fun arguments => ?_
  cases c.takesScope with
  | true =>
    refine (locates_modify _).bind fun _ => locates_get.bind fun s => ?_
    refine (locates_set _).bind fun _ => ?_
    split
    · exact locates_deliver _ _
    · exact hraised _
  | false =>
    refine locates_get.bind fun s => ?_
    simp only [Bool.false_eq_true, if_false]
    split
    · exact locates_deliver _ _
    · exact hraised _

theorem locates_verdict (c : Condition Expression) : Locates source (verdict c) :=
  (locates_lift c.evaluate).bind fun _ => locates_host _

theorem locates_withAutoescape (enabled : Bool) {body : Rendering String}
    (h : Locates source body) : Locates source (withAutoescape enabled body) :=
  locates_get.bind fun _ => (locates_modify _).bind fun _ => h.ending _

namespace LoopHeader

variable {h : LoopHeader} {body empty : Rendering String}

/-- What cannot be looped over is reported at the expression. -/
theorem locates_items (hh : h.StandsIn source) : Locates source h.items := by
  have hfail (cause : Cause) (ho : cause.otherSpans = []) :
      Locates source (fail cause h.iterable.span : Rendering (List Value)) :=
    locates_fail hh.iterable.within (by rw [ho]; exact List.forall_mem_nil _)
  unfold items
  refine (Expression.locates_resolve .strict hh.iterable).bind fun v? => ?_
  split
  · exact locates_pure _
  · exact locates_pure _
  · split
    · exact hfail _ rfl
    · split
      · exact hfail _ rfl
      · exact locates_pure _

/-- An item with another number of values than names is reported at the names and the expression. -/
theorem locates_unpack (hh : h.StandsIn source) (item : Value) :
    Locates source (h.unpack item) := by
  have hmismatch (actual : Int) : Locates source
      (fail (.unpackMismatch h.names.length actual h.iterable.span) h.namesSpan :
        Rendering (List Value)) :=
    -- the names stand before the expression
    locates_fail hh.names (List.forall_mem_singleton.2 ⟨hh.iterable.within, .inr hh.ordered⟩)
  unfold unpack
  dsimp only
  split
  · exact hmismatch 1
  · split
    · exact locates_fail hh.iterable.within (List.forall_mem_nil _)
    · split
      · exact locates_pure _
      · exact hmismatch _

theorem locates_bind (hh : h.StandsIn source) (item : Value) : Locates source (h.bind item) := by
  unfold LoopHeader.bind
  refine (locates_current item).bind fun item => ?_
  split
  · exact locates_assign _ _
  · exact (locates_unpack hh item).bind fun values => locates_forM fun entry => locates_assign _ _

theorem locates_rounds (hh : h.StandsIn source) (hbody : Locates source body) (count : Nat)
    (items : List Value) : Locates source (h.rounds body count items) := by
  -- the counters of the loop change from round to round, and no place depends on them
  induction items generalizing count with
  | nil => exact locates_pure _
  | cons item rest ih =>
    unfold rounds
    refine (locates_modify _).bind fun _ => (locates_bind hh item).bind fun _ => ?_
    exact hbody.bind fun _ => (ih _).map

/-- **A loop.** -/
theorem locates_run (hh : h.StandsIn source) (hbody : Locates source body)
    (hempty : Locates source empty) : Locates source (h.run body empty) := by
  unfold run
  refine (locates_items hh).bind fun items => ?_
  split
  · exact hempty
  · refine (locates_modify _).bind fun _ => ?_
    exact ((locates_rounds hh hbody 0 items).ending _).bind fun _ => locates_pure _

end LoopHeader

/-! ## Nodes -/

mutual

/-- A node that stands in a text locates its faults there. -/
theorem Node.locates_render (routes : RouteTable) (node : Node) (h : node.StandsIn source) :
    Locates source (node.render routes) := by
  cases node with
  | text _ _ => exact locates_pure _
  | translated _ _ => exact locates_pure _
  | load _ => exact locates_pure _
  | output _ e => exact (Expression.locates_resolve .lenient h).bind fun v => locates_written v
  | autoescape _ enabled body => exact locates_withAutoescape enabled (locates_renderAll routes body h)
  | choice _ condition truthy falsey =>
    unfold Node.render
    refine (locates_verdict condition).bind fun holds => ?_
    split
    · exact locates_renderAll routes truthy h.1
    · exact locates_renderAll routes falsey h.2
  | loop _ header body empty =>
    exact LoopHeader.locates_run h.1 (locates_renderAll routes body h.2.1)
      (locates_renderAll routes empty h.2.2)
  | route _ call => exact RouteCall.locates_run routes h
  | call span call => exact TagCall.locates_run h.1 h.2

/-- **So do nodes.** -/
theorem locates_renderAll (routes : RouteTable) (nodes : List Node) (h : AllStandIn source nodes) :
    Locates source (renderAll routes nodes) := by
  cases nodes with
  | nil => exact locates_pure _
  | cons node rest =>
    have hnode := Node.locates_render routes node h.1
    have hrest := locates_renderAll routes rest h.2
    unfold renderAll
    exact hnode.closed.bind fun _ => hrest.map

end

/-- **Every error of a template can be shown.** Whether it is found when the template is compiled or
when its nodes are rendered in whatever scope: its places lie in the text, two of them that start on
one line have different anchors, and so there is a report. -/
theorem shown_of_error (source : List Char) (libraries : List (String × Library))
    (routes : RouteTable) (s : Scope) (e : TemplateError)
    (h : compile source libraries = .error e ∨ ∃ nodes, compile source libraries = .ok nodes ∧
      ((renderAll routes nodes).run.run s).1 = .error (.template e)) : e.Shown source := by
  have hcompiled := settles_compile source libraries
  rcases h with herror | ⟨nodes, hnodes, hrendered⟩
  · exact (hcompiled.proper herror).located.shown
  · have hlocates := locates_renderAll routes nodes (hcompiled.of_ok hnodes)
    exact (hlocates s e hrendered).shown

/-- A number is not two values, and the names of the loop are on the line of its expression. -/
theorem shown_of_error_unpacking :
    let source := "{% for a, b in x %}{% endfor %}".toList
    let e : TemplateError := .here (.unpackMismatch 2 1 ⟨15, 1⟩) ⟨7, 4⟩
    let s := Scope.create (some [(.str "x", .list 1 [.int 1])]) true none
    (∃ nodes, compile source [] = .ok nodes ∧
      ((renderAll {} nodes).run.run s).1 = .error (.template e)) ∧ e.Shown source := by
  intro source e s
  have hscan : Token.scan source = [⟨.tag, ⟨0, 19⟩⟩, ⟨.tag, ⟨19, 12⟩⟩] := by decide +kernel
  have hrender : ∃ nodes, compile source [] = .ok nodes ∧
      ((renderAll {} nodes).run.run s).1 = .error (.template e) := by
    refine ⟨[.loop ⟨0, 19⟩ ⟨["a", "b"], ⟨7, 4⟩, ⟨.path ⟨15, 1⟩ "x" [], []⟩, false⟩ [] []], ?_, ?_⟩
    · rw [compile, hscan]
      dsimp only [source]
      cbv
    · dsimp only [s, e]
      cbv
  exact ⟨hrender, shown_of_error source [] {} s e (.inr hrender)⟩

end Galley
