import Galley.Render
import Mathlib.Order.Defs.Unbundled

/-!
# What computations do to a scope

A computation keeps a relation if the scope that it leaves stands in this relation to the scope that
it started from, whether it ends well or in a fault. Relations that are kept by the parts of a
computation and are reflexive and transitive are kept by the whole.

* `Rendering.Keeps`: the predicate, with one lemma for each way to build a computation.
* `Scope.Untouched`: only the numbers given to values and the items taken from lists differ.
* `Expression.keeps_resolve`, `Condition.untouched_evaluate`: looking at values leaves a scope
  untouched.
-/

namespace Galley

variable {R R' : Scope → Scope → Prop} {α β : Type}

namespace Rendering

/-! ## Computations in a row -/

/-- Two computations in a row: the second starts in the scope that the first one leaves. -/
theorem run_bind (x : Rendering α) (f : α → Rendering β) (s : Scope) :
    (x >>= f).run.run s =
      match x.run.run s with
      | (.ok a, s') => (f a).run.run s'
      | (.error e, s') => (.error e, s') := by
  simp only [bind, ExceptT.bind, ExceptT.run, StateT.run, StateT.bind, ExceptT.mk, ExceptT.bindCont]
  rcases x s with ⟨_ | _, s'⟩ <;> rfl

/-- A row that ends well: both computations do. -/
theorem exists_of_run_bind {x : Rendering α} {f : α → Rendering β} {s : Scope} {b : β}
    (h : ((x >>= f).run.run s).1 = .ok b) :
    ∃ a s', x.run.run s = (.ok a, s') ∧ ((f a).run.run s').1 = .ok b := by
  rw [run_bind] at h
  cases hrun : x.run.run s with
  | mk outcome s' =>
    rw [hrun] at h
    cases outcome with
    | ok a => exact ⟨a, s', rfl, h⟩
    | error e => cases h

/-- A part that each computation of a row hands on is the same in what is made. -/
theorem map_eq_of_run_mapM {γ : Type} {f : α → Rendering β} {items : List α} {made : List β}
    {s : Scope} (g : α → γ) (g' : β → γ) (h : ((items.mapM f).run.run s).1 = .ok made)
    (hf : ∀ a b s, ((f a).run.run s).1 = .ok b → g' b = g a) : made.map g' = items.map g := by
  induction items generalizing made s with
  | nil =>
    cases h
    rfl
  | cons a rest ih =>
    rw [List.mapM_cons] at h
    obtain ⟨b, s', hb, h⟩ := exists_of_run_bind h
    obtain ⟨others, s'', hothers, h⟩ := exists_of_run_bind h
    cases h
    rw [List.map_cons, List.map_cons, hf a b s (by rw [hb]), ih (s := s') (by rw [hothers])]

theorem run_get (s : Scope) : (get : Rendering Scope).run.run s = (.ok s, s) := rfl

theorem run_modify (f : Scope → Scope) (s : Scope) :
    (modify f : Rendering PUnit).run.run s = (.ok (), f s) := rfl

theorem run_ofExcept (outcome : Except Fault α) (s : Scope) :
    (ofExcept outcome).run.run s = (outcome, s) := by
  cases outcome <;> rfl

/-- Computations without faults in a row. -/
theorem run_bind_state (x : StateM Scope α) (f : α → StateM Scope β) (s : Scope) :
    (x >>= f).run s = (f (x.run s).1).run (x.run s).2 := rfl

/-- A computation **keeps** a relation if it leaves a scope in this relation to the one that it
started from, also if it ends in a fault. -/
def Keeps (R : Scope → Scope → Prop) (x : Rendering α) : Prop := ∀ s, R s (x.run.run s).2

variable {x : Rendering α} {f : α → Rendering β}

theorem Keeps.mono (h : Keeps R x) (hr : ∀ s t, R s t → R' s t) : Keeps R' x :=
  fun s => hr _ _ (h s)

theorem Keeps.mapFault {g : Fault → Fault} (hx : Keeps R x) : Keeps R (x.mapFault g) := hx

theorem keeps_lift {x : StateM Scope α} (h : ∀ s, R s (x.run s).2) :
    Keeps R (liftM x : Rendering α) := h

/-- A change of the result does nothing to the scope. -/
theorem run_map (x : Rendering α) (g : α → β) (s : Scope) :
    ((do return g (← x) : Rendering β).run.run s).2 = (x.run.run s).2 := by
  rw [run_bind]
  rcases x.run.run s with ⟨_ | _, s'⟩ <;> rfl

/-- A computation whose result is changed. -/
theorem Keeps.map {g : α → β} (hx : Keeps R x) : Keeps R (do return g (← x)) := by
  intro s
  rw [run_map]
  exact hx s

/-- What is done in any case is done in the scope that the computation leaves. -/
theorem run_ending (x : Rendering α) (last : Scope → Except HostError Unit × Scope) (s : Scope) :
    ((ending x last).run.run s).2 = (last (x.run.run s).2).2 := by
  change (ending x last s).2 = _
  unfold ending
  rcases x.run.run s with ⟨outcome, s'⟩
  dsimp only
  rcases last s' with ⟨_ | _, s''⟩ <;> rfl

/-- What a computation comes to stands, unless what is done in any case goes wrong. -/
theorem run_ending_fst (x : Rendering α) (last : Scope → Except HostError Unit × Scope) (s : Scope) :
    ((ending x last).run.run s).1 =
      match (last (x.run.run s).2).1 with
      | .ok () => (x.run.run s).1
      | .error e => .error (.host e) := by
  change (ending x last s).1 = _
  unfold ending
  rcases x.run.run s with ⟨outcome, s'⟩
  dsimp only
  rcases last s' with ⟨_ | _, s''⟩ <;> rfl

theorem keeps_modify {f : Scope → Scope} (h : ∀ s, R s (f s)) :
    Keeps R (modify f : Rendering Unit) := h

section Preorder

variable [IsPreorder Scope R]

theorem keeps_pure (a : α) : Keeps R (pure a) := fun s => refl_of R s

theorem keeps_get : Keeps R (get : Rendering Scope) := fun s => refl_of R s

theorem keeps_throw (e : Fault) : Keeps R (throw e : Rendering α) := fun s => refl_of R s

theorem keeps_fail (cause : Cause) (span : Span) : Keeps R (fail cause span : Rendering α) :=
  keeps_throw _

theorem keeps_host (outcome : Except HostError α) : Keeps R (host outcome) := by
  cases outcome with
  | ok a => exact keeps_pure a
  | error e => exact keeps_throw _

theorem keeps_ofExcept (outcome : Except Fault α) : Keeps R (ofExcept outcome) := by
  cases outcome with
  | ok a => exact keeps_pure a
  | error e => exact keeps_throw _

/-- **One after the other.** -/
theorem Keeps.bind (hx : Keeps R x) (hf : ∀ a, Keeps R (f a)) : Keeps R (x >>= f) := by
  intro s
  have hfirst := hx s
  rw [run_bind]
  cases hrun : x.run.run s with
  | mk outcome s' =>
    rw [hrun] at hfirst
    cases outcome with
    | ok a => exact trans_of R hfirst (hf a s')
    -- behind a fault nothing more is done
    | error e => exact hfirst

theorem keeps_option_mapM {o : Option α} (h : ∀ a, Keeps R (f a)) : Keeps R (o.mapM f) := by
  cases o with
  | none => exact keeps_pure _
  | some a => exact (h a).map

theorem keeps_mapM {items : List α} (h : ∀ a, Keeps R (f a)) : Keeps R (items.mapM f) := by
  induction items with
  | nil => exact keeps_pure _
  | cons a rest ih =>
    rw [List.mapM_cons]
    exact (h a).bind fun _ => ih.bind fun _ => keeps_pure _

theorem keeps_forM {f : α → Rendering PUnit} {items : List α} (h : ∀ a ∈ items, Keeps R (f a)) :
    Keeps R (items.forM f) := by
  induction items with
  | nil => exact keeps_pure _
  | cons a rest ih =>
    have hrest := ih fun b hb => h b (List.mem_cons_of_mem _ hb)
    exact (h a List.mem_cons_self).bind fun _ => hrest

theorem keeps_foldlM {f : β → α → Rendering β} {items : List α} (h : ∀ b a, Keeps R (f b a)) :
    ∀ b, Keeps R (items.foldlM f b) := by
  induction items with
  | nil => exact fun b => keeps_pure _
  | cons a rest ih =>
    intro b
    rw [List.foldlM_cons]
    exact (h b a).bind ih

end Preorder

end Rendering

/-! ## Scopes with the same variables -/

namespace Scope

/-- A scope is **untouched** if only the numbers given to values and the items taken from lists
differ: it has the same layers, loops and settings. -/
def Untouched (before after : Scope) : Prop :=
  after = { before with nextNumber := after.nextNumber, remains := after.remains }

instance : IsPreorder Scope Untouched where
  refl _ := rfl
  trans s t u hst htu := by
    unfold Untouched at hst htu ⊢
    rw [hst] at htu
    exact htu

theorem untouched_take (s : Scope) (number left : Nat) : s.Untouched (s.take number left) := rfl

theorem untouched_number (s : Scope) (v : Value) : s.Untouched (s.number v).2 := rfl

end Scope

/-! ## Looking at values -/

open Rendering Scope

theorem Rendering.keeps_current (v : Value) : Keeps Untouched (current v) :=
  keeps_get.bind fun _ => keeps_pure _

theorem Rendering.keeps_numbered (v : Value) : Keeps Untouched (numbered v) :=
  fun s => untouched_number s v

theorem keeps_hushed (result : Except HostError (Option Value)) : Keeps Untouched (hushed result) := by
  unfold hushed
  split
  · exact keeps_pure _
  · split
    · exact keeps_pure _
    · exact keeps_throw _

theorem Value.keeps_dot (strictness : Strictness) (v : Value) (name : String)
    (start offset : Nat) : Keeps Untouched (v.dot strictness name start offset) := by
  have hcall (w : Value) : Keeps Untouched
      (do (← hushed w.called).mapM Rendering.numbered) := by
    refine (keeps_hushed _).bind fun v? => ?_
    exact keeps_option_mapM Rendering.keeps_numbered
  unfold Value.dot
  split
  · -- what is found may take an item from a list when it is called
    split
    · exact (keeps_modify fun s => untouched_take s _ _).bind fun _ => hcall _
    · exact hcall _
  · exact keeps_hushed _
  · cases strictness
    · exact keeps_pure _
    · exact keeps_throw _

theorem Value.keeps_follow (strictness : Strictness) (v : Value) (start offset : Nat)
    (names : List String) : Keeps Untouched (v.follow strictness start offset names) := by
  -- one name after the other, each behind the value of the one before
  induction names generalizing v offset with
  | nil => exact keeps_pure _
  | cons name rest ih =>
    unfold Value.follow
    refine (Value.keeps_dot strictness v name start offset).bind fun next? => ?_
    cases next? with
    | none => exact keeps_pure _
    | some next => exact ih _ _

theorem Atom.keeps_resolve (a : Atom) (strictness : Strictness) :
    Keeps Untouched (a.resolve strictness) := by
  unfold Atom.resolve
  split
  · exact keeps_pure _
  · exact keeps_pure _
  · exact keeps_pure _
  · exact keeps_pure _
  · refine keeps_get.bind fun s => ?_
    split
    · exact keeps_pure _
    · refine (Rendering.keeps_current _).bind fun v => (keeps_host _).bind fun called? => ?_
      cases called? with
      | none => exact keeps_pure _
      -- a variable is called before its names are followed, and the result gets its number
      | some v => exact (Rendering.keeps_numbered v).bind fun _ => Value.keeps_follow _ _ _ _ _
  · refine keeps_get.bind fun s => (keeps_host _).bind fun loop? => ?_
    cases loop? with
    | none => exact keeps_pure _
    | some v => exact Value.keeps_follow _ _ _ _ _

theorem Atom.keeps_resolvePresent (a : Atom) : Keeps Untouched a.resolvePresent := by
  unfold Atom.resolvePresent
  refine (a.keeps_resolve .strict).bind fun v? => ?_
  cases v? with
  | none => exact keeps_get.bind fun _ => (keeps_host _).bind fun _ => keeps_fail _ _
  | some v => exact keeps_pure _

theorem FilterUse.keeps_given (use : FilterUse) (v : Option Value) :
    Keeps Untouched (use.given v) := by
  unfold FilterUse.given
  split
  · exact keeps_pure _
  · split
    · exact (Atom.keeps_resolvePresent _).map
    · exact keeps_pure _
  · exact (Atom.keeps_resolvePresent _).map

theorem FilterUse.keeps_apply (use : FilterUse) (v : Option Value) :
    Keeps Untouched (use.apply v) := by
  unfold FilterUse.apply
  refine (use.keeps_given v).bind fun given => ?_
  refine (keeps_option_mapM Rendering.keeps_current).bind fun v => ?_
  split
  · exact keeps_ofExcept _
  · exact keeps_get.bind fun _ => (keeps_ofExcept _).bind fun _ =>
      keeps_option_mapM Rendering.keeps_numbered

/-- **An expression** only looks at a scope. -/
theorem Expression.keeps_resolve (e : Expression) (strictness : Strictness) :
    Keeps Untouched (e.resolve strictness) :=
  (e.head.keeps_resolve strictness).bind fun v => keeps_foldlM (fun v use => use.keeps_apply v) v

theorem Expression.untouched_operandValue (e : Expression) (s : Scope) :
    s.Untouched (e.operandValue.run s).2 := by
  have h := e.keeps_resolve .lenient s
  unfold operandValue
  rw [Rendering.run_bind_state]
  split <;> exact h

/-- **A condition** only looks at a scope. -/
theorem Condition.untouched_evaluate (c : Condition Expression) (s : Scope) :
    s.Untouched (c.evaluate.run s).2 := by
  -- the right side starts in the scope that the left side leaves
  induction c generalizing s with
  | operand e => exact e.untouched_operandValue s
  | negation c ih => exact ih s
  | binary operator left right ihl ihr =>
    have hleft := ihl s
    have hright := ihr (left.evaluate.run s).2
    unfold evaluate
    rw [Rendering.run_bind_state]
    split
    -- the left side may decide, and then the right one is not looked at
    · exact hleft
    · exact trans_of Untouched hleft hright

/-! ## Lookups -/

section Lookups

open Rendering

/-- A path is followed name by name. -/
theorem Value.run_follow_cons (strictness : Strictness) (v : Value) (start offset : Nat) (name : String)
    (names : List String) (s : Scope) :
    (v.follow strictness start offset (name :: names)).run.run s =
      match (v.dot strictness name start offset).run.run s with
      | (.ok (some next), s') =>
        (next.follow strictness start (offset + name.length + 1) names).run.run s'
      | (.ok Option.none, s') => (.ok Option.none, s')
      | (.error e, s') => (.error e, s') := by
  rw [follow, run_bind]
  rcases (v.dot strictness name start offset).run.run s with ⟨_ | _ | _, s'⟩ <;> rfl

/-- A path begins with its variable, which is called. -/
theorem Atom.run_resolve_path (strictness : Strictness) (span : Span) (root : String)
    (names : List String) (s : Scope) :
    ((Atom.path span root names).resolve strictness).run.run s =
      match s.get? (.str root) with
      | none => (.ok none, s)
      | some v =>
        match (s.current v).called with
        | .error e => (.error (.host e), s)
        | .ok none => (.ok none, s)
        | .ok (some w) =>
          ((s.number w).1.follow strictness span.start root.length names).run.run (s.number w).2 := by
  unfold resolve
  dsimp only
  rw [run_bind, run_get]
  dsimp only
  cases s.get? (.str root) with
  | none => rfl
  | some v =>
    dsimp only
    have hcurrent : (current v).run.run s = (.ok (s.current v), s) := rfl
    rw [run_bind, hcurrent]
    dsimp only
    rw [run_bind]
    rcases (s.current v).called with e | _ | w <;> rfl

/-- A lookup of a loop begins with the dictionary of the loop, or with a counter. -/
theorem Atom.run_resolve_loop (strictness : Strictness) (span : Span) (parents : Nat)
    (counter : Option LoopCounter) (names : List String) (s : Scope) :
    ((Atom.loop span parents counter names).resolve strictness).run.run s =
      match loopValue s parents counter with
      | .error e => (.error (.host e), s)
      | .ok none => (.ok none, s)
      | .ok (some v) =>
        (v.follow strictness span.start (loopPathLength parents counter) names).run.run s := by
  unfold resolve
  dsimp only
  rw [run_bind, run_get]
  dsimp only
  rw [run_bind]
  rcases loopValue s parents counter with e | _ | v <;> rfl

end Lookups

end Galley
