import Galley.Proofs.FreeNumbers
import Galley.Proofs.Operations
import Mathlib

/-!
# Two runs side by side

A scope mirrors another one if the variables of some names have the same values in it, up to the
numbers of these values, and if it is about to go on with the other numbers of those that the other
scope is about to go on with. A computation that looks at these variables only goes the same way in
both scopes, and leaves scopes of which one mirrors the other.

* `Scope.Mirrors`: the relation between the two scopes.
* `Rendering.Mirrored`: the relation between two computations, with one lemma for each way to build
  a computation.
-/

namespace Galley

open Rendering

/-! ## Scopes -/

/-- A layer **mirrors** another one for some names if these stand for the renumbered values. -/
def Layer.Mirrors (ρ : Renumbering) (names : List String) (l m : Layer) : Prop :=
  ∀ name ∈ names, m.get? (.str name) = (l.get? (.str name)).map (Value.renumber ρ)

/-- A scope **mirrors** another one for some names. -/
structure Scope.Mirrors (ρ : Renumbering) (names : List String) (s t : Scope) : Prop where
  upper : List.Forall₂ (Layer.Mirrors ρ names) s.upper t.upper
  lowest : Layer.Mirrors ρ names s.lowest t.lowest
  loops : t.loops = s.loops
  autoescape : t.autoescape = s.autoescape
  request : t.request = s.request
  /-- Both go on with numbers of which the one is the other number of the other. -/
  next : ∀ i, ρ (s.nextNumber + i) = t.nextNumber + i
  remains : t.remains = s.remains.map (Prod.map ρ id)

variable {ρ : Renumbering} {names : List String} {α β γ δ : Type}

namespace Layer

/-- A variable that was set stands for what it was set to. -/
theorem get?_set_self (layer : Layer) {key : Value} (h : Value.alike key key = true) (v : Value) :
    (layer.set key v).get? key = some v := by
  unfold set get? Value.lookupKey?
  cases hhas : layer.has key with
  | true =>
    obtain ⟨e, he, hkey⟩ := List.any_eq_true.1 hhas
    have hkeys : ((fun entry : Value × Value => Value.alike entry.1 key) ∘ fun entry =>
        if Value.alike entry.1 key then (entry.1, v) else entry) =
        fun entry => Value.alike entry.1 key := by
      funext entry
      simp only [Function.comp]
      split <;> rfl
    have hsome : (layer.find? fun e => Value.alike e.1 key).isSome :=
      List.find?_isSome.2 ⟨e, he, hkey⟩
    obtain ⟨found, hfound⟩ := Option.isSome_iff_exists.1 hsome
    have hlike := List.find?_some hfound
    rw [if_pos rfl, List.find?_map, hkeys, hfound, Option.map_some, if_pos hlike, Option.map_some]
  | false =>
    have hnone : layer.find? (fun e => Value.alike e.1 key) = none :=
      List.find?_eq_none.2 fun e he hlike => by
        rw [has, List.any_eq_false] at hhas
        exact hhas e he hlike
    rw [if_neg Bool.false_ne_true, List.find?_append, hnone]
    simp [h]

theorem Mirrors.set {l m : Layer} (h : l.Mirrors ρ names m) (name : String) (v : Value) :
    (l.set (.str name) v).Mirrors ρ names (m.set (.str name) (v.renumber ρ)) := by
  intro other hother
  by_cases hname : name = other
  · subst hname
    have hself : Value.alike (.str name) (.str name) = true := by simp [Value.alike_str]
    rw [get?_set_self _ hself, get?_set_self _ hself, Option.map_some]
  · have hne : Value.alike (.str name) (.str other) = false := by
      rw [Value.alike_str]
      exact beq_false_of_ne hname
    rw [get?_set_of_ne _ _ hne, get?_set_of_ne _ _ hne, h other hother]

theorem mirrors_nil : Mirrors ρ names [] [] := fun _ _ => rfl

end Layer

namespace Scope

variable {s t : Scope}

theorem Mirrors.get? (h : s.Mirrors ρ names t) {name : String} (hname : name ∈ names) :
    t.get? (.str name) = (s.get? (.str name)).map (Value.renumber ρ) := by
  have hlayers : List.Forall₂ (Layer.Mirrors ρ names) s.layers t.layers :=
    List.rel_append h.upper (.cons h.lowest .nil)
  unfold Scope.get?
  generalize s.layers = ls, t.layers = ms at hlayers
  induction hlayers with
  | nil => rfl
  | @cons l m ls ms hfirst _ ih =>
    rw [List.findSome?_cons, List.findSome?_cons, hfirst name hname, ih]
    cases l.get? (.str name) <;> rfl

theorem Mirrors.current (h : s.Mirrors ρ names t) (v : Value) :
    t.current (v.renumber ρ) = (s.current v).renumber ρ := by
  unfold Scope.current
  rw [h.remains, List.isEmpty_map, Value.reduced_renumber]
  split <;> rfl

theorem Mirrors.take (h : s.Mirrors ρ names t) (number left : Nat) :
    (s.take number left).Mirrors ρ names (t.take (ρ number) left) :=
  { h with remains := by rw [Scope.take, Scope.take, h.remains]; rfl }

theorem Mirrors.number (h : s.Mirrors ρ names t) (v : Value) :
    (t.number (v.renumber ρ)).1 = (s.number v).1.renumber ρ ∧
      (s.number v).2.Mirrors ρ names (t.number (v.renumber ρ)).2 := by
  have hrun := Value.run_numbered_renumber (v := v) fun i _ => h.next i
  have hnext := v.run_numbered_snd s.nextNumber
  unfold Scope.number
  rw [hrun]
  refine ⟨rfl, { h with next := fun i => ?_ }⟩
  change ρ ((v.numbered.run s.nextNumber).2 + i) = _
  rw [hnext, Nat.add_assoc, h.next, Nat.add_assoc]

theorem Mirrors.set (h : s.Mirrors ρ names t) (name : String) (v : Value) :
    (s.set (.str name) v).Mirrors ρ names (t.set (.str name) (v.renumber ρ)) := by
  obtain ⟨hupper, hlowest, hloops, hautoescape, hrequest, hnext, hremains⟩ := h
  unfold Scope.set modifyTop
  cases hs : s.upper with
  | nil =>
    rw [hs] at hupper
    rw [List.forall₂_nil_left_iff.1 hupper]
    exact ⟨.nil, hlowest.set name v, hloops, hautoescape, hrequest, hnext, hremains⟩
  | cons layer rest =>
    rw [hs] at hupper
    obtain ⟨layer', rest', hlayer, hrest, ht⟩ := List.forall₂_cons_left_iff.1 hupper
    rw [ht]
    exact ⟨.cons (hlayer.set name v) hrest, hlowest, hloops, hautoescape, hrequest, hnext, hremains⟩

theorem Mirrors.enterLoop (h : s.Mirrors ρ names t) (length : Int) :
    (s.enterLoop length).Mirrors ρ names (t.enterLoop length) where
  upper := .cons Layer.mirrors_nil h.upper
  lowest := h.lowest
  loops := congrArg (List.cons (Loop.mk 0 length)) h.loops
  autoescape := h.autoescape
  request := h.request
  next := h.next
  remains := h.remains

theorem Mirrors.setCount (h : s.Mirrors ρ names t) (count : Int) :
    (s.setCount count).Mirrors ρ names (t.setCount count) := by
  unfold Scope.setCount
  rw [h.loops]
  cases s.loops with
  | nil => exact h
  | cons loop rest => exact { h with loops := rfl }

theorem Mirrors.leaveLoop (h : s.Mirrors ρ names t) :
    t.leaveLoop.1 = s.leaveLoop.1 ∧ s.leaveLoop.2.Mirrors ρ names t.leaveLoop.2 := by
  have hloops : t.loops.tail = s.loops.tail := congrArg List.tail h.loops
  have hupper := h.upper
  unfold Scope.leaveLoop pop
  match hs : s.upper, ht : t.upper with
  | [], [] => exact ⟨rfl, { h with loops := hloops, upper := by rw [hs, ht]; exact .nil }⟩
  | [_], [_] => exact ⟨rfl, { h with loops := hloops, upper := .nil }⟩
  | _ :: _ :: _, _ :: _ :: _ =>
    rw [hs, ht] at hupper
    obtain ⟨-, hrest⟩ := List.forall₂_cons.1 hupper
    exact ⟨rfl, { h with loops := hloops, upper := hrest }⟩
  | [], _ :: _ | _ :: _, [] => rw [hs, ht] at hupper; cases hupper
  | [_], _ :: _ :: _ | _ :: _ :: _, [_] =>
    rw [hs, ht] at hupper
    obtain ⟨-, hrest⟩ := List.forall₂_cons.1 hupper
    cases hrest

end Scope

/-! ## Computations -/

namespace Rendering

/-- Two computations are **mirrored** if, wherever the one scope mirrors the other, both go wrong or
the one comes to what the other comes to, as `g` has it, and the scopes that are left mirror each
other again. -/
def Mirrored (ρ : Renumbering) (names : List String) (g : α → β) (x : Rendering α)
    (y : Rendering β) : Prop :=
  ∀ s t, Scope.Mirrors ρ names s t →
    (y.run.run t).1.toOption = (x.run.run s).1.toOption.map g ∧
      Scope.Mirrors ρ names (x.run.run s).2 (y.run.run t).2

variable {g : α → β} {h : γ → δ} {x : Rendering α} {y : Rendering β} {f : α → Rendering γ}
  {f' : β → Rendering δ}

theorem mirrored_pure (g : α → β) (a : α) : Mirrored ρ names g (pure a) (pure (g a)) :=
  fun _ _ hs => ⟨rfl, hs⟩

theorem mirrored_throw (g : α → β) (e e' : Fault) : Mirrored ρ names g (throw e) (throw e') :=
  fun _ _ hs => ⟨rfl, hs⟩

theorem mirrored_ofExcept {outcome : Except Fault α} {outcome' : Except Fault β}
    (h : outcome' = outcome.map g) :
    Mirrored ρ names g (ofExcept outcome) (ofExcept outcome') := by
  subst h
  cases outcome with
  | ok a => exact mirrored_pure g a
  | error e => exact mirrored_throw g e e

theorem mirrored_host {outcome : Except HostError α} {outcome' : Except HostError β}
    (h : outcome' = outcome.map g) : Mirrored ρ names g (host outcome) (host outcome') := by
  subst h
  cases outcome with
  | ok a => exact mirrored_pure g a
  | error e => exact mirrored_throw g _ _

/-- **One after the other.** -/
theorem Mirrored.bind (hx : Mirrored ρ names g x y)
    (hf : ∀ a, Mirrored ρ names h (f a) (f' (g a))) : Mirrored ρ names h (x >>= f) (y >>= f') := by
  intro s t hs
  obtain ⟨houtcome, hleft⟩ := hx s t hs
  rw [run_bind, run_bind]
  rcases hrun : x.run.run s with ⟨_ | a, s'⟩ <;> rcases hrun' : y.run.run t with ⟨_ | b, t'⟩ <;>
    rw [hrun, hrun'] at houtcome hleft
  · exact ⟨rfl, hleft⟩
  · cases houtcome
  · cases houtcome
  · obtain rfl : b = g a := Option.some.inj houtcome
    exact hf a s' t' hleft

theorem Mirrored.map (hx : Mirrored ρ names g x y) (k : α → γ) (l : β → δ)
    (hkl : ∀ a, l (g a) = h (k a)) :
    Mirrored ρ names h (do return k (← x)) (do return l (← y)) := by
  refine hx.bind fun a => ?_
  rw [hkl]
  exact mirrored_pure h (k a)

/-- Looking at the scope. -/
theorem mirrored_get_bind {f : Scope → Rendering γ} {f' : Scope → Rendering δ}
    (hf : ∀ s t, Scope.Mirrors ρ names s t → Mirrored ρ names h (f s) (f' t)) :
    Mirrored ρ names h (get >>= f) (get >>= f') := by
  intro s t hs
  rw [run_bind, run_bind, run_get, run_get]
  exact hf s t hs s t hs

theorem mirrored_modify {k l : Scope → Scope}
    (hkl : ∀ s t, Scope.Mirrors ρ names s t → Scope.Mirrors ρ names (k s) (l t)) :
    Mirrored ρ names id (modify k : Rendering PUnit) (modify l) :=
  fun s t hs => ⟨rfl, hkl s t hs⟩

/-- Two computations that go wrong and leave the scope alone. -/
theorem mirrored_of_fails (g : α → β) (hx : ∀ s, ∃ e, x.run.run s = (.error e, s))
    (hy : ∀ s, ∃ e, y.run.run s = (.error e, s)) : Mirrored ρ names g x y := by
  intro s t hs
  obtain ⟨e, he⟩ := hx s
  obtain ⟨e', he'⟩ := hy t
  rw [he, he']
  exact ⟨rfl, hs⟩

theorem mirrored_option_mapM {o : Option α} (hf : ∀ a, Mirrored ρ names h (f a) (f' (g a))) :
    Mirrored ρ names (Option.map h) (o.mapM f) ((o.map g).mapM f') := by
  cases o with
  | none => exact mirrored_pure _ none
  | some a => exact (hf a).map some some fun _ => rfl

theorem mirrored_mapM {items : List α} {f' : α → Rendering δ}
    (hf : ∀ a ∈ items, Mirrored ρ names h (f a) (f' a)) :
    Mirrored ρ names (List.map h) (items.mapM f) (items.mapM f') := by
  induction items with
  | nil => exact mirrored_pure _ []
  | cons a rest ih =>
    obtain ⟨ha, hrest⟩ := List.forall_mem_cons.1 hf
    rw [List.mapM_cons, List.mapM_cons]
    exact ha.bind fun b => (ih hrest).bind fun bs => mirrored_pure (List.map h) (b :: bs)

theorem mirrored_forM {k : α → Rendering PUnit} {l : β → Rendering PUnit} {items : List α}
    (hkl : ∀ a ∈ items, Mirrored ρ names id (k a) (l (g a))) :
    Mirrored ρ names id (items.forM k) ((items.map g).forM l) := by
  induction items with
  | nil => exact mirrored_pure id _
  | cons a rest ih =>
    obtain ⟨ha, hrest⟩ := List.forall_mem_cons.1 hkl
    exact ha.bind fun _ => ih hrest

theorem mirrored_foldlM {k : α → γ → Rendering α} {l : β → γ → Rendering β} {items : List γ}
    (hkl : ∀ a, ∀ c ∈ items, Mirrored ρ names g (k a c) (l (g a) c)) (a : α) :
    Mirrored ρ names g (items.foldlM k a) (items.foldlM l (g a)) := by
  induction items generalizing a with
  | nil => exact mirrored_pure g a
  | cons c rest ih =>
    rw [List.foldlM_cons, List.foldlM_cons]
    refine (hkl a c List.mem_cons_self).bind fun b => ih (fun a d hd => hkl a d ?_) b
    exact List.mem_cons_of_mem _ hd

theorem Mirrored.mapFault {k l : Fault → Fault} (hx : Mirrored ρ names g x y) :
    Mirrored ρ names g (x.mapFault k) (y.mapFault l) := by
  intro s t hs
  obtain ⟨houtcome, hleft⟩ := hx s t hs
  refine ⟨?_, hleft⟩
  change (Except.mapError l (y.run.run t).1).toOption =
    (Except.mapError k (x.run.run s).1).toOption.map g
  cases hrun : (x.run.run s).1 <;> cases hrun' : (y.run.run t).1 <;> rw [hrun, hrun'] at houtcome <;>
    exact houtcome

/-- **What is done in any case** is done behind both computations. -/
theorem Mirrored.ending {last last' : Scope → Except HostError Unit × Scope}
    (hx : Mirrored ρ names g x y)
    (hlast : ∀ s t, Scope.Mirrors ρ names s t →
      (last' t).1 = (last s).1 ∧ Scope.Mirrors ρ names (last s).2 (last' t).2) :
    Mirrored ρ names g (ending x last) (ending y last') := by
  intro s t hs
  obtain ⟨houtcome, hleft⟩ := hx s t hs
  obtain ⟨hdone, hleft⟩ := hlast _ _ hleft
  refine ⟨?_, by rwa [run_ending, run_ending]⟩
  rw [run_ending_fst, run_ending_fst, hdone]
  cases (last (x.run.run s).2).1 with
  | ok done => exact houtcome
  | error e => rfl

theorem mirrored_current (v : Value) :
    Mirrored ρ names (Value.renumber ρ) (current v) (current (v.renumber ρ)) :=
  mirrored_get_bind fun s t hs => by
    rw [hs.current]
    exact mirrored_pure _ (s.current v)

theorem mirrored_numbered (v : Value) :
    Mirrored ρ names (Value.renumber ρ) (numbered v) (numbered (v.renumber ρ)) := by
  intro s t hs
  obtain ⟨hvalue, hleft⟩ := hs.number v
  exact ⟨congrArg some hvalue, hleft⟩

end Rendering

end Galley
