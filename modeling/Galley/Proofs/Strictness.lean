import Galley.Proofs.Silence
import Mathlib

/-!
# The two policies of a lookup

A strict lookup and a lenient one part at one place only, at a value that has no member with the next
name. There the lenient one finds nothing, and the strict one raises an error that shows the value. A
value that cannot be shown, an integer with too many digits, puts the error of showing it in the place
of this error.

* `Atom.StopsAt`, `Atom.StandsBefore`: the value behind which a lookup comes to an end, and the part of
  the path that leads to it.
* `Value.run_follow_strict`, `Value.run_follow_of_absent`: up to this value the policies agree, and what
  happens at it.
* `Atom.hostOnly_resolve`: a lenient lookup reports nothing of the template.
* `lenient_of_strict`: **what a strict lookup finds, a lenient one finds, through any filters; and
  without filters the faults fit together exactly if the value at which the lookup stops can be shown.**
-/

namespace Galley

open Rendering

variable {α β : Type} {v w : Value} {name : String} {s s' : Scope} {start offset : Nat}
  {before : List String} {a : Atom}

/-- **The error of a name** that was not found behind a value. -/
inductive Fault.IsFailedLookup : Fault → Prop
  | mk {key object : String} {place : Option Span} {span : Option Span} :
    IsFailedLookup (.template ⟨span, .failedLookup key object place⟩)

/-- **A lookup stops at a value**: the names before lead to it, and it has no member with the next
name. -/
inductive Atom.StopsAt (s : Scope) (w : Value) (name : String) : Atom → Prop
  | path {span : Span} {root : String} {before after : List String} {s' : Scope}
    (hw : ((Atom.path span root before).resolve .lenient).run.run s = (.ok (some w), s'))
    (habsent : w.member name = .absent) :
    StopsAt s w name (.path span root (before ++ name :: after))
  | loop {span : Span} {parents : Nat} {counter : Option LoopCounter} {before after : List String}
    {s' : Scope}
    (hw : ((Atom.loop span parents counter before).resolve .lenient).run.run s =
      (.ok (some w), s'))
    (habsent : w.member name = .absent) :
    StopsAt s w name (.loop span parents counter (before ++ name :: after))

/-- The part of a path that **stands before** one of its names, at its own place. It ends where the dot
of this name stands. -/
inductive Atom.StandsBefore (name : String) : Atom → Atom → Prop
  | path {span : Span} {root : String} {before after : List String} :
    StandsBefore name (.path ⟨span.start, root.length + namesLength before⟩ root before)
      (.path span root (before ++ name :: after))
  | loop {span : Span} {parents : Nat} {counter : Option LoopCounter} {before after : List String} :
    StandsBefore name
      (.loop ⟨span.start, loopPathLength parents counter + namesLength before⟩ parents counter before)
      (.loop span parents counter (before ++ name :: after))

/-! ## One name -/

/-- A member that is there is looked up in the same way under both policies. -/
theorem Value.dot_strict (h : v.member name ≠ .absent) (start offset : Nat) :
    v.dot .strict name start offset = v.dot .lenient name start offset := by
  unfold dot
  split
  · rfl
  · rfl
  · next habsent => exact absurd habsent h

theorem Value.run_dot_strict_of_absent (h : v.member name = .absent) (start offset : Nat)
    (s : Scope) :
    (v.dot .strict name start offset).run.run s = (.error (lookupError name v start offset), s) := by
  unfold dot
  rw [h]
  rfl

theorem Value.run_dot_lenient_of_absent (h : v.member name = .absent) (start offset : Nat)
    (s : Scope) :
    (v.dot .lenient name start offset).run.run s = (.ok Option.none, s) := by
  unfold dot
  rw [h]
  rfl

theorem isFailedLookup_lookupError {shown : String} (h : w.repr = .ok shown) :
    (lookupError name w start offset).IsFailedLookup := by
  unfold lookupError
  rw [h]
  exact .mk

theorem not_isFailedLookup_lookupError {e : HostError} (h : w.repr = .error e) :
    ¬(lookupError name w start offset).IsFailedLookup := by
  unfold lookupError
  rw [h]
  nofun

/-! ## Dotted names -/

/-- A name that has been found was there. -/
theorem Value.member_ne_absent (h : (v.dot .lenient name start offset).run.run s = (.ok (some w), s')) :
    v.member name ≠ .absent := by
  intro habsent
  rw [run_dot_lenient_of_absent habsent] at h
  cases h

/-- **The policies agree** on names that lead to a value. -/
theorem Value.run_follow_strict_of_lenient {names : List String}
    (h : (v.follow .lenient start offset names).run.run s = (.ok (some w), s')) :
    (v.follow .strict start offset names).run.run s = (.ok (some w), s') := by
  induction names generalizing v offset s with
  | nil => exact h
  | cons name rest ih =>
    rw [run_follow_cons] at h ⊢
    cases hdot : (v.dot .lenient name start offset).run.run s with
    | mk outcome t =>
      rw [hdot] at h
      rcases outcome with fault | _ | next
      · cases h
      · cases h
      · rw [dot_strict (member_ne_absent hdot), hdot]
        exact ih h

/-- **The policies part** behind a value without the next member. -/
theorem Value.run_follow_of_absent
    (h : (v.follow .lenient start offset before).run.run s = (.ok (some w), s'))
    (habsent : w.member name = .absent) (after : List String) :
    (v.follow .strict start offset (before ++ name :: after)).run.run s =
        (.error (lookupError name w start (offset + namesLength before)), s') ∧
      (v.follow .lenient start offset (before ++ name :: after)).run.run s = (.ok Option.none, s') := by
  constructor
  · rw [run_follow_append (run_follow_strict_of_lenient h), run_follow_cons,
      run_dot_strict_of_absent habsent]
  · rw [run_follow_append h, run_follow_cons, run_dot_lenient_of_absent habsent]

/-- **Up to such a value they agree**, whatever comes of the lookup. -/
theorem Value.run_follow_strict (v : Value) (start offset : Nat) (names : List String) (s : Scope) :
    (v.follow .strict start offset names).run.run s =
        (v.follow .lenient start offset names).run.run s ∨
      ∃ before name after w s', names = before ++ name :: after ∧
        (v.follow .lenient start offset before).run.run s = (.ok (some w), s') ∧
        w.member name = .absent := by
  induction names generalizing v offset s with
  | nil => exact .inl rfl
  | cons name rest ih =>
    by_cases habsent : v.member name = .absent
    · exact .inr ⟨[], name, rest, v, s, rfl, rfl, habsent⟩
    · rw [run_follow_cons, run_follow_cons, dot_strict habsent]
      cases hdot : (v.dot .lenient name start offset).run.run s with
      | mk outcome t =>
        rcases outcome with fault | _ | next
        · exact .inl rfl
        · exact .inl rfl
        · rcases ih next (offset + name.length + 1) t with heq | ⟨before, other, after, w, s', hnames,
            hw, hother⟩
          · exact .inl heq
          · refine .inr ⟨name :: before, other, after, w, s', by rw [hnames]; rfl, ?_, hother⟩
            rw [run_follow_cons, hdot]
            exact hw

/-! ## Atoms -/

/-- **Unless a lookup stops at a value the policies agree** on it. -/
theorem Atom.run_resolve_strict (a : Atom) (s : Scope) :
    (a.resolve .strict).run.run s = (a.resolve .lenient).run.run s ∨ ∃ w name, a.StopsAt s w name := by
  cases a with
  | int | float | text | translated => exact .inl rfl
  | path span root names =>
    rw [run_resolve_path, run_resolve_path]
    cases hv : s.get? (.str root) with
    | none => exact .inl rfl
    | some v =>
      dsimp only
      rcases hcalled : (s.current v).called with e | _ | first
      · exact .inl rfl
      · exact .inl rfl
      · dsimp only
        rcases Value.run_follow_strict (s.number first).1 span.start root.length names
          (s.number first).2 with heq | ⟨before, name, after, w, s', rfl, hw, habsent⟩
        · exact .inl heq
        · have hfound : ((Atom.path span root before).resolve .lenient).run.run s =
              (.ok (some w), s') := by
            rw [run_resolve_path, hv]
            dsimp only
            rw [hcalled]
            exact hw
          exact .inr ⟨w, name, .path hfound habsent⟩
  | loop span parents counter names =>
    rw [run_resolve_loop, run_resolve_loop]
    rcases hvalue : loopValue s parents counter with e | _ | v
    · exact .inl rfl
    · exact .inl rfl
    · dsimp only
      rcases Value.run_follow_strict v span.start (loopPathLength parents counter) names s with
        heq | ⟨before, name, after, w, s', rfl, hw, habsent⟩
      · exact .inl heq
      · have hfound : ((Atom.loop span parents counter before).resolve .lenient).run.run s =
            (.ok (some w), s') := by
          rw [run_resolve_loop, hvalue]
          exact hw
        exact .inr ⟨w, name, .loop hfound habsent⟩

/-- **At such a value they part.** The part of the path before the name leads to it under either policy;
from there the strict one reports the name behind this part. -/
theorem Atom.StopsAt.exists_standsBefore (h : a.StopsAt s w name) :
    ∃ (p : Atom) (s' : Scope), p.StandsBefore name a ∧ (p.resolve .strict).run.run s = (.ok (some w), s') ∧
      (a.resolve .strict).run.run s =
        (.error (lookupError name w p.span.start p.span.length), s') ∧
      (a.resolve .lenient).run.run s = (.ok none, s') := by
  cases h with
  | @path span root before after s' hw habsent =>
    refine ⟨_, s', .path, ?_⟩
    rw [run_resolve_path] at hw
    simp only [run_resolve_path]
    cases hv : s.get? (.str root) with
    | none =>
      rw [hv] at hw
      cases hw
    | some v =>
      rw [hv] at hw
      dsimp only at hw ⊢
      rcases hcalled : (s.current v).called with e | _ | first
      · rw [hcalled] at hw
        cases hw
      · rw [hcalled] at hw
        cases hw
      · rw [hcalled] at hw
        exact ⟨Value.run_follow_strict_of_lenient hw, Value.run_follow_of_absent hw habsent after⟩
  | @loop span parents counter before after s' hw habsent =>
    refine ⟨_, s', .loop, ?_⟩
    rw [run_resolve_loop] at hw
    simp only [run_resolve_loop]
    rcases hvalue : loopValue s parents counter with e | _ | v
    · rw [hvalue] at hw
      cases hw
    · rw [hvalue] at hw
      cases hw
    · rw [hvalue] at hw
      exact ⟨Value.run_follow_strict_of_lenient hw, Value.run_follow_of_absent hw habsent after⟩

theorem Atom.run_resolve_of_stopsAt (h : a.StopsAt s w name) :
    ∃ start offset s',
      (a.resolve .strict).run.run s = (.error (lookupError name w start offset), s') ∧
        (a.resolve .lenient).run.run s = (.ok none, s') := by
  obtain ⟨p, s', -, -, hstrict, hlenient⟩ := h.exists_standsBefore
  exact ⟨p.span.start, p.span.length, s', hstrict, hlenient⟩

/-! ## Faults of a lenient lookup -/

/-- A computation **raises errors of the application only**. -/
def Rendering.HostOnly (x : Rendering α) : Prop :=
  ∀ s f, (x.run.run s).1 = .error f → ∃ e, f = .host e

theorem hostOnly_pure (b : α) : HostOnly (pure b) := fun _ _ h => nomatch h

theorem Rendering.HostOnly.bind {x : Rendering α} {g : α → Rendering β} (hx : HostOnly x)
    (hg : ∀ b, HostOnly (g b)) : HostOnly (x >>= g) := by
  intro s f h
  rw [run_bind] at h
  cases hrun : x.run.run s with
  | mk outcome s' =>
    rw [hrun] at h
    rcases outcome with fault | b
    · cases h
      exact hx s f (by rw [hrun])
    · exact hg b s' f h

theorem hostOnly_host (outcome : Except HostError α) : HostOnly (host outcome) := by
  intro s f h
  rcases outcome with e | b
  · cases h
    exact ⟨e, rfl⟩
  · cases h

theorem hostOnly_hushed (result : Except HostError (Option Value)) : HostOnly (hushed result) := by
  intro s f h
  unfold hushed at h
  rcases result with e | found
  · dsimp only at h
    split at h
    · cases h
    · cases h
      exact ⟨e, rfl⟩
  · cases h

theorem hostOnly_numbered (found : Option Value) : HostOnly (found.mapM numbered) := by
  cases found with
  | none => exact fun _ _ h => nomatch h
  | some v => exact fun _ _ h => nomatch h

theorem Value.hostOnly_dot (v : Value) (name : String) (start offset : Nat) :
    HostOnly (v.dot .lenient name start offset) := by
  have hcall (w : Value) :
      HostOnly (do (← hushed w.called).mapM Rendering.numbered : Rendering (Option Value)) :=
    (hostOnly_hushed _).bind hostOnly_numbered
  unfold dot
  split
  · next w _ =>
    split
    · exact HostOnly.bind (fun _ _ h => nomatch h) fun _ => hcall w
    · exact hcall w
  · exact hostOnly_hushed _
  · exact hostOnly_pure _

theorem Value.hostOnly_follow (v : Value) (start offset : Nat) (names : List String) :
    HostOnly (v.follow .lenient start offset names) := by
  induction names generalizing v offset with
  | nil => exact hostOnly_pure _
  | cons name rest ih =>
    unfold follow
    refine (v.hostOnly_dot name start offset).bind fun found => ?_
    cases found with
    | none => exact hostOnly_pure _
    | some next => exact ih next _

/-- **A lenient lookup** raises errors of the application only. -/
theorem Atom.hostOnly_resolve (a : Atom) : HostOnly (a.resolve .lenient) := by
  cases a with
  | int | float | text | translated => exact hostOnly_pure _
  | path span root names =>
    refine HostOnly.bind (fun _ _ h => nomatch h) fun s => ?_
    split
    · exact hostOnly_pure _
    · refine HostOnly.bind (fun _ _ h => nomatch h) fun v => (hostOnly_host _).bind fun found => ?_
      cases found with
      | none => exact hostOnly_pure _
      | some w => exact HostOnly.bind (fun _ _ h => nomatch h) fun w => w.hostOnly_follow _ _ _
  | loop span parents counter names =>
    refine HostOnly.bind (fun _ _ h => nomatch h) fun s => (hostOnly_host _).bind fun found => ?_
    cases found with
    | none => exact hostOnly_pure _
    | some v => exact v.hostOnly_follow _ _ _

/-! ## Expressions -/

/-- The filters are applied in the same way under both policies. -/
theorem Expression.run_resolve_strict_of_ok {e : Expression} {found : Option Value}
    (h : ((e.resolve .strict).run.run s).1 = .ok found) :
    (e.resolve .lenient).run.run s = (e.resolve .strict).run.run s := by
  unfold resolve at h ⊢
  obtain ⟨v, s', hv, -⟩ := exists_of_run_bind h
  have hhead : (e.head.resolve .lenient).run.run s = (e.head.resolve .strict).run.run s := by
    rcases e.head.run_resolve_strict s with heq | ⟨w, name, hstops⟩
    · exact heq.symm
    · obtain ⟨start, offset, t, hstrict, -⟩ := Atom.run_resolve_of_stopsAt hstops
      rw [hstrict] at hv
      cases hv
  rw [run_bind, run_bind, hhead]

theorem Expression.run_resolve_of_no_filters (a : Atom) (strictness : Strictness) (s : Scope) :
    ((⟨a, []⟩ : Expression).resolve strictness).run.run s = (a.resolve strictness).run.run s := by
  unfold resolve
  rw [run_bind]
  rcases (a.resolve strictness).run.run s with ⟨_ | _, s'⟩ <;> rfl

/-- **The two policies agree wherever the strict one succeeds**, on the value and on the scope that is
left. Without filters the lenient lookup finds nothing where the strict one reports a missing member,
and any other fault is raised by both, exactly if a value at which the lookup stops can be shown. -/
theorem lenient_of_strict (e : Expression) (a : Atom) (s : Scope) :
    (∀ found, ((e.resolve .strict).run.run s).1 = .ok found →
      (e.resolve .lenient).run.run s = (e.resolve .strict).run.run s) ∧
    let strict := (((⟨a, []⟩ : Expression).resolve .strict).run.run s).1
    let lenient := (((⟨a, []⟩ : Expression).resolve .lenient).run.run s).1
    ((∀ f, strict = .error f →
        (f.IsFailedLookup → lenient = .ok none) ∧ (¬f.IsFailedLookup → lenient = .error f)) ↔
      ∀ w name, a.StopsAt s w name → ∃ shown, w.repr = .ok shown) := by
  refine ⟨fun found => Expression.run_resolve_strict_of_ok, ?_⟩
  rw [Expression.run_resolve_of_no_filters, Expression.run_resolve_of_no_filters]
  intro strict lenient
  constructor
  · intro hfits w name hstops
    obtain ⟨start, offset, s', hstrict, hlenient⟩ := Atom.run_resolve_of_stopsAt hstops
    have hfault : strict = .error (lookupError name w start offset) := congrArg Prod.fst hstrict
    have hnone : lenient = .ok none := congrArg Prod.fst hlenient
    cases hrepr : w.repr with
    | ok shown => exact ⟨shown, rfl⟩
    | error e =>
      have hboth := (hfits _ hfault).2 (not_isFailedLookup_lookupError hrepr)
      rw [hnone] at hboth
      cases hboth
  · intro hshown f hf
    rcases a.run_resolve_strict s with heq | ⟨w, name, hstops⟩
    · have hboth : lenient = .error f := by rw [← hf]; exact (congrArg Prod.fst heq).symm
      obtain ⟨e, rfl⟩ := a.hostOnly_resolve s f hboth
      exact ⟨nofun, fun _ => hboth⟩
    · obtain ⟨start, offset, s', hstrict, hlenient⟩ := Atom.run_resolve_of_stopsAt hstops
      have hfault : strict = .error (lookupError name w start offset) := congrArg Prod.fst hstrict
      have hnone : lenient = .ok none := congrArg Prod.fst hlenient
      obtain ⟨shown, hrepr⟩ := hshown w name hstops
      rw [hfault] at hf
      cases hf
      exact ⟨fun _ => hnone, fun hnot => absurd (isFailedLookup_lookupError hrepr) hnot⟩

/-- A counter that is too long to be shown has no member either, and only a strict lookup raises an
error. -/
theorem strict_of_long_counter :
    let s := { Scope.create none true none with loops := [⟨10 ^ 4300 - 1, 1⟩] }
    let e : Expression := ⟨.loop ⟨0, 19⟩ 0 (some .counter) ["foo"], []⟩
    ((e.resolve .strict).run.run s).1 = .error (.host .tooManyDigits) ∧
      ¬(Fault.host .tooManyDigits).IsFailedLookup ∧
      ((e.resolve .lenient).run.run s).1 = .ok none := by
  intro s e
  have hlong : (Value.int (10 ^ 4300 - 1 + 1)).repr = .error .tooManyDigits := by
    have hdigits : Integer.hasText (10 ^ 4300 - 1 + 1) = false := by decide +kernel
    unfold Value.repr Value.repr? Integer.text?
    rw [hdigits]
    rfl
  have hcounter : ((Atom.loop ⟨0, 19⟩ 0 (some .counter) []).resolve .lenient).run.run s =
      (.ok (some (.int (10 ^ 4300 - 1 + 1))), s) := rfl
  have hstops : Atom.StopsAt s (.int (10 ^ 4300 - 1 + 1)) "foo"
      (.loop ⟨0, 19⟩ 0 (some .counter) ([] ++ "foo" :: [])) := .loop hcounter rfl
  obtain ⟨start, offset, s', hstrict, hlenient⟩ := Atom.run_resolve_of_stopsAt hstops
  rw [Expression.run_resolve_of_no_filters, Expression.run_resolve_of_no_filters]
  refine ⟨?_, nofun, congrArg Prod.fst hlenient⟩
  have hfault : lookupError "foo" (.int (10 ^ 4300 - 1 + 1)) start offset =
      .host .tooManyDigits := by
    unfold lookupError
    rw [hlong]
  rw [← hfault]
  exact congrArg Prod.fst hstrict

end Galley
