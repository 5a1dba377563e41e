import Galley.Compile
import Galley.Proofs.Effects
import Galley.Proofs.Placement

/-!
# Errors that ask for silence

An error of the application may ask for silence: a path in which it is raised counts as missing. It can
be raised wherever the path is looked up, by the flags or the call of the variable that it begins with,
and by reading any member behind it or calling what is found there.

* `Value.CallRaises`, `Value.MemberRaises`, `Raises`: where an error comes up.
* `Value.run_follow_append`: a path is followed part by part.
* `Value.run_follow_of_silent`: behind the first name silence is kept, at every length.
* `resolve_of_silent`: **a path with such an error is missing, except that the error of calling its
  variable is not silenced.**
-/

namespace Galley

open Rendering

variable {v w : Value} {name root : String} {e : HostError} {s s' : Scope} {strictness : Strictness}
  {start offset : Nat} {before after names : List String} {span : Span}

/-! ## Where an error is raised -/

/-- **Calling a value raises** an error: reading one of the flags that ask for it not to be called
does, or the call itself. -/
inductive Value.CallRaises : Value → HostError → Prop
  | kept {identity : Identity} {attributes : List (String × Except HostError Value)}
    {call : Callable Value} {e : HostError}
    (h : flagged attributes "do_not_call_in_templates" = .error e) :
    CallRaises (.object identity attributes (some call)) e
  | changing {identity : Identity} {attributes : List (String × Except HostError Value)}
    {call : Callable Value} {e : HostError}
    (hkept : flagged attributes "do_not_call_in_templates" = .ok false)
    (h : flagged attributes "alters_data" = .error e) :
    CallRaises (.object identity attributes (some call)) e
  | result {identity : Identity} {attributes : List (String × Except HostError Value)}
    {call : Callable Value} {e : HostError}
    (hkept : flagged attributes "do_not_call_in_templates" = .ok false)
    (hchanging : flagged attributes "alters_data" = .ok false)
    (hargument : call.needsArgument = false) (h : call.result = .error e) :
    CallRaises (.object identity attributes (some call)) e

/-- **Looking up a member raises** an error: reading it does, or calling what is found. -/
def Value.MemberRaises (v : Value) (name : String) (e : HostError) : Prop :=
  v.member name = .failed e ∨ ∃ w, v.member name = .found w ∧ w.CallRaises e

/-- **A path raises** an error in a scope: the variable that it begins with does when it is called, or
the member with one of its names does, behind the value that the names before it lead to. -/
inductive Raises (strictness : Strictness) (span : Span) (root : String) (s : Scope) (e : HostError) :
    List String → Prop
  | root {names : List String} {v : Value} (hv : s.get? (.str root) = some v)
    (h : (s.current v).CallRaises e) : Raises strictness span root s e names
  | name {before after : List String} {name : String} {v : Value} {s' : Scope}
    (hv : ((Atom.path span root before).resolve strictness).run.run s = (.ok (some v), s'))
    (h : v.MemberRaises name e) : Raises strictness span root s e (before ++ name :: after)

/-- **Calling the variable itself raises** an error that the call does not take back. It takes back that
arguments are missing where this cannot be found out beforehand. -/
def RootRaises (s : Scope) (root : String) (e : HostError) : Prop :=
  ∃ v, s.get? (.str root) = some v ∧ (s.current v).called = .error e

/-! ## Members -/

theorem Value.called_of_callRaises (h : v.CallRaises e) :
    v.called = .error e ∨ v.called = .ok Option.none := by
  cases h with
  | kept h =>
    left
    rw [called, h]
    rfl
  | changing hkept h =>
    left
    rw [called, hkept]
    change (do if ← flagged _ "alters_data" then _ else _ : Except HostError (Option Value)) = _
    rw [h]
    rfl
  | @result identity attributes call _ hkept hchanging hargument h =>
    have hcalled : called (.object identity attributes (some call)) =
        if e.kind = "TypeError" && !call.inspectable then .ok Option.none else .error e := by
      rw [called, hkept]
      change (do if ← flagged attributes "alters_data" then _ else _ : Except _ (Option Value)) = _
      rw [hchanging]
      change (if call.needsArgument then _ else _ : Except HostError (Option Value)) = _
      rw [hargument, h]
      rfl
    rw [hcalled]
    split
    · exact .inr rfl
    · exact .inl rfl

theorem run_hushed_of_silent (hsilent : e.silent) (s : Scope) :
    (hushed (.error e)).run.run s = (.ok none, s) := by
  unfold hushed
  dsimp only
  rw [if_pos hsilent]
  rfl

/-- **A member that raises such an error is missing,** whether missing members are errors or not. -/
theorem Value.run_dot_of_silent (strictness : Strictness) (start offset : Nat)
    (hsilent : e.silent) (h : v.MemberRaises name e) (s : Scope) :
    ∃ s', (v.dot strictness name start offset).run.run s = (.ok Option.none, s') := by
  have hcall {w : Value} (hw : w.CallRaises e) (s : Scope) :
      (do (← hushed w.called).mapM Rendering.numbered : Rendering (Option Value)).run.run s =
        (.ok Option.none, s) := by
    have hhushed : (hushed w.called).run.run s = (.ok Option.none, s) := by
      rcases called_of_callRaises hw with hcalled | hcalled
      · rw [hcalled, run_hushed_of_silent hsilent]
      · rw [hcalled]
        rfl
    rw [run_bind, hhushed]
    rfl
  unfold dot
  rcases h with hfailed | ⟨w, hfound, hw⟩
  · rw [hfailed]
    exact ⟨s, run_hushed_of_silent hsilent s⟩
  · rw [hfound]
    dsimp only
    split
    · -- an item may be taken from a list before the call goes wrong
      next number left _ => exact ⟨s.take number left, hcall hw _⟩
    · exact ⟨s, hcall hw s⟩

/-! ## Paths -/

/-- **A path is followed part by part.** -/
theorem Value.run_follow_append
    (h : (v.follow strictness start offset before).run.run s = (.ok (some w), s'))
    (after : List String) :
    (v.follow strictness start offset (before ++ after)).run.run s =
      (w.follow strictness start (offset + namesLength before) after).run.run s' := by
  induction before generalizing v offset s with
  | nil =>
    cases h
    rfl
  | cons name rest ih =>
    rw [List.cons_append, run_follow_cons]
    rw [run_follow_cons] at h
    cases hdot : (v.dot strictness name start offset).run.run s with
    | mk outcome t =>
      rw [hdot] at h
      rcases outcome with fault | _ | next
      · cases h
      · cases h
      · rw [namesLength_cons, ← Nat.add_assoc, ← Nat.add_assoc]
        exact ih h

/-- **Behind a value silence is kept**, however many names lead to the error. -/
theorem Value.run_follow_of_silent (hsilent : e.silent)
    (h : (v.follow strictness start offset before).run.run s = (.ok (some w), s'))
    (hraises : w.MemberRaises name e) (after : List String) :
    ((v.follow strictness start offset (before ++ name :: after)).run.run s).1 =
      .ok Option.none := by
  obtain ⟨t, hdot⟩ := run_dot_of_silent strictness start (offset + namesLength before) hsilent
    hraises s'
  rw [run_follow_append h, run_follow_cons, hdot]

/-- **A path in which an error is raised that asks for silence is missing**, under either policy and
wherever in the path it is raised: by reading any of its members, or by calling what is found. The one
exception is the error of calling the variable that the path begins with, which is not silenced. -/
theorem resolve_of_silent (hsilent : e.silent) (h : Raises strictness span root s e names) :
    let found := (((Atom.path span root names).resolve strictness).run.run s).1
    (¬RootRaises s root e → found = .ok none) ∧ (RootRaises s root e → found = .error (.host e)) := by
  intro found
  have hescapes (hroot : RootRaises s root e) : found = .error (.host e) := by
    obtain ⟨v, hv, hcalled⟩ := hroot
    change (((Atom.path span root names).resolve strictness).run.run s).1 = _
    rw [Atom.run_resolve_path, hv]
    dsimp only
    rw [hcalled]
  refine ⟨fun hkept => ?_, hescapes⟩
  change (((Atom.path span root names).resolve strictness).run.run s).1 = _
  cases h with
  | @root _ v hv h =>
    rcases Value.called_of_callRaises h with hcalled | hcalled
    · exact absurd ⟨v, hv, hcalled⟩ hkept
    · rw [Atom.run_resolve_path, hv]
      dsimp only
      rw [hcalled]
  | @name before after name w s' hw h =>
    -- the names before it lead to a value, so the variable was called without an error
    rw [Atom.run_resolve_path] at hw ⊢
    cases hv : s.get? (.str root) with
    | none => rfl
    | some v =>
      rw [hv] at hw
      dsimp only at hw ⊢
      rcases hcalled : (s.current v).called with e' | _ | first
      · rw [hcalled] at hw
        cases hw
      · rfl
      · rw [hcalled] at hw
        exact Value.run_follow_of_silent hsilent hw h after

/-- The call of a member in the middle of a path. -/
theorem resolve_of_silent_member :
    let e := HostError.raised "ValueError" "no" true
    let f : Value := .object ⟨2, "Call", "<call>", "<call>", false, none⟩ [] (some { result := .error e })
    let x : Value := .object ⟨1, "Obj", "<obj>", "<obj>", false, none⟩ [("a", .ok f)] none
    let s := Scope.create (some [(.str "x", x)]) true none
    e.silent ∧ Raises .strict ⟨3, 5⟩ "x" s e ["a", "z"] ∧
      (((Atom.path ⟨3, 5⟩ "x" ["a", "z"]).resolve .strict).run.run s).1 = .ok none := by
  intro e f x s
  have hraises : Raises .strict ⟨3, 5⟩ "x" s e ([] ++ "a" :: ["z"]) :=
    .name rfl (.inr ⟨f, rfl, .result rfl rfl rfl rfl⟩)
  have hroot : ¬RootRaises s "x" e := by
    rintro ⟨v, hv, hcalled⟩
    cases hv
    cases hcalled
  exact ⟨rfl, hraises, (resolve_of_silent rfl hraises).1 hroot⟩

/-- The call of the variable itself: its error is raised under both policies. -/
theorem resolve_of_silent_variable :
    let e := HostError.raised "ValueError" "no" true
    let f : Value := .object ⟨1, "Call", "<call>", "<call>", false, none⟩ [] (some { result := .error e })
    let s := Scope.create (some [(.str "f", f)]) true none
    compile "\x7b\x7b f \x7d\x7d".toList [] = .ok [.output ⟨0, 7⟩ ⟨.path ⟨3, 1⟩ "f" [], []⟩] ∧
      e.silent ∧ ∀ strictness, Raises strictness ⟨3, 1⟩ "f" s e [] ∧
        (((Atom.path ⟨3, 1⟩ "f" []).resolve strictness).run.run s).1 = .error (.host e) := by
  intro e f s
  have hscan : Token.scan "\x7b\x7b f \x7d\x7d".toList = [⟨.interpolation, ⟨0, 7⟩⟩] := by decide +kernel
  refine ⟨by rw [compile, hscan]; rfl, rfl, fun strictness => ⟨?_, rfl⟩⟩
  exact .root (v := f) rfl (.result rfl rfl rfl rfl)

end Galley
