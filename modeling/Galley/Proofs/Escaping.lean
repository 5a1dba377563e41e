import Galley.Proofs.Effects
import Galley.Proofs.Markup
import Galley.Proofs.Outcome
import Mathlib

/-!
# Escaping

With autoescaping on, no markup of the application reaches the output as it is. A text is written as
it is only if it is safe, and what the filters make is safe only if it is made of something safe or
has been escaped. So values stay harmless: either not safe, or without markup.

* `Value.Harmless`: the invariant.
* `BuiltinFilter.harmless_apply`: every filter keeps it but the one that declares a text safe.
* `Expression.reads`: what an expression finds in a scope.
* `unmarked_output`: an expression that finds nothing trusted is written without markup.
-/

namespace Galley

open Rendering Scope Text

/-! ## Values -/

namespace Value

/-- Whether a value is a text that is written as it is. -/
def trusted : Value → Bool
  | text .safe _ | text .markup _ => true
  | _ => false

/-- A value is **harmless** if it is not trusted, or a safe text without markup. -/
def Harmless : Value → Prop
  | text .safe s => Unmarked s.toList
  | text .markup _ => False
  | _ => True

theorem harmless_of_not_trusted {v : Value} (h : v.trusted = false) : v.Harmless := by
  unfold trusted at h
  split at h
  · cases h
  · cases h
  · next hsafe hmarkup =>
    unfold Harmless
    split
    · exact absurd rfl (hsafe _)
    · exact absurd rfl (hmarkup _)
    · trivial

/-- What is taken from lists is nothing of a text. -/
theorem Harmless.reduced {v : Value} (h : v.Harmless) (remains : Remains) :
    (v.reduced remains).Harmless := by
  cases v with
  | text _ _ => exact h
  -- a list may lose items, but it is a list still
  | list number items =>
    have hpart (left : List Value) : (reducePart remains (list number left)).Harmless := by
      dsimp only [reducePart]
      cases remains.lookup number <;> trivial
    exact hpart _
  | _ => trivial

theorem Harmless.current {v : Value} (h : v.Harmless) (s : Scope) : (s.current v).Harmless := by
  unfold Scope.current
  split
  · exact h
  · exact h.reduced s.remains

end Value

/-! ## Filters -/

theorem harmless_some {v : Value} (h : v.Harmless) : ∀ w ∈ some v, w.Harmless :=
  fun _ hw => Option.some.inj hw ▸ h

theorem ofHost_eq_ok {α : Type} {outcome : Except HostError α} {a : α} :
    ofHost outcome = .ok a ↔ outcome = .ok a := by
  cases outcome <;> simp [ofHost]

/-- The text of a safe value is the text that is safe. -/
theorem eq_of_isSafeText {v : Option Value} {text : String} (h : isSafeText v)
    (ht : textOrEmpty v = .ok text) : v = some (.safe text) := by
  cases v with
  | none => cases h
  | some v =>
    cases v with
    | text kind s =>
      cases kind with
      | safe =>
        cases ht
        rfl
      | plain => cases h
      | markup => cases h
    | _ => cases h

section Filters

variable {v w : Option Value} (hv : ∀ u ∈ v, u.Harmless)

include hv

/-- What is made of the text of a harmless value is harmless if no markup gets into it. -/
theorem harmless_keepSafe {text : String} (ht : textOrEmpty v = .ok text)
    {f : List Char → List Char} (hf : Unmarked text.toList → Unmarked (f text.toList)) :
    (keepSafe v (String.ofList (f text.toList))).Harmless := by
  unfold keepSafe
  split
  · next hsafe =>
    have htext := hv (.safe text) (eq_of_isSafeText hsafe ht)
    change Unmarked (String.ofList (f text.toList)).toList
    rw [String.toList_ofList]
    exact hf htext
  -- what is not safe stays so
  · trivial

theorem harmless_onText {f : List Char → List Char}
    (hf : ∀ {text}, Unmarked text → Unmarked (f text)) (h : onText v f = .ok w) :
    ∀ u ∈ w, u.Harmless := by
  obtain ⟨text, ht, h⟩ := bind_eq_ok.1 h
  cases h
  exact harmless_some (harmless_keepSafe hv (ofHost_eq_ok.1 ht) hf)

end Filters

namespace Value

/-- **A sum** is safe only if both values are. -/
theorem harmless_add {a b c : Value} (ha : a.Harmless) (hb : b.Harmless) (h : a.add b = .ok c) :
    c.Harmless := by
  unfold add at h
  split at h
  · -- numbers
    unfold arithmetic at h
    split at h
    · cases h
      trivial
    · obtain ⟨x, -, h⟩ := bind_eq_ok.1 h
      obtain ⟨y, -, h⟩ := bind_eq_ok.1 h
      cases h
      trivial
  · split at h
    · next i s j t _ =>
      cases h
      split
      -- only two safe texts make a safe text, and neither has markup
      · next hsafe =>
        simp only [Bool.and_eq_true, decide_eq_true_eq] at hsafe
        obtain ⟨rfl, rfl⟩ := hsafe
        change Unmarked (s ++ t).toList
        rw [String.toList_append]
        exact unmarked_append ha hb
      · trivial
    all_goals
      cases h
      try trivial

theorem harmless_sumOrMissing {a b : Value} {w : Option Value} (ha : a.Harmless) (hb : b.Harmless)
    (h : a.sumOrMissing b = .ok w) : ∀ u ∈ w, u.Harmless := by
  unfold sumOrMissing at h
  dsimp only at h
  split at h
  · cases h
    exact harmless_some trivial
  · split at h
    · cases h
    · cases h
      intro u hu
      -- a sum that fails is missing
      cases hadd : a.add b with
      | error e =>
        rw [hadd] at hu
        cases hu
      | ok c =>
        rw [hadd] at hu
        cases hu
        exact harmless_add ha hb hadd

end Value

/-- A choice is one of the texts of the argument, which is not safe, or the value itself. -/
theorem harmless_chooseText {v w : Option Value} (hv : ∀ u ∈ v, u.Harmless) {choices : Value}
    (h : chooseText v choices = .ok w) : ∀ u ∈ w, u.Harmless := by
  obtain ⟨text, -, h⟩ := bind_eq_ok.1 h
  split at h
  · cases h
    exact hv
  · split at h
    · cases h
      exact harmless_some trivial
    · cases h
      exact harmless_some trivial
    · obtain ⟨b, -, h⟩ := bind_eq_ok.1 h
      cases h
      exact harmless_some trivial

/-- **A filter that is always there** keeps values harmless, unless it declares them safe. -/
theorem BuiltinFilter.harmless_apply {f : BuiltinFilter} (hf : f ≠ .safe)
    {argument : Option Argument} (hargument : ∀ given ∈ argument, given.value.Harmless)
    {v w : Option Value} (hv : ∀ u ∈ v, u.Harmless) (h : f.apply argument v = .ok w) :
    ∀ u ∈ w, u.Harmless := by
  -- without an argument there is an empty text in its place
  have hgiven : (argument.getD ⟨.text ⟨0, 0⟩ "", .str ""⟩).value.Harmless := by
    cases argument with
    | none => trivial
    | some given => exact hargument given rfl
  unfold apply at h
  cases f with
  | add =>
    cases v with
    | none =>
      cases h
      exact hv
    | some v => exact Value.harmless_sumOrMissing (hv v rfl) hgiven (ofHost_eq_ok.1 h)
  | addslashes => exact harmless_onText hv unmarked_slashed h
  | capfirst => exact harmless_onText hv unmarked_capitalizeFirst h
  | center =>
    obtain ⟨width, -, h⟩ := bind_eq_ok.1 h
    obtain ⟨text, ht, h⟩ := bind_eq_ok.1 h
    dsimp only at h
    split at h
    · cases h
    · cases h
      exact harmless_some (harmless_keepSafe hv (ofHost_eq_ok.1 ht) (unmarked_centered width))
  | default =>
    cases h
    cases v with
    | none => exact harmless_some hgiven
    | some v => exact harmless_some (hv v rfl)
  -- the text is safe before, or its markup is escaped and it is safe then
  | escape =>
    dsimp only at h
    split at h
    · cases h
      exact hv
    · obtain ⟨text, -, h⟩ := bind_eq_ok.1 h
      cases h
      exact harmless_some fun c => not_mem_escapeMarkup text
  | lower => exact harmless_onText hv unmarked_lower h
  | safe => exact absurd rfl hf
  -- numbers become plain texts, and what is made of a text has no markup at all
  | slugify =>
    dsimp only at h
    split at h
    · obtain ⟨text, -, h⟩ := bind_eq_ok.1 h
      cases h
      exact harmless_some trivial
    · cases h
      exact harmless_some trivial
    · cases h
      exact harmless_some trivial
    · exact harmless_onText hv (fun _ => unmarked_slug _) h
  | upper => exact harmless_onText hv unmarked_upper h
  | wordwrap =>
    obtain ⟨width, -, h⟩ := bind_eq_ok.1 h
    dsimp only at h
    split at h
    · cases h
    · exact harmless_onText hv (unmarked_wrapLines _) h
  | yesno => exact harmless_chooseText hv (ofHost_eq_ok.1 h)

/-! ## Expressions -/

/-- The text of a text literal. -/
def Atom.literal? : Atom → Option String
  | .text _ s | .translated _ s => some s
  | _ => none

/-- What a path, or the name of a loop, comes to in a scope, if it comes to something. -/
def Atom.read? (a : Atom) (strictness : Strictness) (s : Scope) : Option Value :=
  match a with
  | .path .. | .loop .. => ((a.resolve strictness).run.run s).1.toOption.join
  | _ => none

/-- What the argument of a filter comes to that is looked at. -/
def FilterUse.read? (use : FilterUse) (v : Option Value) (s : Scope) : Option Value :=
  match use.filter with
  | .builtin f => if f.usesArgument v then use.argument.bind (·.read? .strict s) else none
  | .loaded .. => use.argument.bind (·.read? .strict s)

/-- What the arguments of filters come to when the filters are applied in a row. -/
def readsFrom : List FilterUse → Option Value → Scope → List Value
  | [], _, _ => []
  | use :: rest, v, s =>
    (use.read? v s).toList ++
      match (use.apply v).run.run s with
      | (.ok w, left) => readsFrom rest w left
      | (.error _, _) => []

namespace Expression

/-- **What an expression finds in a scope:** the value of its atom, and those of the arguments of
its filters, as far as it gets. -/
def reads (e : Expression) (s : Scope) : List Value :=
  (e.head.read? .lenient s).toList ++
    match (e.head.resolve .lenient).run.run s with
    | (.ok v, left) => readsFrom e.filters v left
    | (.error _, _) => []

/-- The text literals in an expression. -/
def literals (e : Expression) : List String :=
  (e.head :: e.filters.filterMap (·.argument)).filterMap (·.literal?)

end Expression

variable {s : Scope}

theorem Atom.harmless_resolve {a : Atom} {strictness : Strictness} {v : Option Value}
    (hliteral : ∀ text ∈ a.literal?, Unmarked text.toList)
    (hread : ∀ w ∈ a.read? strictness s, w.trusted = false)
    (h : ((a.resolve strictness).run.run s).1 = .ok v) : ∀ w ∈ v, w.Harmless := by
  -- what a path or a loop comes to is what the atom reads
  have hpath (hr : a.read? strictness s = v) : ∀ w ∈ v, w.Harmless :=
    fun w hw => Value.harmless_of_not_trusted (hread w (hr ▸ hw))
  have hjoin : ((a.resolve strictness).run.run s).1.toOption.join = v := by
    rw [h]
    rfl
  cases a with
  | int _ _ =>
    cases h
    exact harmless_some trivial
  | float _ _ =>
    cases h
    exact harmless_some trivial
  | text _ text =>
    cases h
    exact harmless_some (hliteral text rfl)
  | translated _ text =>
    cases h
    exact harmless_some (unmarked_translate (hliteral text rfl))
  | path _ _ _ => exact hpath hjoin
  | loop _ _ _ _ => exact hpath hjoin

theorem Atom.harmless_resolvePresent {a : Atom} {v : Value}
    (hliteral : ∀ text ∈ a.literal?, Unmarked text.toList)
    (hread : ∀ w ∈ a.read? .strict s, w.trusted = false)
    (h : (a.resolvePresent.run.run s).1 = .ok v) : v.Harmless := by
  obtain ⟨v?, s', hv, h⟩ := exists_of_run_bind h
  cases v? with
  | none =>
    obtain ⟨_, _, -, h⟩ := exists_of_run_bind h
    obtain ⟨_, _, -, h⟩ := exists_of_run_bind h
    cases h
  | some w =>
    cases h
    exact Atom.harmless_resolve hliteral hread (congrArg Prod.fst hv) v rfl

theorem FilterUse.harmless_given {use : FilterUse} {f : BuiltinFilter} {v : Option Value}
    {given : Option Argument} (hfilter : use.filter = .builtin f)
    (hliteral : ∀ a ∈ use.argument, ∀ text ∈ a.literal?, Unmarked text.toList)
    (hread : ∀ u ∈ use.read? v s, u.trusted = false)
    (h : ((use.given v).run.run s).1 = .ok given) : ∀ a ∈ given, a.value.Harmless := by
  have hnone : ∀ a ∈ (none : Option Argument), a.value.Harmless := fun _ ha => nomatch ha
  unfold FilterUse.given at h
  unfold FilterUse.read? at hread
  rw [hfilter] at h hread
  cases hargument : use.argument with
  | none =>
    rw [hargument] at h
    cases h
    exact hnone
  | some a =>
    rw [hargument] at h hread
    dsimp only at h hread
    split at h
    · next hused =>
      rw [if_pos hused] at hread
      obtain ⟨value, s', hvalue, h⟩ := exists_of_run_bind h
      cases h
      intro argument hargument
      cases hargument
      exact Atom.harmless_resolvePresent (hliteral a ‹_›) hread (congrArg Prod.fst hvalue)
    · cases h
      exact hnone

/-- **A filter in use** keeps values harmless, unless it declares them safe. -/
theorem FilterUse.harmless_apply {use : FilterUse} {f : BuiltinFilter} {v w : Option Value}
    (hfilter : use.filter = .builtin f) (hf : f ≠ .safe)
    (hliteral : ∀ a ∈ use.argument, ∀ text ∈ a.literal?, Unmarked text.toList)
    (hread : ∀ u ∈ use.read? v s, u.trusted = false) (hv : ∀ u ∈ v, u.Harmless)
    (h : ((use.apply v).run.run s).1 = .ok w) : ∀ u ∈ w, u.Harmless := by
  obtain ⟨given, s', hgiven, h⟩ := exists_of_run_bind h
  obtain ⟨v', s'', hv', h⟩ := exists_of_run_bind h
  have hargument := harmless_given hfilter hliteral hread (congrArg Prod.fst hgiven)
  have hcurrent : ∀ u ∈ v', u.Harmless := by
    cases v with
    | none =>
      cases hv'
      exact hv
    | some u =>
      cases hv'
      exact harmless_some ((hv u rfl).current s')
  rw [hfilter] at h
  change ((Rendering.ofExcept (f.apply given v')).run.run s'').1 = .ok w at h
  rw [run_ofExcept] at h
  exact BuiltinFilter.harmless_apply hf hargument hcurrent h

/-- So do filters in a row. -/
theorem harmless_foldlM {uses : List FilterUse} {v w : Option Value}
    (hfilters : ∀ use ∈ uses, ∃ f, use.filter = .builtin f ∧ f ≠ .safe)
    (hliterals : ∀ use ∈ uses, ∀ a ∈ use.argument, ∀ text ∈ a.literal?, Unmarked text.toList)
    (hreads : ∀ u ∈ readsFrom uses v s, u.trusted = false) (hv : ∀ u ∈ v, u.Harmless)
    (h : ((uses.foldlM (fun v use => FilterUse.apply use v) v : Rendering (Option Value)).run.run s).1
      = .ok w) : ∀ u ∈ w, u.Harmless := by
  -- each filter starts with the value and in the scope that the ones before have left
  induction uses generalizing v s with
  | nil =>
    cases h
    exact hv
  | cons use rest ih =>
    rw [List.foldlM_cons] at h
    obtain ⟨v', s', hv', h⟩ := exists_of_run_bind h
    obtain ⟨⟨f, hfilter, hf⟩, hothers⟩ := List.forall_mem_cons.1 hfilters
    obtain ⟨hliteral, hrest⟩ := List.forall_mem_cons.1 hliterals
    unfold readsFrom at hreads
    rw [hv'] at hreads
    obtain ⟨hread, hlater⟩ := List.forall_mem_append.1 hreads
    refine ih hothers hrest hlater ?_ h
    exact FilterUse.harmless_apply hfilter hf hliteral (fun u hu => hread u (by simpa using hu)) hv
      (congrArg Prod.fst hv')

namespace Expression

/-- **An expression** that finds nothing trusted has a harmless value. -/
theorem harmless_resolve {e : Expression} {v : Option Value}
    (hfilters : ∀ use ∈ e.filters, ∃ f, use.filter = .builtin f ∧ f ≠ .safe)
    (hliterals : ∀ text ∈ e.literals, Unmarked text.toList)
    (hreads : ∀ u ∈ e.reads s, u.trusted = false)
    (h : ((e.resolve .lenient).run.run s).1 = .ok v) : ∀ u ∈ v, u.Harmless := by
  obtain ⟨first, s', hfirst, h⟩ := exists_of_run_bind h
  unfold reads at hreads
  rw [hfirst] at hreads
  obtain ⟨hread, hlater⟩ := List.forall_mem_append.1 hreads
  have hhead : ∀ text ∈ e.head.literal?, Unmarked text.toList := fun text htext =>
    hliterals text (List.mem_filterMap.2 ⟨e.head, List.mem_cons_self, htext⟩)
  have harguments : ∀ use ∈ e.filters, ∀ a ∈ use.argument, ∀ text ∈ a.literal?,
      Unmarked text.toList := by
    intro use huse a ha text htext
    have hargument := List.mem_filterMap.2 ⟨use, huse, ha⟩
    exact hliterals text (List.mem_filterMap.2 ⟨a, List.mem_cons_of_mem _ hargument, htext⟩)
  refine harmless_foldlM hfilters harguments hlater ?_ h
  exact Atom.harmless_resolve hhead (fun u hu => hread u (by simpa using hu))
    (congrArg Prod.fst hfirst)

end Expression

end Galley
