import Galley.Error

/-!
# Outcomes of reading a template

Whatever reads a part of a template ends in one of two ways: with a result, or with an error of the
template that is found before it is rendered and points at places in its text.

* `TemplateError.Declared`: such an error.
* `Span.Apart`, `TemplateError.Clear`: places that do not overlap, and an error whose places do not.
* `Span.stop_through`: places that are joined from two.
* `TemplateError.Located`, `TemplateError.Proper`: an error whose places lie in a text and do not
  overlap, and one that is found before rendering, too.
* `Settles`: an outcome whose result has a property and whose error is proper.
* `Settles.bind`, `settles_mapM`, `settles_foldlM_rest`: outcomes in a row.
* `exists_of_mapM_append`, `of_foldlM`: a computation over a list that succeeds, part by part, and
  what its steps keep.
-/

namespace Galley

variable {α β : Type} {source : List Char} {span : Span} {cause : Cause}

/-- An error is **declared** in a text if it is found by reading words or by building the tree, and
all places it refers to lie in the text. -/
def TemplateError.Declared (source : List Char) (e : TemplateError) : Prop :=
  (e.cause.family = .lexical ∨ e.cause.family = .syntactic) ∧
    ∀ label ∈ e.labels, label.span.Within source

namespace Span

/-- A span lies **before** an offset if it starts before it and does not reach beyond it. -/
def Before (s : Span) (offset : Nat) : Prop := s.start < offset ∧ s.stop ≤ offset

theorem Before.mono {s : Span} {m n : Nat} (h : s.Before m) (hle : m ≤ n) : s.Before n :=
  ⟨Nat.lt_of_lt_of_le h.1 hle, Nat.le_trans h.2 hle⟩

/-- Two spans are **apart** if one of them lies before the other. -/
def Apart (first second : Span) : Prop := first.Before second.start ∨ second.Before first.start

theorem Apart.symm {first second : Span} (h : first.Apart second) : second.Apart first := Or.symm h

/-- **A place that is joined from two** stops where the second does if the first starts before it:
its length is no truncated difference. -/
theorem stop_through {first last : Span} (h : first.start ≤ last.start) :
    (first.through last).stop = last.stop := by
  simp only [stop, through]
  omega

theorem within_through {first last : Span} (h : first.start ≤ last.start)
    (hl : last.Within source) : (first.through last).Within source := by
  rw [Within, stop_through h]
  exact hl

end Span

/-- An error is **clear** if all places it refers to are apart. -/
def TemplateError.Clear (e : TemplateError) : Prop :=
  e.labels.Pairwise fun a b => a.span.Apart b.span

namespace Cause

/-- The places that a cause refers to besides the place of the error itself. -/
def otherSpans : Cause → List Span
  | wrongEndTag _ _ s | unknownMember _ _ s | positionalAfterKeyword s | duplicateKeyword _ _ s
  | unpackMismatch _ _ s => [s]
  | failedLookup _ _ place => place.toList
  | _ => []

end Cause

/-- All places of an error. -/
theorem mem_labels {e : TemplateError} {label : Label} (h : label ∈ e.labels) :
    e.span = some label.span ∨ label.span ∈ e.cause.otherSpans := by
  have own {text : String} (hl : label ∈ (e.span.map fun s => Label.mk s text).toList) :
      e.span = some label.span := by
    simp only [Option.mem_toList, Option.map_eq_some_iff] at hl
    obtain ⟨s, hs, rfl⟩ := hl
    exact hs
  unfold TemplateError.labels at h
  dsimp only at h
  split at h
  · next hc => -- a tag that ends nothing
    rcases List.mem_cons.1 h with rfl | h
    · exact .inr (by rw [hc]; exact List.mem_singleton_self _)
    · exact .inl (own h)
  · next hc => -- a member that a library does not have
    rcases List.mem_append.1 h with h | h
    · exact .inl (own h)
    · rw [List.mem_singleton.1 h, hc]
      exact .inr (List.mem_singleton_self _)
  · next hc => -- an argument behind a named one
    rcases List.mem_cons.1 h with rfl | h
    · exact .inr (by rw [hc]; exact List.mem_singleton_self _)
    · exact .inl (own h)
  · next hc => -- an argument that is named twice
    rcases List.mem_cons.1 h with rfl | h
    · exact .inr (by rw [hc]; exact List.mem_singleton_self _)
    · exact .inl (own h)
  · next hc => -- a name that is not found behind a value
    rcases List.mem_append.1 h with h | h
    · simp only [Option.mem_toList, Option.map_eq_some_iff] at h
      obtain ⟨s, hs, rfl⟩ := h
      rw [hc, Cause.otherSpans, hs]
      exact .inr (List.mem_singleton_self _)
    · exact .inl (own h)
  · next hc => -- a value with another number of items than names
    rcases List.mem_append.1 h with h | h
    · exact .inl (own h)
    · rw [List.mem_singleton.1 h, hc]
      exact .inr (List.mem_singleton_self _)
  · exact .inl (own h)

/-- An error is clear if the one place that it may refer to besides its own is apart from this. -/
theorem clear_of_span {place : Option Span}
    (h : ∀ s ∈ cause.otherSpans, ∀ own, place = some own → s.Apart own) :
    TemplateError.Clear ⟨place, cause⟩ := by
  have single {text : String} : ((place.map fun s => Label.mk s text).toList).Pairwise
      fun a b => a.span.Apart b.span := by
    cases place with
    | none => exact .nil
    | some own => exact List.pairwise_singleton _ _
  have apart {s : Span} (hs : s ∈ cause.otherSpans) {text : String} {label : Label}
      (hl : label ∈ (place.map fun own => Label.mk own text).toList) : s.Apart label.span := by
    simp only [Option.mem_toList, Option.map_eq_some_iff] at hl
    obtain ⟨own, hown, rfl⟩ := hl
    exact h s hs own hown
  unfold TemplateError.Clear TemplateError.labels
  dsimp only
  -- the other place stands first or last
  split
  · exact List.pairwise_cons.2 ⟨fun _ => apart List.mem_cons_self, single⟩
  · refine List.pairwise_append.2 ⟨single, List.pairwise_singleton _ _, fun a ha b hb => ?_⟩
    rw [List.mem_singleton.1 hb]
    exact (apart List.mem_cons_self ha).symm
  · exact List.pairwise_cons.2 ⟨fun _ => apart List.mem_cons_self, single⟩
  · exact List.pairwise_cons.2 ⟨fun _ => apart List.mem_cons_self, single⟩
  · next object =>
    cases object with
    | none => exact single
    | some s => exact List.pairwise_cons.2 ⟨fun _ => apart List.mem_cons_self, single⟩
  · refine List.pairwise_append.2 ⟨single, List.pairwise_singleton _ _, fun a ha b hb => ?_⟩
    rw [List.mem_singleton.1 hb]
    exact (apart List.mem_cons_self ha).symm
  · exact single

/-- An error is **located** in a text if all places it refers to lie there and are apart. -/
structure TemplateError.Located (source : List Char) (e : TemplateError) : Prop where
  within : ∀ label ∈ e.labels, label.span.Within source
  clear : e.Clear

theorem located_of_span {place : Option Span}
    (ho : ∀ s ∈ cause.otherSpans, s.Within source ∧ ∀ own, place = some own → s.Apart own)
    (h : ∀ s, place = some s → s.Within source) : TemplateError.Located source ⟨place, cause⟩ where
  within _ hl := (mem_labels hl).elim (h _) fun hs => (ho _ hs).1
  clear := clear_of_span fun s hs => (ho s hs).2

/-- An error at a known place. -/
theorem located_here (h : span.Within source)
    (ho : ∀ s ∈ cause.otherSpans, s.Within source ∧ s.Apart span) :
    TemplateError.Located source (.here cause span) := by
  refine located_of_span (fun s hs => ⟨(ho s hs).1, fun own hown => ?_⟩) fun s hs => ?_
  · cases hown
    exact (ho s hs).2
  · cases hs
    exact h

/-- An error is **proper** for a text if it is found before rendering and located there. -/
structure TemplateError.Proper (source : List Char) (e : TemplateError) : Prop where
  family : e.cause.family = .lexical ∨ e.cause.family = .syntactic
  located : e.Located source

/-- **An outcome settles** if its result has a property or its error is proper. -/
def Settles (source : List Char) (P : α → Prop) : Except TemplateError α → Prop
  | .ok a => P a
  | .error e => e.Proper source

variable {P : α → Prop} {Q : β → Prop} {x : Except TemplateError α}

theorem settles_pure {a : α} (h : P a) : Settles source P (pure a) := h

/-- An error that is found by reading words has one place. -/
theorem settles_lexical (h : span.Within source) (hf : cause.family = .lexical) :
    Settles source P (.error (.here cause span)) := by
  have ho : cause.otherSpans = [] := by
    cases cause <;> first | rfl | cases hf
  refine ⟨.inl hf, located_here h ?_⟩
  rw [ho]
  exact List.forall_mem_nil _

/-- An error that is found by building the tree may have others. -/
theorem settles_syntactic (h : span.Within source) (hf : cause.family = .syntactic)
    (ho : ∀ s ∈ cause.otherSpans, s.Within source ∧ s.Apart span) :
    Settles source P (.error (.here cause span)) := ⟨.inr hf, located_here h ho⟩

theorem Settles.mono {P' : α → Prop} (h : Settles source P x) (hp : ∀ a, P a → P' a) :
    Settles source P' x := by
  cases x with
  | ok a => exact hp a h
  | error e => exact h

/-- **One after the other.** -/
theorem Settles.bind {f : α → Except TemplateError β} (h : Settles source P x)
    (hf : ∀ a, P a → Settles source Q (f a)) : Settles source Q (x >>= f) := by
  cases x with
  | ok a => exact hf a h
  | error e => exact h

/-- One after the other, where the second depends on how the first came about. -/
theorem settles_bind_of_eq {f : α → Except TemplateError β} (h : Settles source P x)
    (hf : ∀ a, P a → x = .ok a → Settles source Q (f a)) : Settles source Q (x >>= f) := by
  cases x with
  | ok a => exact hf a h rfl
  | error e => exact h

theorem Settles.map {f : α → β} (h : Settles source P x) (hf : ∀ a, P a → Q (f a)) :
    Settles source Q (x.map f) := by
  cases x with
  | ok a => exact hf a h
  | error e => exact h

theorem Settles.of_ok {a : α} (h : Settles source P x) (hx : x = .ok a) : P a := by
  subst hx; exact h

theorem Settles.proper {e : TemplateError} (h : Settles source P x) (hx : x = .error e) :
    e.Proper source := by
  subst hx; exact h

theorem Settles.of_error {e : TemplateError} (h : Settles source P x) (hx : x = .error e) :
    e.Declared source := ⟨(h.proper hx).family, (h.proper hx).located.within⟩

theorem settles_mapM {f : α → Except TemplateError β} {items : List α}
    (h : ∀ a ∈ items, Settles source Q (f a)) :
    Settles source (fun made => ∀ b ∈ made, Q b) (items.mapM f) := by
  induction items with
  | nil => exact settles_pure (by simp)
  | cons a rest ih =>
    rw [List.mapM_cons]
    refine (h a List.mem_cons_self).bind fun b hb => ?_
    refine (ih fun a' ha' => h a' (List.mem_cons_of_mem _ ha')).bind fun made hmade => ?_
    exact settles_pure (List.forall_mem_cons.2 ⟨hb, hmade⟩)

/-- **A run over a list** keeps a property of what has been made and of the items that are left. -/
theorem settles_foldlM_rest {P : α → List β → Prop} {f : α → β → Except TemplateError α}
    {items : List β} {a : α} (ha : P a items)
    (h : ∀ a b rest, P a (b :: rest) → Settles source (P · rest) (f a b)) :
    Settles source (P · []) (items.foldlM f a) := by
  induction items generalizing a with
  | nil => exact settles_pure ha
  | cons b rest ih =>
    rw [List.foldlM_cons]
    exact (h a b rest ha).bind fun a' ha' => ih ha'

theorem settles_foldlM {f : α → β → Except TemplateError α} {items : List β} {a : α} (ha : P a)
    (h : ∀ a, ∀ b ∈ items, P a → Settles source P (f a b)) :
    Settles source P (items.foldlM f a) := by
  -- the items that are left are some of the list
  have hrun : Settles source (fun a => P a ∧ ∀ b ∈ ([] : List β), b ∈ items) (items.foldlM f a) := by
    refine settles_foldlM_rest (P := fun a rest => P a ∧ ∀ b ∈ rest, b ∈ items)
      ⟨ha, fun _ hb => hb⟩ fun a b rest ⟨ha, hrest⟩ => ?_
    obtain ⟨hb, hothers⟩ := List.forall_mem_cons.1 hrest
    exact (h a b hb ha).mono fun _ hmade => ⟨hmade, hothers⟩
  exact hrun.mono fun _ hmade => hmade.1

/-! ## Computations and lookups that succeed -/

theorem bind_eq_ok {ε : Type} {x : Except ε α} {f : α → Except ε β} {b : β} :
    x >>= f = .ok b ↔ ∃ a, x = .ok a ∧ f a = .ok b := by
  cases x <;> simp [bind, Except.bind]

theorem map_eq_ok {ε : Type} {x : Except ε α} {f : α → β} {b : β} (h : x.map f = .ok b) :
    ∃ a, x = .ok a ∧ f a = b := by
  cases x with
  | error e => cases h
  | ok a =>
    cases h
    exact ⟨a, rfl, rfl⟩

/-- A run whose first step succeeds goes on from there. -/
theorem foldlM_cons_of_ok {ε : Type} {f : α → β → Except ε α} {a a' : α} {b : β} {rest : List β}
    (h : f a b = .ok a') : (b :: rest).foldlM f a = rest.foldlM f a' := by
  rw [List.foldlM_cons, h]
  rfl

theorem exists_of_mapM_cons {ε : Type} {f : α → Except ε β} {items : List α} {b : β}
    {rest : List β} (h : items.mapM f = .ok (b :: rest)) :
    ∃ a others, items = a :: others ∧ f a = .ok b ∧ others.mapM f = .ok rest := by
  cases items with
  | nil => cases h
  | cons a others =>
    rw [List.mapM_cons, bind_eq_ok] at h
    obtain ⟨b', hb, h⟩ := h
    rw [bind_eq_ok] at h
    obtain ⟨rest', hrest, h⟩ := h
    cases h
    exact ⟨a, others, rfl, hb, hrest⟩

theorem eq_nil_of_mapM_nil {ε : Type} {f : α → Except ε β} {items : List α}
    (h : items.mapM f = .ok []) : items = [] := by
  cases items with
  | nil => rfl
  | cons a others =>
    rw [List.mapM_cons, bind_eq_ok] at h
    obtain ⟨b, -, h⟩ := h
    rw [bind_eq_ok] at h
    obtain ⟨rest, -, h⟩ := h
    cases h

theorem exists_of_mapM_append {ε : Type} {f : α → Except ε β} {items : List α}
    {first last : List β} (h : items.mapM f = .ok (first ++ last)) :
    ∃ before behind, items = before ++ behind ∧ before.mapM f = .ok first ∧
      behind.mapM f = .ok last := by
  induction first generalizing items with
  | nil => exact ⟨[], items, rfl, rfl, h⟩
  | cons b rest ih =>
    obtain ⟨a, others, rfl, ha, hothers⟩ := exists_of_mapM_cons h
    obtain ⟨before, behind, rfl, hbefore, hbehind⟩ := ih hothers
    refine ⟨a :: before, behind, rfl, ?_, hbehind⟩
    rw [List.mapM_cons, ha, hbefore]
    rfl

/-- What is made of a list is made of its items. -/
theorem exists_of_mem_mapM {ε : Type} {f : α → Except ε β} {items : List α} {made : List β} {b : β}
    (h : items.mapM f = .ok made) (hb : b ∈ made) : ∃ a ∈ items, f a = .ok b := by
  obtain ⟨before, behind, rfl⟩ := List.append_of_mem hb
  obtain ⟨_, others, rfl, -, hothers⟩ := exists_of_mapM_append h
  obtain ⟨a, _, rfl, ha, -⟩ := exists_of_mapM_cons hothers
  exact ⟨a, by simp, ha⟩

/-- Each item of a list is made into something. -/
theorem exists_of_mem_of_mapM {ε : Type} {f : α → Except ε β} {items : List α} {made : List β} {a : α}
    (h : items.mapM f = .ok made) (ha : a ∈ items) : ∃ b ∈ made, f a = .ok b := by
  induction items generalizing made with
  | nil => cases ha
  | cons first rest ih =>
    rw [List.mapM_cons, bind_eq_ok] at h
    obtain ⟨b, hb, h⟩ := h
    obtain ⟨others, hothers, h⟩ := bind_eq_ok.1 h
    cases h
    rcases List.mem_cons.1 ha with rfl | ha
    · exact ⟨b, List.mem_cons_self, hb⟩
    · exact (ih hothers ha).imp fun _ hb' => ⟨List.mem_cons_of_mem _ hb'.1, hb'.2⟩

/-- What each step of a run keeps, the run keeps. -/
theorem of_foldlM {ε : Type} {P : β → Prop} {f : β → α → Except ε β} {items : List α} {b b' : β}
    (hstep : ∀ b a b', P b → f b a = .ok b' → P b') (hb : P b) (h : items.foldlM f b = .ok b') :
    P b' := by
  induction items generalizing b with
  | nil =>
    cases h
    exact hb
  | cons a rest ih =>
    rw [List.foldlM_cons, bind_eq_ok] at h
    obtain ⟨next, hnext, h⟩ := h
    exact ih (hstep b a next hb hnext) h

/-- A part that each step hands on is the same in what is made. -/
theorem map_eq_of_mapM {ε γ : Type} {f : α → Except ε β} {g : α → γ} {g' : β → γ} {items : List α}
    {made : List β} (h : items.mapM f = .ok made) (hf : ∀ a b, f a = .ok b → g' b = g a) :
    made.map g' = items.map g := by
  induction made generalizing items with
  | nil =>
    obtain rfl := eq_nil_of_mapM_nil h
    rfl
  | cons b rest ih =>
    obtain ⟨a, others, rfl, ha, hothers⟩ := exists_of_mapM_cons h
    rw [List.map_cons, List.map_cons, hf a b ha, ih hothers]

theorem isSome_lookup {name : String} {entries : List (String × α)} :
    (entries.lookup name).isSome = (entries.map (·.1)).contains name := by
  rw [Bool.eq_iff_iff, List.lookup_isSome_iff, List.contains_iff_mem, List.mem_map]
  simp only [beq_iff_eq, @eq_comm _ name]

theorem isNone_lookup {name : String} {entries : List (String × α)} :
    (entries.lookup name).isNone = !(entries.map (·.1)).contains name := by
  rw [← isSome_lookup, Option.not_isSome]

theorem mem_of_lookup_eq_some {name : String} {a : α} {entries : List (String × α)}
    (h : entries.lookup name = some a) : (name, a) ∈ entries := by
  obtain ⟨before, behind, rfl, -⟩ := List.lookup_eq_some_iff.1 h
  exact List.mem_append_right _ List.mem_cons_self

end Galley
