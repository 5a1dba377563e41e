import Galley.Proofs.Faults
import Galley.Proofs.Recovery
import Galley.Proofs.Strictness

/-!
# Where a lookup breaks off

A strict lookup that finds no member reports two places: the name that it was looking for, and what
stands before the dot of this name. They are counted while the names are followed, from the start of the
path and past each name that led to a value, which may have been called on the way.

* `Span.LeadsTo`, `points_of_dotted`: a name and the part of a dotted path before it.
* `Atom.BreaksOff`: what such an error says, and what stands at its places.
* `Atom.exists_breaksOff`: an atom that was read from a text reports so.
* `Expression.LooksUp`, `Expression.exists_looksUp`: the atoms that an expression looks up, each in the
  scope that was left before it, and that it reports no missing member but theirs.
* `breaksOff_compile`: **in a compiled template an error of a missing member points at its name, and at
  the part of the path before it that leads to the value that it shows.**
-/

namespace Galley

open Rendering

variable {source : List Char} {span : Span} {root name : String} {before after : List String}
  {a p : Atom} {w : Value} {s t : Scope} {strictness : Strictness}

/-! ## Parts of dotted paths -/

theorem dotted_append_cons (root name : String) (before after : List String) :
    dotted root (before ++ name :: after) = dotted root before ++ '.' :: dotted name after := by
  induction before generalizing root with
  | nil => rfl
  | cons other before ih =>
    rw [List.cons_append, dotted, ih, dotted, List.append_assoc, List.cons_append]

theorem length_dotted (root : String) (names : List String) :
    (dotted root names).length = root.length + namesLength names := by
  induction names generalizing root with
  | nil => exact String.length_toList
  | cons name rest ih =>
    rw [dotted, List.length_append, List.length_cons, ih, String.length_toList, namesLength_cons]
    omega

theorem exists_dotted_eq (name : String) (after : List String) :
    ∃ rest, dotted name after = name.toList ++ rest := by
  cases after with
  | nil => exact ⟨[], (List.append_nil _).symm⟩
  | cons other after => exact ⟨_, rfl⟩

theorem namesLength_append (names others : List String) :
    namesLength (names ++ others) = namesLength names + namesLength others := by
  induction names with
  | nil => exact (Nat.zero_add _).symm
  | cons name rest ih =>
    rw [List.cons_append, namesLength_cons, ih, namesLength_cons]
    omega

/-- The steps to outer loops and the counter belong to the part of the path that names a loop. -/
theorem length_loopNames (parents : Nat) (counter : Option LoopCounter) (names : List String) :
    "forloop".length + namesLength
      (List.replicate parents "parentloop" ++ ((counter.map LoopCounter.word).toList ++ names)) =
      loopPathLength parents counter + namesLength names := by
  have hparents (n : Nat) :
      namesLength (List.replicate n "parentloop") = ".parentloop".length * n := by
    induction n with
    | zero => rfl
    | succ n ih =>
      rw [List.replicate_succ, namesLength_cons, ih, Nat.mul_succ, Nat.add_comm]
      rfl
  rw [namesLength_append, namesLength_append, hparents]
  cases counter with
  | none =>
    simp only [loopPathLength, Option.map_none, Option.toList_none, namesLength]
    omega
  | some c =>
    simp only [loopPathLength, Option.map_some, Option.toList_some, namesLength]
    omega

/-- A place **leads to** a name: exactly one dot stands between them. -/
structure Span.LeadsTo (span : Span) (name : String) (source : List Char) : Prop where
  dot : source[span.stop]? = some '.'
  key : Span.slice ⟨span.stop + 1, name.length⟩ source = name.toList

/-- **A part of a dotted path** stands where the path starts, and leads to the name behind it. -/
theorem points_of_dotted (h : span.slice source = dotted root (before ++ name :: after)) :
    Span.slice ⟨span.start, root.length + namesLength before⟩ source = dotted root before ∧
      Span.LeadsTo ⟨span.start, root.length + namesLength before⟩ name source := by
  obtain ⟨rest, hrest⟩ := exists_dotted_eq name after
  rw [dotted_append_cons, hrest] at h
  rw [← length_dotted]
  -- the whole path has room for the part, the dot and the name
  have hroom : (dotted root before).length + (1 + name.length) ≤ span.length := by
    have hlength := congrArg List.length h
    have hle : (span.slice source).length ≤ span.length := List.length_take_le _ _
    simp only [List.length_append, List.length_cons, String.length_toList] at hlength
    omega
  refine ⟨?_, ?_, ?_⟩
  · have hinner : Span.slice ⟨span.start + 0, (dotted root before).length⟩ source =
        ((span.slice source).drop 0).take (dotted root before).length := slice_inner (by omega)
    rw [Nat.add_zero, List.drop_zero, h, List.take_left] at hinner
    exact hinner
  · have hdot : (span.slice source)[(dotted root before).length]? = some '.' := by
      rw [h, List.getElem?_append_right (Nat.le_refl _), Nat.sub_self, List.getElem?_cons_zero]
    rw [Span.slice, List.getElem?_take_of_lt (by omega), List.getElem?_drop] at hdot
    exact hdot
  · have hinner : Span.slice ⟨span.start + ((dotted root before).length + 1), name.length⟩ source =
        ((span.slice source).drop ((dotted root before).length + 1)).take name.length :=
      slice_inner (by omega)
    rw [h, ← List.drop_drop, List.drop_left, List.drop_one, List.tail_cons,
      List.take_left' String.length_toList] at hinner
    exact hinner

/-- **What stands before a name** of a path stands at its place, and leads to this name. -/
theorem Atom.StandsBefore.points (h : p.StandsBefore name a) (ha : a.Recovers source) :
    p.Recovers source ∧ p.span.LeadsTo name source := by
  cases h with
  | path => exact points_of_dotted ha
  | @loop span parents counter before after =>
    have hpath : span.slice source = dotted "forloop"
        ((List.replicate parents "parentloop" ++ ((counter.map LoopCounter.word).toList ++ before)) ++
          name :: after) := by
      rw [List.append_assoc, List.append_assoc]
      exact ha
    have hpoints := points_of_dotted hpath
    rw [length_loopNames] at hpoints
    exact hpoints

/-! ## What an error of a missing member says -/

/-- **A lookup breaks off** with an error: behind a part of the path, at the next name.

The place of the object is that of the part, and what was written there; then come a dot and the name,
which stands at the place of the key. The part by itself leads to a value without a member of this name,
and the error shows this value. -/
structure Atom.BreaksOff (a : Atom) (source : List Char) (s : Scope) (error : TemplateError)
    (p : Atom) (name : String) (w : Value) : Prop where
  part : p.StandsBefore name a
  object : p.Recovers source
  key : p.span.LeadsTo name source
  value : ((p.resolve .strict).run.run s).1 = .ok (some w)
  absent : w.member name = .absent
  error_eq : ∃ shown, w.repr = .ok shown ∧
    error = .here (.failedLookup name shown (some p.span)) ⟨p.span.stop + 1, name.length⟩

/-- A lookup stops where there is no member. -/
theorem Atom.StopsAt.absent (h : a.StopsAt s w name) : w.member name = .absent := by
  cases h with
  | path _ habsent | loop _ habsent => exact habsent

/-- An error of a missing member shows the value. -/
theorem exists_of_lookupError {start offset : Nat} {error : TemplateError}
    (h : lookupError name w start offset = .template error) :
    ∃ shown, w.repr = .ok shown ∧
      error = .here (.failedLookup name shown (some ⟨start, offset⟩))
        ⟨start + offset + 1, name.length⟩ := by
  unfold lookupError at h
  split at h
  · next shown hshown =>
    cases h
    exact ⟨shown, hshown, rfl⟩
  · cases h

/-- **An atom that was read from a text** reports a missing member where its lookup breaks off. -/
theorem Atom.exists_breaksOff {error : TemplateError} (ha : a.Recovers source)
    (h : ((a.resolve .strict).run.run s).1 = .error (.template error)) :
    ∃ p name w, a.BreaksOff source s error p name w := by
  rcases a.run_resolve_strict s with heq | ⟨w, name, hstops⟩
  · -- what both policies raise comes from the application
    rw [heq] at h
    obtain ⟨e, he⟩ := a.hostOnly_resolve s _ h
    cases he
  · obtain ⟨p, s', hpart, hvalue, hstrict, -⟩ := hstops.exists_standsBefore
    obtain ⟨hobject, hkey⟩ := hpart.points ha
    rw [hstrict] at h
    exact ⟨p, name, w, hpart, hobject, hkey, by rw [hvalue], hstops.absent,
      exists_of_lookupError (Except.error.inj h)⟩

/-! ## What an expression looks up -/

/-- **An expression looks up** an atom in a scope: its head in the one that it starts from, and the
argument of a filter in the one that is left when the filters before have been applied. -/
inductive Expression.LooksUp (e : Expression) (strictness : Strictness) (s : Scope) :
    Atom → Scope → Prop
  | head : LooksUp e strictness s e.head s
  | argument {before after : List FilterUse} {use : FilterUse} {a : Atom} {found : Option Value}
    {t : Scope} (hfilters : e.filters = before ++ use :: after) (ha : use.argument = some a)
    (hbefore : ((⟨e.head, before⟩ : Expression).resolve strictness).run.run s = (.ok found, t)) :
    LooksUp e strictness s a t

/-- What it looks up belongs to it. -/
theorem Expression.LooksUp.mem_atoms {e : Expression} (h : e.LooksUp strictness s a t) :
    a ∈ e.atoms := by
  cases h with
  | head => exact List.mem_cons_self
  | @argument before after use _ _ _ hfilters ha _ =>
    have huse : use ∈ e.filters := by
      rw [hfilters]
      exact List.mem_append_right _ List.mem_cons_self
    exact List.mem_cons_of_mem _ (List.mem_filterMap.2 ⟨use, huse, ha⟩)

/-- No filter reports a missing member of its own. -/
theorem Fault.OfFilter.not_isFailedLookup {f : Fault} (h : f.OfFilter a) : ¬f.IsFailedLookup := by
  rintro ⟨⟩
  cases h

/-- An argument that has to exist is reported missing under another name. -/
theorem Atom.resolve_of_failedLookup {f : Fault} (hf : f.IsFailedLookup)
    (h : (a.resolvePresent.run.run s).1 = .error f) :
    ((a.resolve .strict).run.run s).1 = .error f := by
  unfold resolvePresent at h
  rw [run_bind] at h
  rcases hrun : (a.resolve .strict).run.run s with ⟨fault | _ | v, s'⟩
  · rw [hrun] at h
    cases h
    rfl
  · rw [hrun] at h
    dsimp only at h
    rw [run_bind, run_get] at h
    dsimp only at h
    rw [run_bind] at h
    cases hf
    rcases hshown : s'.refreshed.toValue.repr with e | shown
    · rw [hshown] at h
      cases h
    · rw [hshown] at h
      cases h
  · rw [hrun] at h
    cases h

/-- **A filter in use** reports a missing member of its argument only. -/
theorem FilterUse.exists_of_failedLookup {use : FilterUse} {v : Option Value} {f : Fault}
    (hf : f.IsFailedLookup) (h : ((use.apply v).run.run s).1 = .error f) :
    ∃ a, use.argument = some a ∧ ((a.resolve .strict).run.run s).1 = .error f := by
  unfold apply at h
  rw [run_bind] at h
  rcases hgiven : (use.given v).run.run s with ⟨fault | given, s'⟩
  · rw [hgiven] at h
    cases h
    have hpresent (a : Atom)
        (h : (do return some ⟨a, ← a.resolvePresent⟩ : Rendering (Option Argument)).run.run s =
          (.error f, s')) : ((a.resolve .strict).run.run s).1 = .error f := by
      rw [run_bind] at h
      refine Atom.resolve_of_failedLookup hf ?_
      rcases hrun : a.resolvePresent.run.run s with ⟨fault | v, s''⟩
      · rw [hrun] at h
        cases h
        rfl
      · rw [hrun] at h
        cases h
    unfold given at hgiven
    split at hgiven
    · cases hgiven
    · next a _ ha _ =>
      split at hgiven
      · exact ⟨a, ha, hpresent a hgiven⟩
      · cases hgiven
    · next a _ _ ha _ => exact ⟨a, ha, hpresent a hgiven⟩
  · -- its own faults are others
    exfalso
    rw [hgiven] at h
    dsimp only at h
    have hcurrent : (v.mapM current).run.run s' = (.ok (v.map s'.current), s') := by
      cases v <;> rfl
    rw [run_bind, hcurrent] at h
    dsimp only at h
    split at h
    · next b _ =>
      rw [run_ofExcept] at h
      exact (b.refusesAt_apply given (v.map s'.current) f h).not_isFailedLookup hf
    · next function _ =>
      rw [run_bind, run_get] at h
      dsimp only at h
      rw [run_bind, run_ofExcept] at h
      rcases happlied : applyLoaded function given (v.map s'.current) s' with fault | result
      · rw [happlied] at h
        cases h
        have hown := refusesAt_applyLoaded (a := .text ⟨0, 0⟩ "") function given _ s' f happlied
        exact hown.not_isFailedLookup hf
      · rw [happlied] at h
        dsimp only at h
        cases result <;> cases h

/-- So do filters in a row, in the scope that is left by those before. -/
theorem FilterUse.exists_of_foldlM {uses : List FilterUse} {v : Option Value} {f : Fault}
    (hf : f.IsFailedLookup)
    (h : ((uses.foldlM (fun v use => FilterUse.apply use v) v).run.run s).1 = .error f) :
    ∃ before use after a found t, uses = before ++ use :: after ∧ use.argument = some a ∧
      (before.foldlM (fun v use => FilterUse.apply use v) v).run.run s = (.ok found, t) ∧
      ((a.resolve .strict).run.run t).1 = .error f := by
  induction uses generalizing v s with
  | nil => cases h
  | cons use rest ih =>
    rw [List.foldlM_cons, run_bind] at h
    rcases happlied : (use.apply v).run.run s with ⟨fault | next, s'⟩
    · rw [happlied] at h
      cases h
      obtain ⟨a, ha, hresolve⟩ := exists_of_failedLookup hf (congrArg Prod.fst happlied)
      exact ⟨[], use, rest, a, v, s, rfl, ha, rfl, hresolve⟩
    · rw [happlied] at h
      obtain ⟨before, later, after, a, found, t, hrest, ha, hbefore, hresolve⟩ := ih h
      refine ⟨use :: before, later, after, a, found, t, by rw [hrest]; rfl, ha, ?_, hresolve⟩
      rw [List.foldlM_cons, run_bind, happlied]
      exact hbefore

/-- **What an expression reports missing** is missing behind an atom that it looks up. -/
theorem Expression.exists_looksUp {e : Expression} {f : Fault} (hf : f.IsFailedLookup)
    (h : ((e.resolve strictness).run.run s).1 = .error f) :
    ∃ a t, e.LooksUp strictness s a t ∧ ((a.resolve .strict).run.run t).1 = .error f := by
  unfold resolve at h
  rw [run_bind] at h
  rcases hhead : (e.head.resolve strictness).run.run s with ⟨fault | v, s'⟩
  · rw [hhead] at h
    cases h
    refine ⟨e.head, s, .head, ?_⟩
    cases strictness with
    | strict => rw [hhead]
    | lenient =>
      obtain ⟨e', rfl⟩ := e.head.hostOnly_resolve s f (congrArg Prod.fst hhead)
      cases hf
  · rw [hhead] at h
    obtain ⟨before, use, after, a, found, t, hfilters, ha, hbefore, hresolve⟩ :=
      FilterUse.exists_of_foldlM hf h
    have hfound : ((⟨e.head, before⟩ : Expression).resolve strictness).run.run s = (.ok found, t) := by
      unfold resolve
      rw [run_bind, hhead]
      exact hbefore
    exact ⟨a, t, .argument hfilters ha hfound, hresolve⟩

/-! ## Templates -/

/-- What stands at the places of an expression stands at those of its atoms. -/
theorem Expression.Recovers.of_mem_atoms {e : Expression} (h : e.Recovers source)
    (ha : a ∈ e.atoms) : a.Recovers source := by
  rcases List.mem_cons.1 ha with rfl | ha
  · exact h.head
  · obtain ⟨use, huse, hargument⟩ := List.mem_filterMap.1 ha
    exact (h.filters use huse).argument a hargument

/-- **Errors of missing members point at the right words.** Whenever resolving an expression of a
compiled template reports a missing member, the expression has looked up one of its atoms, and this
lookup broke off with the error that is reported. -/
theorem breaksOff_compile {libraries : List (String × Library)} {nodes : List Node}
    (h : compile source libraries = .ok nodes) :
    AllHold (fun _ e => ∀ strictness s error,
      ((e.resolve strictness).run.run s).1 = .error (.template error) →
      (Fault.template error).IsFailedLookup →
      ∃ a t, e.LooksUp strictness s a t ∧ ∃ p name w, a.BreaksOff source t error p name w)
      [] nodes := by
  refine allHold_of_finds (fun c t e hreached he strictness s error herror hf => ?_) h
  obtain rfl := hreached.sound.source_eq
  obtain ⟨before, after, hscan, -⟩ := hreached
  have ht : t.StandsIn c.source := Token.standsIn_of_mem_scan (by rw [hscan]; simp)
  obtain ⟨a, t', hlooks, hresolve⟩ := Expression.exists_looksUp hf herror
  have ha : a.Recovers c.source := (he.recovers ht).of_mem_atoms hlooks.mem_atoms
  exact ⟨a, t', hlooks, a.exists_breaksOff ha hresolve⟩

/-- A counter of a loop has no members: the object is the path up to the counter, and its value. -/
theorem breaksOff_compile_counter :
    let source := "{% for x in b %}{% for y in forloop.first.z %}{% endfor %}{% endfor %}".toList
    let e : Expression := ⟨.loop ⟨28, 15⟩ 0 (some .first) ["z"], []⟩
    let inner : Node := .loop ⟨16, 30⟩ ⟨["y"], ⟨23, 1⟩, e, false⟩ [] []
    let outer : LoopHeader := ⟨["x"], ⟨7, 1⟩, ⟨.path ⟨12, 1⟩ "b" [], []⟩, false⟩
    let s := { Scope.create none true none with loops := [⟨0, 1⟩] }
    let error : TemplateError := .here (.failedLookup "z" "True" (some ⟨28, 13⟩)) ⟨42, 1⟩
    compile source [] = .ok [.loop ⟨0, 16⟩ outer [inner] []] ∧
      ((e.resolve .strict).run.run s).1 = .error (.template error) ∧
      ∃ a t, e.LooksUp .strict s a t ∧ ∃ p name w, a.BreaksOff source t error p name w := by
  intro source e inner outer s error
  have hscan : Token.scan source =
      [⟨.tag, ⟨0, 16⟩⟩, ⟨.tag, ⟨16, 30⟩⟩, ⟨.tag, ⟨46, 12⟩⟩, ⟨.tag, ⟨58, 12⟩⟩] := by decide +kernel
  have hnodes : compile source [] = .ok [.loop ⟨0, 16⟩ outer [inner] []] := by
    rw [compile, hscan]
    dsimp only [source]
    cbv
  have herror : ((e.resolve .strict).run.run s).1 = .error (.template error) := by
    dsimp only [e, s, error]
    cbv
  have hinner : inner.Holds _ [(⟨0, 16⟩, outer)] := (breaksOff_compile hnodes).1.2.1.1
  exact ⟨hnodes, herror, hinner.1 .strict s error herror .mk⟩

end Galley
