import Galley.Proofs.Effects
import Galley.Proofs.Printed

/-!
# Where an expression stands

The place of an expression in the text is told in its faults, and nothing else depends on it. Nor does it
matter whether a text is to be translated that is its own translation.

* `Fault.unplaced`: a fault without the places in it.
* `Rendering.Likewise`: two computations that come to the same but for the places in faults.
* `Atom.Likewise`, `Expression.Likewise`: atoms and expressions that say the same.
* `Atom.likewise_resolve`, `FilterUse.likewise_apply`: what is made of them.
* `Expression.likewise_resolve`: **expressions that say the same have the same value.**
-/

namespace Galley

variable {α β : Type}

/-! ## Faults without places -/

/-- A cause without the places that it refers to. -/
def Cause.unplaced : Cause → Cause
  | .wrongEndTag name expected _ => .wrongEndTag name expected default
  | .unknownMember name library _ => .unknownMember name library default
  | .positionalAfterKeyword _ => .positionalAfterKeyword default
  | .duplicateKeyword name keyword _ => .duplicateKeyword name keyword default
  | .failedLookup key object _ => .failedLookup key object none
  | .unpackMismatch expected actual _ => .unpackMismatch expected actual default
  | cause => cause

/-- **A fault without the places in it.** -/
def Fault.unplaced : Fault → Fault
  | .template e => .template ⟨none, e.cause.unplaced⟩
  | .host e => .host e

/-- Two outcomes that are the same but for the places in faults. -/
def SameOutcome (x y : Except Fault α) : Prop := x.mapError Fault.unplaced = y.mapError Fault.unplaced

namespace SameOutcome

variable {x y : Except Fault α}

theorem refl (x : Except Fault α) : SameOutcome x x := rfl

theorem cases (h : SameOutcome x y) : (∃ a, x = .ok a ∧ y = .ok a) ∨
    ∃ f f', x = .error f ∧ y = .error f' ∧ f.unplaced = f'.unplaced := by
  cases x with
  | ok a =>
    cases y with
    | ok b => cases h; exact .inl ⟨a, rfl, rfl⟩
    | error f' => cases h
  | error f =>
    cases y with
    | ok b => cases h
    | error f' => exact .inr ⟨f, f', rfl, rfl, Except.error.inj h⟩

theorem error {f f' : Fault} (h : f.unplaced = f'.unplaced) :
    SameOutcome (.error f : Except Fault α) (.error f') := congrArg Except.error h

theorem here (cause : Cause) (span span' : Span) :
    SameOutcome (.error (.template (.here cause span)) : Except Fault α)
      (.error (.template (.here cause span'))) := rfl

theorem bind {f g : α → Except Fault β} (h : SameOutcome x y) (hf : ∀ a, SameOutcome (f a) (g a)) :
    SameOutcome (x >>= f) (y >>= g) := by
  obtain ⟨a, rfl, rfl⟩ | ⟨e, e', rfl, rfl, he⟩ := h.cases
  · exact hf a
  · exact error he

end SameOutcome

namespace Rendering

/-- **Two computations that come to the same** but for the places in faults, and leave the same scope. -/
def Likewise (x y : Rendering α) : Prop :=
  ∀ s, SameOutcome (x.run.run s).1 (y.run.run s).1 ∧ (x.run.run s).2 = (y.run.run s).2

theorem likewise_refl (x : Rendering α) : Likewise x x := fun _ => ⟨rfl, rfl⟩

theorem likewise_throw {f f' : Fault} (h : f.unplaced = f'.unplaced) :
    Likewise (throw f : Rendering α) (throw f') := fun _ => ⟨.error h, rfl⟩

theorem likewise_fail (cause : Cause) (span span' : Span) :
    Likewise (fail cause span : Rendering α) (fail cause span') := likewise_throw rfl

theorem likewise_ofExcept {x y : Except Fault α} (h : SameOutcome x y) :
    Likewise (ofExcept x) (ofExcept y) := by
  intro s
  rw [run_ofExcept, run_ofExcept]
  exact ⟨h, rfl⟩

/-- **One after the other.** -/
theorem Likewise.bind {x y : Rendering α} {f g : α → Rendering β} (h : Likewise x y)
    (hf : ∀ a, Likewise (f a) (g a)) : Likewise (x >>= f) (y >>= g) := by
  intro s
  obtain ⟨houtcome, hscope⟩ := h s
  rw [run_bind, run_bind]
  cases hx : x.run.run s with
  | mk outcome s' =>
    cases hy : y.run.run s with
    | mk outcome' s'' =>
      rw [hx, hy] at houtcome hscope
      obtain rfl : s' = s'' := hscope
      obtain ⟨a, rfl, rfl⟩ | ⟨e, e', rfl, rfl, he⟩ := houtcome.cases
      · exact hf a s'
      · exact ⟨.error he, rfl⟩

theorem likewise_bind_left (x : Rendering α) {f g : α → Rendering β} (hf : ∀ a, Likewise (f a) (g a)) :
    Likewise (x >>= f) (x >>= g) := (likewise_refl x).bind hf

end Rendering

open Rendering

/-! ## Atoms -/

theorem unplaced_lookupError (name : String) (v : Value) (start offset start' offset' : Nat) :
    (lookupError name v start offset).unplaced = (lookupError name v start' offset').unplaced := by
  unfold lookupError
  cases v.repr <;> rfl

theorem Value.likewise_dot (strictness : Strictness) (v : Value) (name : String)
    (start offset start' offset' : Nat) :
    Likewise (v.dot strictness name start offset) (v.dot strictness name start' offset') := by
  unfold Value.dot
  cases v.member name with
  | found w => exact likewise_refl _
  | failed e => exact likewise_refl _
  | absent =>
    cases strictness with
    | strict => exact likewise_throw (unplaced_lookupError name v start offset start' offset')
    | lenient => exact likewise_refl _

/-- Names lead to the same wherever they stand. -/
theorem Value.likewise_follow (strictness : Strictness) (v : Value) (names : List String)
    (start offset start' offset' : Nat) :
    Likewise (v.follow strictness start offset names) (v.follow strictness start' offset' names) := by
  induction names generalizing v offset offset' with
  | nil => exact likewise_refl _
  | cons name names ih =>
    refine (v.likewise_dot strictness name start offset start' offset').bind fun next => ?_
    cases next with
    | some w => exact ih w _ _
    | none => exact likewise_refl _

/-- **Two atoms that say the same**: they differ in their places at most, or one of them is to be
translated and is its own translation. -/
inductive Atom.Likewise : Atom → Atom → Prop
  | same {a b : Atom} (h : a.unplaced = b.unplaced) : Likewise a b
  | translated (span span' : Span) {s : String} (h : translate s = s) :
    Likewise (.text span s) (.translated span' s)

namespace Atom

variable {a b : Atom}

/-- **An atom has one value** wherever it stands. -/
theorem likewise_resolve (h : a.Likewise b) (strictness : Strictness) :
    Rendering.Likewise (a.resolve strictness) (b.resolve strictness) := by
  cases h with
  | translated span span' h =>
    unfold resolve
    dsimp only
    rw [h]
    exact likewise_refl _
  | same h =>
    cases a with
    | int span n => cases b <;> cases h; exact likewise_refl _
    | float span x => cases b <;> cases h; exact likewise_refl _
    | text span s => cases b <;> cases h; exact likewise_refl _
    | translated span s => cases b <;> cases h; exact likewise_refl _
    | path span root names =>
      cases b <;> cases h
      unfold resolve
      refine likewise_bind_left get fun s => ?_
      cases s.get? (.str root) with
      | none => exact likewise_refl _
      | some v =>
        refine likewise_bind_left _ fun v => likewise_bind_left _ fun called => ?_
        cases called with
        | none => exact likewise_refl _
        | some w => exact likewise_bind_left _ fun w => w.likewise_follow _ _ _ _ _ _
    | loop span parents counter names =>
      cases b <;> cases h
      unfold resolve
      refine likewise_bind_left get fun s => likewise_bind_left _ fun v => ?_
      cases v with
      | none => exact likewise_refl _
      | some v => exact v.likewise_follow _ _ _ _ _ _

theorem Likewise.isText_eq (h : a.Likewise b) : a.isText = b.isText := by
  cases h with
  | translated span span' h => rfl
  | same h => cases a <;> cases b <;> cases h <;> rfl

theorem Likewise.rootName_eq (h : a.Likewise b) : a.rootName = b.rootName := by
  cases h with
  | translated span span' h => rfl
  | same h => cases a <;> cases b <;> cases h <;> rfl

theorem likewise_resolvePresent (h : a.Likewise b) :
    Rendering.Likewise a.resolvePresent b.resolvePresent := by
  refine (likewise_resolve h .strict).bind fun v => ?_
  cases v with
  | some v => exact likewise_refl _
  | none =>
    refine likewise_bind_left _ fun _ => likewise_bind_left _ fun shown => ?_
    rw [h.rootName_eq]
    exact likewise_fail _ _ _

end Atom

/-! ## Filters -/

/-- Two arguments that say the same, with one value. -/
structure Argument.Likewise (x y : Argument) : Prop where
  atom : x.atom.Likewise y.atom
  value : x.value = y.value

/-- **A width** does not depend on where the argument stands. -/
theorem Value.sameOutcome_toWidth {a b : Atom} (h : a.Likewise b) (v : Value) :
    SameOutcome (v.toWidth a) (v.toWidth b) := by
  have hbounded (n : Int) : SameOutcome
      (if Integer.fitsWord n then .ok n
        else if Integer.hasText n then .error (.template (.here (.integerOverflow n) a.span))
        else .error (.host .tooManyDigits) : Except Fault Int)
      (if Integer.fitsWord n then .ok n
        else if Integer.hasText n then .error (.template (.here (.integerOverflow n) b.span))
        else .error (.host .tooManyDigits)) := by
    split
    · exact .refl _
    · split
      · exact .here _ _ _
      · exact .refl _
  unfold toWidth
  dsimp only
  split
  · exact .refl _
  · exact hbounded _
  · exact .here _ _ _
  · split
    · exact hbounded _
    · exact .here _ _ _
  · rw [h.isText_eq]
    split
    · exact hbounded _
    · split
      · exact .here _ _ _
      · exact .refl _

/-- Arguments that may be missing. -/
inductive SameArgument : Option Argument → Option Argument → Prop
  | none : SameArgument none none
  | some {x y : Argument} (h : x.Likewise y) : SameArgument (some x) (some y)

theorem BuiltinFilter.sameOutcome_apply (f : BuiltinFilter) {x y : Option Argument}
    (h : SameArgument x y) (v : Option Value) : SameOutcome (f.apply x v) (f.apply y v) := by
  cases h with
  | none => exact .refl _
  | @some x y h =>
    obtain ⟨a, w⟩ := x
    obtain ⟨b, w'⟩ := y
    obtain ⟨hatom, rfl⟩ : a.Likewise b ∧ w = w' := ⟨h.atom, h.value⟩
    cases f with
    | center => exact (w.sameOutcome_toWidth hatom).bind fun width => .refl _
    | wordwrap => exact (w.sameOutcome_toWidth hatom).bind fun width => .refl _
    | _ => exact .refl _

theorem applyLoaded_eq (f : Function) {x y : Option Argument} (h : SameArgument x y) (v : Option Value)
    (s : Scope) : applyLoaded f x v s = applyLoaded f y v s := by
  cases h with
  | none => rfl
  | some h =>
    unfold applyLoaded
    rw [Option.map_some, Option.map_some, h.value]

/-- **Two filters in use that say the same.** -/
structure FilterUse.Likewise (u w : FilterUse) : Prop where
  filter : u.filter = w.filter
  argument : Option.Rel Atom.Likewise u.argument w.argument

namespace FilterUse

variable {u w : FilterUse}

/-- What is given as an argument, and what is given in the other one. -/
theorem likewise_given (h : u.Likewise w) (v : Option Value) {f g : Option Argument → Rendering α}
    (hf : ∀ x y, SameArgument x y → Rendering.Likewise (f x) (g y)) :
    Rendering.Likewise (u.given v >>= f) (w.given v >>= g) := by
  obtain ⟨span, filter, argument⟩ := u
  obtain ⟨span', filter', argument'⟩ := w
  obtain ⟨rfl, hargument⟩ : filter = filter' ∧ Option.Rel Atom.Likewise argument argument' :=
    ⟨h.filter, h.argument⟩
  unfold given
  cases hargument with
  | none => exact hf none none .none
  | @some a b hatom =>
    have hpresent : Rendering.Likewise ((do return some ⟨a, ← a.resolvePresent⟩) >>= f)
        ((do return some ⟨b, ← b.resolvePresent⟩) >>= g) := by
      simp only [bind_assoc, pure_bind]
      exact (Atom.likewise_resolvePresent hatom).bind fun value => hf _ _ (.some ⟨hatom, rfl⟩)
    cases filter with
    | loaded name function => exact hpresent
    | builtin filter =>
      dsimp only
      split
      · exact hpresent
      · exact hf none none .none

/-- **A filter does the same** wherever it stands. -/
theorem likewise_apply (h : u.Likewise w) (v : Option Value) :
    Rendering.Likewise (u.apply v) (w.apply v) := by
  unfold apply
  refine likewise_given h v fun x y hxy => likewise_bind_left _ fun v => ?_
  rw [h.filter]
  cases w.filter with
  | builtin f => exact likewise_ofExcept (f.sameOutcome_apply hxy v)
  | loaded name f =>
    refine likewise_bind_left get fun s => ?_
    rw [applyLoaded_eq f hxy]
    exact likewise_refl _

end FilterUse

/-- **Two expressions that say the same.** -/
structure Expression.Likewise (e e' : Expression) : Prop where
  head : e.head.Likewise e'.head
  filters : List.Forall₂ FilterUse.Likewise e.filters e'.filters

/-- **Expressions that say the same** have the same value, or the same fault, and do the same to the
scope. -/
theorem Expression.likewise_resolve {e e' : Expression} (h : e.Likewise e') (strictness : Strictness) :
    Rendering.Likewise (e.resolve strictness) (e'.resolve strictness) := by
  obtain ⟨head, filters⟩ := e
  obtain ⟨head', filters'⟩ := e'
  obtain ⟨hhead, hfilters⟩ : head.Likewise head' ∧ List.Forall₂ FilterUse.Likewise filters filters' :=
    ⟨h.head, h.filters⟩
  unfold resolve
  refine (Atom.likewise_resolve hhead strictness).bind fun v => ?_
  dsimp only
  clear h
  induction hfilters generalizing v with
  | nil => exact likewise_refl _
  | cons hu _ ih =>
    rw [List.foldlM_cons, List.foldlM_cons]
    exact (FilterUse.likewise_apply hu v).bind ih

/-! ## Nodes -/

/-- The node that an expression between braces becomes: one of its own for a text to be translated
without filters. -/
def Expression.node (span : Span) : Expression → Node
  | ⟨.translated _ text, []⟩ => .translated span text
  | e => .output span e

theorem Compiler.output_eq (c : Compiler) (token : Token) :
    c.output token = (c.reader.chain (token.content c.source) token.span (token.span.start + 2)).map
      fun e => c.add (e.node token.span) := by
  unfold Compiler.output
  cases c.reader.chain (token.content c.source) token.span (token.span.start + 2) with
  | error e => rfl
  | ok e =>
    obtain ⟨head, filters⟩ := e
    cases filters with
    | cons use rest => cases head <;> rfl
    | nil => cases head <;> rfl

/-- A safe text is written as it is. -/
theorem run_written_safe (text : String) (s : Scope) :
    (written (some (.safe text))).run.run s = (.ok text, s) := by
  have hrender : Value.render (some (.safe text)) s.autoescape = .ok text := by
    cases s.autoescape <;> rfl
  unfold written
  rw [run_bind, run_get]
  dsimp only
  rw [hrender]
  rfl

namespace Expression

variable {e e' : Expression} {routes : RouteTable}

theorem likewise_output (h : e.Likewise e') (routes : RouteTable) (span span' : Span) :
    Rendering.Likewise ((Node.output span e).render routes) ((Node.output span' e').render routes) := by
  unfold Node.render
  exact (likewise_resolve h .lenient).bind fun v => likewise_refl _

/-- **Expressions that say the same are rendered to the same**, whatever the scope and its autoescape
setting. -/
theorem likewise_node (h : e.Likewise e') (span span' : Span) :
    Rendering.Likewise ((e.node span).render routes) ((e'.node span').render routes) := by
  have houtput := likewise_output h routes span span'
  obtain ⟨head, filters⟩ := e
  obtain ⟨head', filters'⟩ := e'
  cases h.filters with
  | cons hu hrest => cases head <;> cases head' <;> exact houtput
  | nil =>
    cases h.head with
    | same hsame =>
      cases head <;> cases head' <;> cases hsame <;> first | exact houtput | exact likewise_refl _
    | @translated place place' text htext =>
      -- the text is written, and its translation is the text
      intro s
      have hwritten : (((Expression.mk (.text place text) []).node span).render routes).run.run s =
          (.ok text, s) := run_written_safe text s
      have htranslated : (((Expression.mk (.translated place' text) []).node span').render
          routes).run.run s = (.ok text, s) := congrArg (fun t => (Except.ok t, s)) htext
      rw [hwritten, htranslated]
      exact ⟨.refl _, rfl⟩

end Expression

end Galley
