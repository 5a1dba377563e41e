import Galley.Proofs.Mirror
import Galley.Proofs.OpenLoops
import Mathlib

/-!
# What a template mentions

A template reads those variables only with whose names its paths begin. So it is rendered to the same
text in a scope and in one that mirrors it for these names.

* `Expression.roots`, `Node.expressions`, `Node.callsTag`: what is mentioned, and what is called.
* `Expression.mirrored_resolve`, `Condition.mirrored_evaluate`: looking at values.
* `Node.mirrored_render`, `mirrored_renderAll`: **rendering in a scope that mirrors another one.**
-/

namespace Galley

open Rendering

variable {ρ : Renumbering} {names : List String}

/-! ## What is mentioned -/

/-- The name of the variable that an atom begins with, if it begins with one. -/
def Atom.root? : Atom → Option String
  | .path _ root _ => some root
  | _ => none

/-- Whether a filter is one that is always there. -/
def Filter.isBuiltin : Filter → Bool
  | .builtin _ => true
  | .loaded .. => false

namespace Expression

/-- The names of the variables that an expression reads. -/
def roots (e : Expression) : List String := e.atoms.filterMap Atom.root?

/-- Whether all filters of an expression are always there. -/
def isBuiltin (e : Expression) : Bool := e.filters.all (·.filter.isBuiltin)

/-- An expression keeps to some names: it reads no other variables and applies no filters of
libraries. -/
structure KeepsTo (names : List String) (e : Expression) : Prop where
  roots : ∀ root ∈ e.roots, root ∈ names
  isBuiltin : e.isBuiltin = true

end Expression

/-- The expressions of a condition. -/
def Condition.operands {α : Type} : Condition α → List α
  | operand a => [a]
  | negation c => c.operands
  | binary _ left right => left.operands ++ right.operands

mutual

/-- The expressions of a node and of the nodes in it. -/
def Node.expressions : Node → List Expression
  | .output _ e => [e]
  | .autoescape _ _ body => expressionsOf body
  | .choice _ condition truthy falsey =>
    condition.operands ++ (expressionsOf truthy ++ expressionsOf falsey)
  | .loop _ header body empty => header.iterable :: (expressionsOf body ++ expressionsOf empty)
  | .route _ call => call.expressions
  | .call _ call => call.expressions
  | _ => []

/-- The expressions of some nodes. -/
def expressionsOf : List Node → List Expression
  | [] => []
  | node :: rest => node.expressions ++ expressionsOf rest

end

mutual

/-- Whether a node, or one in it, calls a tag of a library. -/
def Node.callsTag : Node → Bool
  | .autoescape _ _ body => anyCallsTag body
  | .choice _ _ truthy falsey => anyCallsTag truthy || anyCallsTag falsey
  | .loop _ _ body empty => anyCallsTag body || anyCallsTag empty
  | .call .. => true
  | _ => false

/-- Whether one of some nodes does. -/
def anyCallsTag : List Node → Bool
  | [] => false
  | node :: rest => node.callsTag || anyCallsTag rest

end

/-! ## Looking at values -/

theorem mirrored_hushed {result result' : Except HostError (Option Value)}
    (h : result' = result.map (Option.map (Value.renumber ρ))) :
    Mirrored ρ names (Option.map (Value.renumber ρ)) (hushed result) (hushed result') := by
  subst h
  cases result with
  | ok v => exact mirrored_pure _ v
  | error e =>
    change Mirrored ρ names _ (if e.silent then pure none else throw (.host e))
      (if e.silent then pure none else throw (.host e))
    split
    · exact mirrored_pure _ none
    · exact mirrored_throw _ _ _

namespace Value

/-- **One name behind a value.** -/
theorem mirrored_dot (strictness : Strictness) (v : Value) (name : String) (start offset : Nat) :
    Mirrored ρ names (Option.map (renumber ρ)) (v.dot strictness name start offset)
      ((v.renumber ρ).dot strictness name start offset) := by
  have hcall (w : Value) : Mirrored ρ names (Option.map (renumber ρ))
      (do (← hushed w.called).mapM Rendering.numbered)
      (do (← hushed (w.renumber ρ).called).mapM Rendering.numbered) :=
    (mirrored_hushed (called_renumber ρ w)).bind fun _ => mirrored_option_mapM mirrored_numbered
  unfold dot
  rw [member_renumber]
  cases v.member name with
  | found w =>
    dsimp only [Lookup.renumber]
    rw [takes?_renumber]
    cases w.takes? with
    | none => exact hcall w
    | some taken =>
      -- the list whose item is taken has the other number
      exact (mirrored_modify fun s t hs => hs.take taken.1 taken.2).bind fun _ => hcall w
  | failed e => exact mirrored_hushed rfl
  | absent =>
    cases strictness with
    | strict => exact mirrored_throw _ _ _
    | lenient => exact mirrored_pure _ Option.none

/-- The names behind a value. -/
theorem mirrored_follow (strictness : Strictness) (v : Value) (start offset : Nat)
    (path : List String) :
    Mirrored ρ names (Option.map (renumber ρ)) (v.follow strictness start offset path)
      ((v.renumber ρ).follow strictness start offset path) := by
  induction path generalizing v offset with
  | nil => exact mirrored_pure _ (some v)
  | cons name rest ih =>
    unfold follow
    refine (mirrored_dot strictness v name start offset).bind fun next? => ?_
    cases next? with
    | none => exact mirrored_pure _ Option.none
    | some next => exact ih next _

end Value

/-- The counters of a loop have no numbers. -/
theorem Loop.toDict_renumber (loop : Loop) {around : Value} (h : around.renumber ρ = around) :
    (loop.toDict around).renumber ρ = loop.toDict around := by
  simp [toDict, Value.renumber, h, Value.str, read]

theorem nestLoops_renumber (loops : List Loop) :
    (Scope.nestLoops loops).renumber ρ = Scope.nestLoops loops := by
  induction loops with
  | nil => simp [Scope.nestLoops, Value.renumber]
  | cons loop rest ih => exact loop.toDict_renumber ih

theorem loopValue_mirrors {s t : Scope} (h : s.Mirrors ρ names t) (parents : Nat)
    (requested : Option LoopCounter) :
    loopValue t parents requested =
      (loopValue s parents requested).map (Option.map (Value.renumber ρ)) := by
  have hread (loop : Loop) (c : LoopCounter) : (loop.read c).renumber ρ = loop.read c := by
    cases c <;> rfl
  have hdict : (s.loopDict parents).renumber ρ = s.loopDict parents := nestLoops_renumber _
  have hloops : t.loopAt parents = s.loopAt parents ∧ t.loopDict parents = s.loopDict parents := by
    unfold Scope.loopAt Scope.loopDict Scope.loopsWithin
    rw [h.loops]
    exact ⟨rfl, rfl⟩
  unfold loopValue
  rw [hloops.1, hloops.2, h.loops]
  cases s.loopAt parents with
  | error e => rfl
  | ok loop? =>
    match loop?, requested with
    | none, some _ => rfl
    | none, none =>
      simp only [bind, Except.bind, pure, Except.pure, Except.map]
      split <;> simp [Value.renumber]
    | some _, none => exact congrArg (fun v => Except.ok (some v)) hdict.symm
    | some loop, some c => exact congrArg (fun v => Except.ok (some v)) (hread loop c).symm

namespace Atom

/-- **The value of an atom.** -/
theorem mirrored_resolve (a : Atom) (strictness : Strictness) (h : ∀ root ∈ a.root?, root ∈ names) :
    Mirrored ρ names (Option.map (Value.renumber ρ)) (a.resolve strictness)
      (a.resolve strictness) := by
  unfold resolve
  cases a with
  | int _ n => exact mirrored_pure _ (some (Value.int n))
  | float _ x => exact mirrored_pure _ (some (Value.float x))
  | text _ s => exact mirrored_pure _ (some (Value.safe s))
  | translated _ s => exact mirrored_pure _ (some (Value.safe (translate s)))
  | path span root path =>
    refine mirrored_get_bind fun s t hs => ?_
    rw [hs.get? (h root rfl)]
    cases s.get? (.str root) with
    | none => exact mirrored_pure _ none
    | some v =>
      refine (mirrored_current v).bind fun v => ?_
      refine (mirrored_host (Value.called_renumber ρ v)).bind fun called? => ?_
      cases called? with
      | none => exact mirrored_pure _ none
      | some w => exact (mirrored_numbered w).bind fun w => w.mirrored_follow _ _ _ _
  | loop span parents c path =>
    refine mirrored_get_bind fun s t hs => ?_
    refine (mirrored_host (loopValue_mirrors hs parents c)).bind fun loop? => ?_
    cases loop? with
    | none => exact mirrored_pure _ none
    | some v => exact v.mirrored_follow _ _ _ _

theorem mirrored_resolvePresent (a : Atom) (h : ∀ root ∈ a.root?, root ∈ names) :
    Mirrored ρ names (Value.renumber ρ) a.resolvePresent a.resolvePresent := by
  unfold resolvePresent
  refine (a.mirrored_resolve .strict h).bind fun v? => ?_
  cases v? with
  | some v => exact mirrored_pure _ v
  | none =>
    -- both go wrong, whatever is shown of the scopes
    have hfails (s : Scope) : ∃ e, ((do
        let shown ← Rendering.host (← get).refreshed.toValue.repr
        Rendering.fail (.missingOperand a.rootName shown) a.span : Rendering Value).run.run s) =
        (.error e, s) := by
      rw [run_bind, run_get]
      dsimp only
      rw [run_bind]
      cases s.refreshed.toValue.repr with
      | ok shown => exact ⟨_, rfl⟩
      | error e => exact ⟨_, rfl⟩
    exact mirrored_of_fails _ hfails hfails

end Atom

namespace FilterUse

variable {use : FilterUse}

/-- The argument of a filter, if it looks at it. -/
theorem mirrored_given (h : ∀ root ∈ use.argument.bind Atom.root?, root ∈ names) (v : Option Value) :
    Mirrored ρ names (Option.map (Argument.renumber ρ)) (use.given v)
      (use.given (v.map (Value.renumber ρ))) := by
  have hpresent {a : Atom} (ha : ∀ root ∈ a.root?, root ∈ names) :
      Mirrored ρ names (Option.map (Argument.renumber ρ))
        (do return some ⟨a, ← a.resolvePresent⟩) (do return some ⟨a, ← a.resolvePresent⟩) :=
    (a.mirrored_resolvePresent ha).map (some ∘ Argument.mk a) (some ∘ Argument.mk a) fun _ => rfl
  unfold given
  cases hargument : use.argument with
  | none => exact mirrored_pure _ none
  | some a =>
    rw [hargument] at h
    cases use.filter with
    | loaded name f => exact hpresent h
    | builtin f =>
      dsimp only
      rw [f.usesArgument_map]
      split
      · exact hpresent h
      · exact mirrored_pure _ none

/-- **A filter that is always there,** applied to a value. -/
theorem mirrored_apply (h : ∀ root ∈ use.argument.bind Atom.root?, root ∈ names)
    (hbuiltin : use.filter.isBuiltin = true) (v : Option Value) :
    Mirrored ρ names (Option.map (Value.renumber ρ)) (use.apply v)
      (use.apply (v.map (Value.renumber ρ))) := by
  unfold apply
  refine (mirrored_given h v).bind fun given => ?_
  refine (mirrored_option_mapM mirrored_current).bind fun v => ?_
  cases hfilter : use.filter with
  | loaded name f =>
    rw [hfilter] at hbuiltin
    cases hbuiltin
  | builtin f => exact mirrored_ofExcept (f.apply_renumber ρ given v)

end FilterUse

namespace Expression

variable {e : Expression}

theorem KeepsTo.root (h : e.KeepsTo names) {a : Atom} (ha : a ∈ e.atoms) :
    ∀ root ∈ a.root?, root ∈ names :=
  fun root hroot => h.roots root (List.mem_filterMap.2 ⟨a, ha, hroot⟩)

/-- **The value of an expression.** -/
theorem mirrored_resolve (h : e.KeepsTo names) (strictness : Strictness) :
    Mirrored ρ names (Option.map (Value.renumber ρ)) (e.resolve strictness)
      (e.resolve strictness) := by
  unfold resolve
  refine (e.head.mirrored_resolve strictness (h.root List.mem_cons_self)).bind fun v => ?_
  refine mirrored_foldlM (fun v use huse => use.mirrored_apply (fun root hroot => ?_) ?_ v) v
  · obtain ⟨a, ha, hroot⟩ := Option.bind_eq_some_iff.1 hroot
    exact h.root (List.mem_cons_of_mem _ (List.mem_filterMap.2 ⟨use, huse, ha⟩)) root hroot
  · exact List.all_eq_true.1 h.isBuiltin use huse

/-- The value of an operand counts as nothing if there is none. -/
theorem run_operandValue (e : Expression) (s : Scope) :
    e.operandValue.run s = (((e.resolve .lenient).run.run s).1.toOption.join.getD .none,
      ((e.resolve .lenient).run.run s).2) := by
  unfold operandValue
  rw [run_bind_state]
  rcases (e.resolve .lenient).run.run s with ⟨_ | _ | _, s'⟩ <;> rfl

theorem mirrored_operandValue (h : e.KeepsTo names) {s t : Scope} (hs : s.Mirrors ρ names t) :
    (e.operandValue.run t).1 = (e.operandValue.run s).1.renumber ρ ∧
      (e.operandValue.run s).2.Mirrors ρ names (e.operandValue.run t).2 := by
  obtain ⟨houtcome, hleft⟩ := mirrored_resolve h .lenient s t hs
  rw [run_operandValue, run_operandValue]
  refine ⟨?_, hleft⟩
  dsimp only
  rw [houtcome]
  rcases ((e.resolve .lenient).run.run s).1.toOption with _ | _ | v <;> rfl

end Expression

/-- **The value of a condition.** -/
theorem Condition.mirrored_evaluate {c : Condition Expression}
    (h : ∀ e ∈ c.operands, e.KeepsTo names) {s t : Scope} (hs : s.Mirrors ρ names t) :
    (c.evaluate.run t).1 = (c.evaluate.run s).1.renumber ρ ∧
      (c.evaluate.run s).2.Mirrors ρ names (c.evaluate.run t).2 := by
  induction c generalizing s t with
  | operand e => exact e.mirrored_operandValue (h e (List.mem_singleton_self e)) hs
  | negation c ih =>
    obtain ⟨hvalue, hleft⟩ := ih h hs
    refine ⟨?_, hleft⟩
    change (c.evaluate.run t).1.negated = (c.evaluate.run s).1.negated.renumber ρ
    rw [hvalue, Value.negated_renumber]
  | binary operator left right ihl ihr =>
    obtain ⟨hl, hr⟩ := List.forall_mem_append.1 h
    obtain ⟨hvalue, hleft⟩ := ihl hl hs
    obtain ⟨hvalue', hleft'⟩ := ihr hr hleft
    unfold evaluate
    rw [run_bind_state, run_bind_state, hvalue, operator.decided?_renumber]
    cases operator.decided? (left.evaluate.run s).1 with
    | some answer => exact ⟨rfl, hleft⟩
    | none =>
      -- the left value is taken as it is once the right one is known
      refine ⟨?_, hleft'⟩
      change (operator.result? ((right.evaluate.run (left.evaluate.run t).2).2.current
          ((left.evaluate.run s).1.renumber ρ))
          (right.evaluate.run (left.evaluate.run t).2).1).getD (.bool false) =
        ((operator.result? ((right.evaluate.run (left.evaluate.run s).2).2.current
          (left.evaluate.run s).1) (right.evaluate.run (left.evaluate.run s).2).1).getD
          (.bool false)).renumber ρ
      rw [hvalue', hleft'.current, operator.result?_renumber]
      cases operator.result? _ _ <;> rfl

/-! ## Rendering -/

theorem mirrored_written (v : Option Value) :
    Mirrored ρ names id (written v) (written (v.map (Value.renumber ρ))) :=
  mirrored_get_bind fun s t hs => mirrored_host <| by
    rw [hs.autoescape, Value.render_renumber]
    cases Value.render v s.autoescape <;> rfl

theorem mirrored_argumentValue {e : Expression} (h : e.KeepsTo names) :
    Mirrored ρ names (Value.renumber ρ) (argumentValue e) (argumentValue e) := by
  refine (e.mirrored_resolve h .strict).bind fun v? => ?_
  cases v? with
  | none => exact mirrored_numbered (.str "")
  | some v => exact mirrored_numbered v

/-- The arguments of a tag with other numbers. -/
def renumberArguments (ρ : Renumbering) :
    List Value × List (String × Value) → List Value × List (String × Value) :=
  Prod.map (List.map (Value.renumber ρ)) (List.map (Prod.map id (Value.renumber ρ)))

theorem mirrored_argumentValues {positional : List Expression}
    {keyword : List (String × Expression)} (hpositional : ∀ e ∈ positional, e.KeepsTo names)
    (hkeyword : ∀ entry ∈ keyword, entry.2.KeepsTo names) :
    Mirrored ρ names (renumberArguments ρ) (argumentValues positional keyword)
      (argumentValues positional keyword) := by
  have hvalues := mirrored_mapM fun e he => mirrored_argumentValue (ρ := ρ) (hpositional e he)
  have hnamed := mirrored_mapM fun entry hentry =>
    (mirrored_argumentValue (ρ := ρ) (hkeyword entry hentry)).map (Prod.mk entry.1)
      (Prod.mk entry.1) (h := Prod.map id (Value.renumber ρ)) fun _ => rfl
  unfold argumentValues
  refine hvalues.bind fun values => hnamed.bind fun named => mirrored_get_bind fun s t hs => ?_
  -- all arguments are taken as they are once the last one is known
  have hmade : ((values.map (Value.renumber ρ)).map t.current,
      (named.map (Prod.map id (Value.renumber ρ))).map (Prod.map id t.current)) =
      renumberArguments ρ (values.map s.current, named.map (Prod.map id s.current)) := by
    simp only [renumberArguments, Prod.map, List.map_map, Function.comp_def, hs.current, id]
  have hpure : Mirrored ρ names (renumberArguments ρ)
      (pure (values.map s.current, named.map (Prod.map id s.current))) _ := mirrored_pure _ _
  rw [← hmade] at hpure
  exact hpure

theorem mirrored_assign (name : String) (v : Value) :
    Mirrored ρ names id (assign name v) (assign name (v.renumber ρ)) :=
  (mirrored_numbered v).bind fun v => mirrored_modify fun _ _ hs => hs.set name v

theorem mirrored_deliver (target : Option String) (v : Value) :
    Mirrored ρ names id (deliver target v) (deliver target (v.renumber ρ)) := by
  cases target with
  | none => exact mirrored_written (some v)
  | some name => exact (mirrored_assign name v).bind fun _ => mirrored_pure id ""

/-- **A route.** -/
theorem RouteCall.mirrored_run {c : RouteCall} (h : ∀ e ∈ c.expressions, e.KeepsTo names)
    (routes : RouteTable) : Mirrored ρ names id (c.run routes) (c.run routes) := by
  obtain ⟨hroute, hrest⟩ := List.forall_mem_cons.1 h
  obtain ⟨hpositional, hkeyword⟩ := List.forall_mem_append.1 hrest
  unfold run
  refine (mirrored_argumentValue hroute).bind fun name => ?_
  have harguments := mirrored_argumentValues (ρ := ρ) hpositional (List.forall_mem_map.1 hkeyword)
  refine harguments.bind fun (positional, keyword) => (mirrored_current name).bind fun name => ?_
  refine mirrored_get_bind fun s t hs => ?_
  -- of equal names the last value counts, as in the one scope so in the other
  have hdistinct := foldl_register_map (Value.renumber ρ) keyword []
  rw [List.map_nil] at hdistinct
  dsimp only [renumberArguments, Prod.map]
  rw [hs.request, hdistinct, RouteTable.reverse_renumber]
  split
  · exact mirrored_deliver c.target _
  · split
    · exact mirrored_pure id ""
    · exact mirrored_throw _ _ _

theorem mirrored_verdict {c : Condition Expression} (h : ∀ e ∈ c.operands, e.KeepsTo names) :
    Mirrored ρ names id (verdict c) (verdict c) := by
  have hevaluate : Mirrored ρ names (Value.renumber ρ) (liftM c.evaluate : Rendering Value)
      (liftM c.evaluate) := by
    intro s t hs
    obtain ⟨hvalue, hleft⟩ := c.mirrored_evaluate h hs
    exact ⟨congrArg some hvalue, hleft⟩
  refine hevaluate.bind fun v => mirrored_host ?_
  rw [Value.truth_renumber]
  cases v.truth <;> rfl

theorem mirrored_withAutoescape (enabled : Bool) {body : Rendering String}
    (h : Mirrored ρ names id body body) :
    Mirrored ρ names id (withAutoescape enabled body) (withAutoescape enabled body) := by
  unfold withAutoescape
  refine mirrored_get_bind fun s t hs => ?_
  refine Mirrored.bind (mirrored_modify fun _ _ hs => { hs with autoescape := rfl }) fun _ => ?_
  exact h.ending fun s' t' hs' => ⟨rfl, { hs' with autoescape := hs.autoescape }⟩

namespace LoopHeader

variable {h : LoopHeader} {body empty : Rendering String}

/-- The items of a value that is walked through. -/
def walked (h : LoopHeader) (v : Value) : Rendering (List Value) :=
  v.walk?.elim (fail (.raised v.notIterable "here") h.iterable.span) fun walk =>
    walk.ending.elim (pure (if h.backwards then walk.items.reverse else walk.items)) fun e =>
      fail (.raised e "while iterating this") h.iterable.span

/-- The items of a loop are those of its iterable. There are none if this is nothing. -/
theorem items_eq (h : LoopHeader) : ∃ next : Option Value → Rendering (List Value),
    h.items = h.iterable.resolve .strict >>= next ∧ next none = pure [] ∧
      next (some .none) = pure [] ∧ ∀ v, v ≠ .none → next (some v) = h.walked v := by
  refine ⟨_, rfl, rfl, rfl, fun v hv => ?_⟩
  unfold walked
  cases v with
  | none => exact absurd rfl hv
  | _ =>
    dsimp only
    cases Value.walk? _ with
    | none => rfl
    | some walk =>
      dsimp only [Option.elim]
      cases walk.ending <;> rfl

theorem mirrored_walked (v : Value) :
    Mirrored ρ names (List.map (Value.renumber ρ)) (h.walked v) (h.walked (v.renumber ρ)) := by
  unfold walked
  rw [Value.walk?_renumber]
  cases v.walk? with
  | none => exact mirrored_throw _ _ _
  | some walk =>
    dsimp only [Option.map_some, Option.elim, Walk.renumber]
    cases walk.ending with
    | some e => exact mirrored_throw _ _ _
    | none =>
      dsimp only
      split
      · rw [← List.map_reverse]
        exact mirrored_pure _ walk.items.reverse
      · exact mirrored_pure _ walk.items

theorem mirrored_items (he : h.iterable.KeepsTo names) :
    Mirrored ρ names (List.map (Value.renumber ρ)) h.items h.items := by
  obtain ⟨next, hitems, hnone, hnothing, hwalked⟩ := h.items_eq
  rw [hitems]
  refine (h.iterable.mirrored_resolve he .strict).bind fun v? => ?_
  cases v? with
  | none =>
    rw [Option.map_none, hnone]
    exact mirrored_pure _ []
  | some v =>
    by_cases hv : v = .none
    · subst hv
      rw [Option.map_some, Value.renumber, hnothing]
      exact mirrored_pure _ []
    · have hv' : v.renumber ρ ≠ .none := by
        cases v <;> simp_all [Value.renumber]
      rw [Option.map_some, hwalked v hv, hwalked _ hv']
      exact mirrored_walked v

theorem mirrored_unpack (item : Value) :
    Mirrored ρ names (List.map (Value.renumber ρ)) (h.unpack item) (h.unpack (item.renumber ρ)) := by
  unfold unpack
  dsimp only
  rw [Value.walk?_renumber]
  cases item.walk? with
  | none => exact mirrored_throw _ _ _
  | some walk =>
    dsimp only [Option.map_some, Walk.renumber]
    cases walk.ending with
    | some e => exact mirrored_throw _ _ _
    | none =>
      dsimp only
      rw [List.length_map]
      split
      · exact mirrored_pure _ walk.items
      · exact mirrored_throw _ _ _

theorem mirrored_bind (item : Value) :
    Mirrored ρ names id (h.bind item) (h.bind (item.renumber ρ)) := by
  unfold LoopHeader.bind
  refine (mirrored_current item).bind fun item => ?_
  split
  · exact mirrored_assign _ item
  · refine (mirrored_unpack item).bind fun values => ?_
    rw [List.zip_map_right]
    exact mirrored_forM fun entry _ => mirrored_assign entry.1 entry.2

/-- The rounds of a loop through renumbered items. -/
theorem mirrored_rounds (hbody : Mirrored ρ names id body body) (count : Nat) (items : List Value) :
    Mirrored ρ names id (h.rounds body count items)
      (h.rounds body count (items.map (Value.renumber ρ))) := by
  induction items generalizing count with
  | nil => exact mirrored_pure id []
  | cons item rest ih =>
    unfold rounds
    refine (mirrored_modify fun _ _ hs => hs.setCount count).bind fun _ => ?_
    refine (mirrored_bind item).bind fun _ => hbody.bind fun text => ?_
    exact (ih (count + 1)).map (List.cons text) (List.cons text) fun _ => rfl

/-- **A loop.** -/
theorem mirrored_run (he : h.iterable.KeepsTo names) (hbody : Mirrored ρ names id body body)
    (hempty : Mirrored ρ names id empty empty) :
    Mirrored ρ names id (h.run body empty) (h.run body empty) := by
  unfold run
  refine (mirrored_items he).bind fun items => ?_
  cases items with
  | nil => exact hempty
  | cons item rest =>
    have hrounds := (mirrored_rounds (h := h) hbody 0 (item :: rest)).ending
      fun _ _ hs => hs.leaveLoop
    have henter (s t : Scope) (hs : s.Mirrors ρ names t) :
        (s.enterLoop (item :: rest).length).Mirrors ρ names
          (t.enterLoop ((item :: rest).map (Value.renumber ρ)).length) := by
      rw [List.length_map]
      exact hs.enterLoop _
    exact (mirrored_modify henter).bind fun _ => hrounds.map String.join String.join fun _ => rfl

end LoopHeader

mutual

/-- **A node** is rendered to the same text in a scope that mirrors another one for the names that the
node mentions. -/
theorem Node.mirrored_render (routes : RouteTable) (node : Node) (hcalls : node.callsTag = false)
    (h : ∀ e ∈ node.expressions, e.KeepsTo names) :
    Mirrored ρ names id (node.render routes) (node.render routes) := by
  cases node with
  | text _ text => exact mirrored_pure id text
  | translated _ text => exact mirrored_pure id (translate text)
  | load _ => exact mirrored_pure id ""
  | output _ e =>
    exact (e.mirrored_resolve (h e List.mem_cons_self) .lenient).bind fun v => mirrored_written v
  | autoescape _ enabled body =>
    exact mirrored_withAutoescape enabled (mirrored_renderAll routes body hcalls h)
  | choice _ condition truthy falsey =>
    obtain ⟨hctruthy, hcfalsey⟩ := Bool.or_eq_false_iff.1 hcalls
    obtain ⟨hcondition, hbranches⟩ := List.forall_mem_append.1 h
    obtain ⟨htruthy, hfalsey⟩ := List.forall_mem_append.1 hbranches
    unfold Node.render
    refine (mirrored_verdict hcondition).bind fun holds => ?_
    cases holds with
    | true => exact mirrored_renderAll routes truthy hctruthy htruthy
    | false => exact mirrored_renderAll routes falsey hcfalsey hfalsey
  | loop _ header body empty =>
    obtain ⟨hcbody, hcempty⟩ := Bool.or_eq_false_iff.1 hcalls
    obtain ⟨hiterable, hparts⟩ := List.forall_mem_cons.1 h
    obtain ⟨hbody, hempty⟩ := List.forall_mem_append.1 hparts
    exact LoopHeader.mirrored_run hiterable (mirrored_renderAll routes body hcbody hbody)
      (mirrored_renderAll routes empty hcempty hempty)
  | route _ call => exact call.mirrored_run h routes
  | call _ _ => cases hcalls

/-- So are some nodes. -/
theorem mirrored_renderAll (routes : RouteTable) (nodes : List Node)
    (hcalls : anyCallsTag nodes = false) (h : ∀ e ∈ expressionsOf nodes, e.KeepsTo names) :
    Mirrored ρ names id (renderAll routes nodes) (renderAll routes nodes) := by
  cases nodes with
  | nil => exact mirrored_pure id ""
  | cons node rest =>
    obtain ⟨hcnode, hcrest⟩ := Bool.or_eq_false_iff.1 hcalls
    obtain ⟨hnode, hrest⟩ := List.forall_mem_append.1 h
    have hfirst := node.mirrored_render routes hcnode hnode
    have hothers := mirrored_renderAll routes rest hcrest hrest
    unfold renderAll
    exact (hfirst.mapFault).bind fun text => hothers.map (text ++ ·) (text ++ ·) fun _ => rfl

end

end Galley
