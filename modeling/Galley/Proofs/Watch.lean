import Galley.Proofs.Effects

/-!
# Renders that are watched

A render that is watched is the same computation and notes every atom when it is looked up, with the
scope of that moment and the rounds of loops around the place where the atom is written.

* `Round`, `Look`: a round of a running loop; an atom that is looked up.
* `Watched`: a computation in a scope that notes lookups, and its parts.
* `Expression.watch`, `Condition.watch`, `Node.watch`, `watchAll`: what is watched. Nothing but
  `Atom.watch` notes anything.
* `Watched.Mirrors`, `mirrors_watchAll`: **watching changes nothing.**
-/

namespace Galley

open Rendering

variable {α β : Type}

/-- A round of a running loop: the tag and the header of the loop, and the items before it, in it and
behind it. -/
structure Round where
  span : Span
  header : LoopHeader
  done : List Value
  item : Value
  rest : List Value

namespace Round

/-- What the loop goes through. -/
def items (r : Round) : List Value := r.done ++ r.item :: r.rest

/-- The number of the round, from zero. -/
def index (r : Round) : Nat := r.done.length

theorem index_lt (r : Round) : r.index < r.items.length := by
  simp only [index, items, List.length_append, List.length_cons]
  omega

end Round

/-- An atom that is looked up in a scope. The rounds around it come with the innermost first. -/
structure Look where
  atom : Atom
  scope : Scope
  rounds : List Round

/-- A computation in a scope that notes what is looked up, in this order. -/
abbrev Watched := ExceptT Fault (StateT Scope (StateM (List Look)))

namespace Watched

/-- Notes a lookup. -/
def note (look : Look) : Watched Unit := fun s looks => ((.ok (), s), looks ++ [look])

/-- A computation that looks nothing up. -/
def quiet (x : Rendering α) : Watched α := fun s looks => (x.run.run s, looks)

/-- The outcome and the scope of a computation that is watched, and what has been noted by then. -/
def on (x : Watched α) (s : Scope) (looks : List Look) : (Except Fault α × Scope) × List Look :=
  (x.run.run s).run looks

/-- A computation whose faults are a part of its result. -/
def attempt (x : Watched α) : Watched (Except Fault α) := fun s looks =>
  let ((outcome, s), looks) := x.on s looks
  ((.ok outcome, s), looks)

/-- A computation followed by a change of the scope, which happens in any case. -/
def ending (first : Watched α) (last : Scope → Except HostError Unit × Scope) : Watched α :=
  fun s looks =>
    let ((outcome, s), looks) := first.on s looks
    match last s with
    | (.ok (), s) => ((outcome, s), looks)
    | (.error e, s) => ((.error (.host e), s), looks)

/-- A computation whose faults are changed. -/
def mapFault (first : Watched α) (f : Fault → Fault) : Watched α := fun s looks =>
  let ((outcome, s), looks) := first.on s looks
  ((outcome.mapError f, s), looks)

end Watched

open Watched

/-! ## What is watched -/

variable (rounds : List Round)

/-- **An atom** is looked up. -/
def Atom.watch (a : Atom) (strictness : Strictness) : Watched (Option Value) := do
  note ⟨a, ← get, rounds⟩
  quiet (a.resolve strictness)

/-- The value of a filter's argument. -/
def Atom.watchPresent (a : Atom) : Watched Value := do
  match ← a.watch rounds .strict with
  | some v => return v
  | none => quiet do
    let shown ← Rendering.host (← get).refreshed.toValue.repr
    Rendering.fail (.missingOperand a.rootName shown) a.span

/-- The argument of a filter in use. -/
def FilterUse.watchGiven (use : FilterUse) (v : Option Value) : Watched (Option Argument) := do
  match use.argument, use.filter with
  | none, _ => return none
  | some a, .builtin f =>
    if f.usesArgument v then return some ⟨a, ← a.watchPresent rounds⟩ else return none
  | some a, .loaded .. => return some ⟨a, ← a.watchPresent rounds⟩

/-- A filter in use, applied to a value. -/
def FilterUse.watchApply (use : FilterUse) (v : Option Value) : Watched (Option Value) := do
  let given ← use.watchGiven rounds v
  quiet do
    let v ← v.mapM Rendering.current
    match use.filter with
    | .builtin f => Rendering.ofExcept (f.apply given v)
    | .loaded _ f =>
      let result ← Rendering.ofExcept (applyLoaded f given v (← get))
      result.mapM Rendering.numbered

/-- **An expression.** -/
def Expression.watch (e : Expression) (strictness : Strictness) : Watched (Option Value) := do
  e.filters.foldlM (fun v use => use.watchApply rounds v) (← e.head.watch rounds strictness)

/-- An operand of a condition. -/
def Expression.watchOperand (e : Expression) : Watched Value := do
  match ← attempt (e.watch rounds .lenient) with
  | .ok (some v) => return v
  | _ => return .none

/-- **A condition.** -/
def Condition.watch : Condition Expression → Watched Value
  | operand e => e.watchOperand rounds
  | negation c => return (← watch c).negated
  | binary operator left right => do
    let a ← watch left
    match operator.decided? a with
    | some answer => return answer
    | none =>
      let b ← watch right
      return (operator.result? ((← get).current a) b).getD (.bool false)

/-- Whether a condition holds. -/
def watchVerdict (c : Condition Expression) : Watched Bool := do
  let v ← c.watch rounds
  quiet (host v.truth)

/-- An argument of a tag. -/
def watchArgument (e : Expression) : Watched Value := do
  let v ← e.watch rounds .strict
  quiet (numbered (v.getD (.str "")))

/-- The arguments of a tag. -/
def watchArguments (positional : List Expression) (keyword : List (String × Expression)) :
    Watched (List Value × List (String × Value)) := do
  let values ← positional.mapM (watchArgument rounds)
  let named ← keyword.mapM fun (k, e) => return (k, ← watchArgument rounds e)
  let scope ← get
  return (values.map scope.current, named.map fun (k, v) => (k, scope.current v))

namespace LoopHeader

/-- The items of a loop. -/
def watchItems (h : LoopHeader) : Watched (List Value) := do
  let v? ← h.iterable.watch rounds .strict
  quiet <| match v? with
    | none | some .none => return []
    | some v =>
      match v.walk? with
      | none => fail (.raised v.notIterable "here") h.iterable.span
      | some walk =>
        match walk.ending with
        | some e => fail (.raised e "while iterating this") h.iterable.span
        | none => return if h.backwards then walk.items.reverse else walk.items

/-- The rounds of a loop behind those with the items in `done`. The body is told in which round it
is. -/
def watchRounds (h : LoopHeader) (body : List Value → Value → List Value → Watched String)
    (done : List Value) : List Value → Watched (List String)
  | [] => return []
  | item :: rest => do
    quiet (modify (·.setCount done.length))
    quiet (h.bind item)
    return (← body done item rest) :: (← watchRounds h body (done ++ [item]) rest)

/-- **A loop.** -/
def watchRun (h : LoopHeader) (body : List Value → Value → List Value → Watched String)
    (empty : Watched String) : Watched String := do
  match ← h.watchItems rounds with
  | [] => empty
  | items =>
    quiet (modify (·.enterLoop items.length))
    let texts ← Watched.ending (h.watchRounds body [] items) Scope.leaveLoop
    return String.join texts

end LoopHeader

/-- **A route.** -/
def RouteCall.watch (c : RouteCall) (routes : RouteTable) : Watched String := do
  let name ← watchArgument rounds c.route
  let (positional, keyword) ← watchArguments rounds c.positional c.keyword
  quiet do
    let name ← current name
    let request := (← get).request
    let current := request.bind fun r => r.currentApp.or r.namespaceName
    let distinct := keyword.foldl (fun done (k, v) => Library.register k v done) []
    match routes.reverse name positional distinct current with
    | .ok path => deliver c.target (.str path)
    | .error e =>
      if e.kind = "NoReverseMatch" && c.target.isSome then return "" else throw (.host e)

/-- **A call of a tag.** -/
def TagCall.watch (c : TagCall) (span : Span) : Watched String := do
  let (positional, keyword) ← watchArguments rounds c.positional c.keyword
  quiet do
    if c.takesScope then modify (·.refreshed)
    let scope ← get
    let arguments := if c.takesScope then scope.toValue :: positional else positional
    let (outcome, scope) := c.function.call arguments keyword scope
    if c.takesScope then set scope.numberAll
    match outcome with
    | .ok v => deliver c.target v
    | .error e => fail (.raised e "here") span

/-- A body with another autoescape setting. -/
def watchAutoescape (enabled : Bool) (body : Watched String) : Watched String := do
  let before := (← get).autoescape
  modify fun s => { s with autoescape := enabled }
  Watched.ending body fun s => (.ok (), { s with autoescape := before })

/-- A text that becomes a part of another one. -/
def watchClosed (part : Watched String) : Watched String :=
  Watched.mapFault part fun
    | .host e => .host e.leavingText
    | f => f

mutual

/-- **The text of a node.** The body of a loop is in a round of it; what stands for a loop without
rounds is not. -/
def Node.watch (routes : RouteTable) (rounds : List Round) : Node → Watched String
  | .text _ text => return text
  | .translated _ text => return translate text
  | .output _ e => do
    let v ← e.watch rounds .lenient
    quiet (written v)
  | .autoescape _ enabled body => watchAutoescape enabled (watchAll routes rounds body)
  | .choice _ condition truthy falsey => do
    if ← watchVerdict rounds condition then watchAll routes rounds truthy
    else watchAll routes rounds falsey
  | .loop span header body empty =>
    header.watchRun rounds
      (fun done item rest => watchAll routes (⟨span, header, done, item, rest⟩ :: rounds) body)
      (watchAll routes rounds empty)
  | .load _ => return ""
  | .route _ call => call.watch rounds routes
  | .call span call => call.watch rounds span

/-- **The text of nodes.** -/
def watchAll (routes : RouteTable) (rounds : List Round) : List Node → Watched String
  | [] => return ""
  | node :: rest => do
    return (← watchClosed (node.watch routes rounds)) ++ (← watchAll routes rounds rest)

end

variable {rounds}

/-! ## Watching changes nothing -/

namespace Watched

variable {x : Watched α} {f : α → Watched β} {y : Rendering α} {g : α → Rendering β}

/-- Two computations in a row: the second starts with what the first one leaves. -/
theorem on_bind (x : Watched α) (f : α → Watched β) (s : Scope) (looks : List Look) :
    (x >>= f).on s looks =
      match x.on s looks with
      | ((.ok a, s'), looks') => (f a).on s' looks'
      | ((.error e, s'), looks') => ((.error e, s'), looks') := by
  simp only [on, bind, ExceptT.bind, ExceptT.run, StateT.run, StateT.bind, ExceptT.mk,
    ExceptT.bindCont]
  rcases x s looks with ⟨⟨_ | _, s'⟩, looks'⟩ <;> rfl

/-- A fault is handed on as a result. -/
theorem on_attempt (x : Watched α) (s : Scope) (looks : List Look) :
    (attempt x).on s looks =
      ((.ok (x.on s looks).1.1, (x.on s looks).1.2), (x.on s looks).2) := rfl

/-- A computation that is watched **mirrors** another one if it comes to the same result and leaves
the same scope, whatever has been noted before. -/
def Mirrors (x : Watched α) (y : Rendering α) : Prop := ∀ s looks, (x.on s looks).1 = y.run.run s

theorem mirrors_quiet (y : Rendering α) : (quiet y).Mirrors y := fun _ _ => rfl

theorem mirrors_pure (a : α) : (pure a : Watched α).Mirrors (pure a) := fun _ _ => rfl

theorem mirrors_get : (get : Watched Scope).Mirrors get := fun _ _ => rfl

theorem mirrors_modify (h : Scope → Scope) : (modify h : Watched Unit).Mirrors (modify h) :=
  fun _ _ => rfl

/-- **One after the other.** -/
theorem Mirrors.bind (hx : x.Mirrors y) (hf : ∀ a, (f a).Mirrors (g a)) :
    (x >>= f).Mirrors (y >>= g) := by
  intro s looks
  have hfirst := hx s looks
  rw [on_bind, run_bind, ← hfirst]
  rcases x.on s looks with ⟨⟨_ | a, s'⟩, looks'⟩
  · rfl
  · exact hf a s' looks'

theorem Mirrors.map {h : α → β} (hx : x.Mirrors y) :
    (do return h (← x) : Watched β).Mirrors (do return h (← y)) :=
  hx.bind fun _ => mirrors_pure _

theorem mirrors_mapM {items : List α} (h : ∀ a, (f a).Mirrors (g a)) :
    (items.mapM f).Mirrors (items.mapM g) := by
  induction items with
  | nil => exact mirrors_pure _
  | cons a rest ih =>
    rw [List.mapM_cons, List.mapM_cons]
    exact (h a).bind fun _ => ih.bind fun _ => mirrors_pure _

theorem mirrors_foldlM {f : β → α → Watched β} {g : β → α → Rendering β} {items : List α}
    (h : ∀ b a, (f b a).Mirrors (g b a)) (b : β) : (items.foldlM f b).Mirrors (items.foldlM g b) := by
  induction items generalizing b with
  | nil => exact mirrors_pure _
  | cons a rest ih =>
    rw [List.foldlM_cons, List.foldlM_cons]
    exact (h b a).bind ih

theorem Mirrors.ending (hx : x.Mirrors y) (last : Scope → Except HostError Unit × Scope) :
    (Watched.ending x last).Mirrors (Rendering.ending y last) := by
  intro s looks
  have hfirst := hx s looks
  change (Watched.ending x last s looks).1 = Rendering.ending y last s
  unfold Watched.ending Rendering.ending
  rw [← hfirst]
  rcases x.on s looks with ⟨⟨outcome, s'⟩, looks'⟩
  dsimp only
  rcases last s' with ⟨_ | _, s''⟩ <;> rfl

theorem Mirrors.mapFault (hx : x.Mirrors y) (h : Fault → Fault) :
    (Watched.mapFault x h).Mirrors (Rendering.mapFault y h) := by
  intro s looks
  change (Watched.mapFault x h s looks).1 = Rendering.mapFault y h s
  unfold Watched.mapFault Rendering.mapFault
  rw [← hx s looks]

end Watched

theorem Atom.mirrors_watch (a : Atom) (strictness : Strictness) :
    (a.watch rounds strictness).Mirrors (a.resolve strictness) := fun _ _ => rfl

theorem Atom.mirrors_watchPresent (a : Atom) :
    (a.watchPresent rounds).Mirrors a.resolvePresent := by
  unfold watchPresent resolvePresent
  refine (a.mirrors_watch .strict).bind fun v? => ?_
  cases v? with
  | none => exact mirrors_quiet _
  | some v => exact mirrors_pure v

theorem FilterUse.mirrors_watchGiven (use : FilterUse) (v : Option Value) :
    (use.watchGiven rounds v).Mirrors (use.given v) := by
  obtain ⟨span, filter, argument⟩ := use
  cases argument with
  | none => exact mirrors_pure _
  | some a =>
    cases filter with
    | builtin f =>
      unfold watchGiven given
      dsimp only
      split
      · exact a.mirrors_watchPresent.map
      · exact mirrors_pure _
    | loaded name f => exact a.mirrors_watchPresent.map

theorem FilterUse.mirrors_watchApply (use : FilterUse) (v : Option Value) :
    (use.watchApply rounds v).Mirrors (use.apply v) :=
  (use.mirrors_watchGiven v).bind fun _ => mirrors_quiet _

theorem Expression.mirrors_watch (e : Expression) (strictness : Strictness) :
    (e.watch rounds strictness).Mirrors (e.resolve strictness) :=
  (e.head.mirrors_watch strictness).bind fun v =>
    mirrors_foldlM (fun v use => use.mirrors_watchApply v) v

theorem Expression.mirrors_watchOperand (e : Expression) :
    (e.watchOperand rounds).Mirrors (liftM e.operandValue) := by
  intro s looks
  have hmirrors : ((e.watch rounds .lenient).on s looks).1 =
      (e.resolve .lenient).run.run s := e.mirrors_watch .lenient s looks
  change _ = (Except.ok (e.operandValue.run s).1, (e.operandValue.run s).2)
  unfold watchOperand operandValue
  rw [on_bind, on_attempt, run_bind_state, ← hmirrors]
  rcases (e.watch rounds .lenient).on s looks with ⟨⟨_ | _ | _, s'⟩, looks'⟩ <;> rfl

/-- **A condition** is mirrored without faults. -/
theorem Condition.mirrors_watch (c : Condition Expression) :
    (c.watch rounds).Mirrors (liftM c.evaluate) := by
  induction c with
  | operand e => exact e.mirrors_watchOperand
  | negation c ih => exact ih.map
  | binary operator left right ihl ihr =>
    -- the right side is looked at if the left one does not decide
    have hright (a : Value) : ((do
        let b ← right.watch rounds
        return (operator.result? ((← get).current a) b).getD (.bool false) : Watched Value)).Mirrors
        (liftM (do
          let b ← right.evaluate
          return (operator.result? ((← get).current a) b).getD (.bool false) : StateM Scope Value)) :=
      ihr.bind fun b => mirrors_get.bind fun _ => mirrors_pure _
    intro s looks
    have hleft : ((left.watch rounds).on s looks).1 =
        (.ok (left.evaluate.run s).1, (left.evaluate.run s).2) := ihl s looks
    change _ = (Except.ok ((binary operator left right).evaluate.run s).1,
      ((binary operator left right).evaluate.run s).2)
    unfold watch evaluate
    rw [on_bind, run_bind_state]
    cases hon : (left.watch rounds).on s looks with
    | mk made looks' =>
      rw [hon] at hleft
      obtain rfl := hleft
      dsimp only
      cases operator.decided? (left.evaluate.run s).1 with
      | none => exact hright _ _ looks'
      | some answer => rfl

theorem mirrors_watchVerdict (c : Condition Expression) :
    (watchVerdict rounds c).Mirrors (verdict c) :=
  c.mirrors_watch.bind fun _ => mirrors_quiet _

theorem mirrors_watchArgument (e : Expression) :
    (watchArgument rounds e).Mirrors (argumentValue e) :=
  (e.mirrors_watch .strict).bind fun _ => mirrors_quiet _

theorem mirrors_watchArguments (positional : List Expression)
    (keyword : List (String × Expression)) :
    (watchArguments rounds positional keyword).Mirrors (argumentValues positional keyword) := by
  refine (mirrors_mapM mirrors_watchArgument).bind fun values => ?_
  refine (mirrors_mapM fun entry => ?_).bind fun named => mirrors_get.bind fun _ => mirrors_pure _
  exact (mirrors_watchArgument entry.2).map

namespace LoopHeader

variable {h : LoopHeader} {empty : Watched String} {body' empty' : Rendering String}
  {body : List Value → Value → List Value → Watched String}

theorem mirrors_watchItems (h : LoopHeader) : (h.watchItems rounds).Mirrors h.items :=
  (h.iterable.mirrors_watch .strict).bind fun _ => mirrors_quiet _

theorem mirrors_watchRounds (hbody : ∀ done item rest, (body done item rest).Mirrors body')
    (done items : List Value) :
    (h.watchRounds body done items).Mirrors (h.rounds body' done.length items) := by
  induction items generalizing done with
  | nil => exact mirrors_pure _
  | cons item rest ih =>
    have hrest := ih (done ++ [item])
    rw [List.length_append, List.length_singleton] at hrest
    refine (mirrors_quiet _).bind fun _ => (mirrors_quiet _).bind fun _ => ?_
    exact (hbody done item rest).bind fun _ => hrest.map

theorem mirrors_watchRun (hbody : ∀ done item rest, (body done item rest).Mirrors body')
    (hempty : empty.Mirrors empty') : (h.watchRun rounds body empty).Mirrors (h.run body' empty') := by
  refine h.mirrors_watchItems.bind fun items => ?_
  cases items with
  | nil => exact hempty
  | cons item rest =>
    refine (mirrors_quiet _).bind fun _ => ?_
    exact ((mirrors_watchRounds hbody [] (item :: rest)).ending _).map

end LoopHeader

theorem RouteCall.mirrors_watch (c : RouteCall) (routes : RouteTable) :
    (c.watch rounds routes).Mirrors (c.run routes) :=
  (mirrors_watchArgument c.route).bind fun _ =>
    (mirrors_watchArguments c.positional c.keyword).bind fun _ => mirrors_quiet _

theorem TagCall.mirrors_watch (c : TagCall) (span : Span) :
    (c.watch rounds span).Mirrors (c.run span) :=
  (mirrors_watchArguments c.positional c.keyword).bind fun _ => mirrors_quiet _

theorem mirrors_watchAutoescape (enabled : Bool) {body : Watched String} {body' : Rendering String}
    (h : body.Mirrors body') : (watchAutoescape enabled body).Mirrors (withAutoescape enabled body') :=
  mirrors_get.bind fun _ => (mirrors_modify _).bind fun _ => h.ending _

mutual

/-- A node that is watched is the node. -/
theorem Node.mirrors_watch (routes : RouteTable) (rounds : List Round) (node : Node) :
    (node.watch routes rounds).Mirrors (node.render routes) := by
  cases node with
  | text _ _ => exact mirrors_pure _
  | translated _ _ => exact mirrors_pure _
  | load _ => exact mirrors_pure _
  | output _ e => exact (e.mirrors_watch .lenient).bind fun _ => mirrors_quiet _
  | autoescape _ enabled body =>
    exact mirrors_watchAutoescape enabled (mirrors_watchAll routes rounds body)
  | choice _ condition truthy falsey =>
    unfold Node.watch Node.render
    refine (mirrors_watchVerdict condition).bind fun holds => ?_
    split
    · exact mirrors_watchAll routes rounds truthy
    · exact mirrors_watchAll routes rounds falsey
  | loop span header body empty =>
    exact LoopHeader.mirrors_watchRun
      (fun done item rest => mirrors_watchAll routes (⟨span, header, done, item, rest⟩ :: rounds) body)
      (mirrors_watchAll routes rounds empty)
  | route _ call => exact call.mirrors_watch routes
  | call span call => exact call.mirrors_watch span

/-- **Watching changes nothing:** nodes come to the same text or fault, and leave the same scope. -/
theorem mirrors_watchAll (routes : RouteTable) (rounds : List Round) (nodes : List Node) :
    (watchAll routes rounds nodes).Mirrors (renderAll routes nodes) := by
  cases nodes with
  | nil => exact mirrors_pure _
  | cons node rest =>
    unfold watchAll renderAll
    refine ((Node.mirrors_watch routes rounds node).mapFault _).bind fun _ => ?_
    exact (mirrors_watchAll routes rounds rest).map

end

end Galley
