import Galley.Proofs.Effects
import Mathlib

/-!
# What rendering leaves of a scope

Nodes are rendered in a scope that they get back as it was, also when something goes wrong: the
loops, the settings and all layers below the top one are the same, and in the top layer only the
variables differ that tags outside of all loops assign their results to.

* `Node.assigned`: the names that a node may assign to outside of loops.
* `Scope.KeptBelow`: what a round of a loop leaves alone.
* `Scope.KeptBut`: what a node leaves alone.
* `keptBut_renderAll`: rendering nodes of which none takes the scope.
-/

namespace Galley

open Rendering

variable {α : Type} {s t u : Scope} {names more : List String}

/-! ## Nodes -/

mutual

/-- Whether a node calls a function that takes the scope. -/
def Node.takesScope : Node → Bool
  | .autoescape _ _ body => anyTakesScope body
  | .choice _ _ truthy falsey => anyTakesScope truthy || anyTakesScope falsey
  | .loop _ _ body empty => anyTakesScope body || anyTakesScope empty
  | .call _ call => call.takesScope
  | _ => false

/-- Whether one of some nodes does. -/
def anyTakesScope : List Node → Bool
  | [] => false
  | node :: rest => node.takesScope || anyTakesScope rest

end

mutual

/-- The names that a node may assign to, except in the rounds of a loop. -/
def Node.assigned : Node → List String
  | .autoescape _ _ body => assignedBy body
  | .choice _ _ truthy falsey => assignedBy truthy ++ assignedBy falsey
  | .loop _ _ _ empty => assignedBy empty
  | .route _ call => call.target.toList
  | .call _ call => call.target.toList
  | _ => []

/-- The names that some nodes may assign to. -/
def assignedBy : List Node → List String
  | [] => []
  | node :: rest => node.assigned ++ assignedBy rest

end

/-! ## The relations -/

/-- A key that is like a text is like what this text is like. -/
theorem Value.alike_of_alike_str {k key : Value} {s : String} (h : Value.alike k (.str s) = true) :
    Value.alike k key = Value.alike (.str s) key := by
  cases k with
  | text kind t =>
    have ht : t = s := by simpa [Value.alike, Value.sameNan, Value.str, Value.eq] using h
    subst ht
    cases key <;> simp [Value.alike, Value.sameNan, Value.str, Value.eq]
  | _ => simp [Value.alike, Value.sameNan, Value.str, Value.eq, Value.number?] at h

namespace Layer

theorem setAll_append (layer : Layer) (first second : List (Value × Value)) :
    layer.setAll (first ++ second) = (layer.setAll first).setAll second := List.foldl_append

/-- Setting a variable leaves alone what is found under a key that no key of this variable is like. -/
theorem get?_set_of_not_alike {layer : Layer} {key other : Value} (v : Value)
    (h : Value.alike key other = false)
    (hlayer : ∀ entry ∈ layer, Value.alike entry.1 key = true → Value.alike entry.1 other = false) :
    (layer.set key v).get? other = layer.get? other := by
  unfold set get? Value.lookupKey?
  split
  · rw [List.find?_map, Option.map_map]
    have hkeys : ((fun entry : Value × Value => Value.alike entry.1 other) ∘ fun entry =>
        if Value.alike entry.1 key then (entry.1, v) else entry) =
        fun entry => Value.alike entry.1 other := by
      funext entry
      simp only [Function.comp]
      split <;> rfl
    rw [hkeys]
    -- what is found for the other key does not stand under this one
    refine Option.map_congr fun entry hentry => ?_
    have hother := List.find?_some hentry
    have hne : Value.alike entry.1 key = false := by
      refine Bool.eq_false_iff.2 fun hkey => ?_
      rw [hlayer entry (List.mem_of_find?_eq_some hentry) hkey] at hother
      exact Bool.false_ne_true hother
    simp [hne]
  · rw [List.find?_append]
    simp [h]

/-- Setting a variable leaves those of other names alone. -/
theorem get?_set_of_ne (layer : Layer) {name : String} {key : Value} (v : Value)
    (h : Value.alike (.str name) key = false) :
    (layer.set (.str name) v).get? key = layer.get? key :=
  get?_set_of_not_alike v h fun entry _ hname => by rw [Value.alike_of_alike_str hname, h]

/-- So does setting several. -/
theorem get?_setAll_of_ne (layer changes : Layer) {names : List String} {key : Value}
    (hnames : ∀ entry ∈ changes, ∃ name ∈ names, entry.1 = .str name)
    (h : ∀ name ∈ names, Value.alike (.str name) key = false) :
    (layer.setAll changes).get? key = layer.get? key := by
  induction changes generalizing layer with
  | nil => rfl
  | cons entry rest ih =>
    obtain ⟨⟨name, hname, hkey⟩, hrest⟩ := List.forall_mem_cons.1 hnames
    change ((layer.set entry.1 entry.2).setAll rest).get? key = _
    rw [ih _ hrest, hkey, get?_set_of_ne layer entry.2 (h name hname)]
end Layer

namespace Scope

theorem layers_eq_cons (s : Scope) : s.layers = s.top :: s.layers.tail := by
  unfold layers top
  cases s.upper <;> rfl

theorem layers_modifyTop (s : Scope) (f : Layer → Layer) :
    (s.modifyTop f).layers = f s.top :: s.layers.tail := by
  unfold modifyTop layers top
  split
  · next h => simp [h]
  · next layer rest h => simp [h]

theorem length_layers (s : Scope) : s.layers.length = s.upper.length + 1 := by
  simp [layers]

/-- A scope is **kept below** its top layer and its innermost loop if only these two may differ. -/
structure KeptBelow (before after : Scope) : Prop where
  autoescape : after.autoescape = before.autoescape
  request : after.request = before.request
  outer : after.loops.tail = before.loops.tail
  height : after.layers.length = before.layers.length
  lower : after.layers.tail = before.layers.tail
  /-- The layer that was pushed first is still there if it was there before. -/
  released : before.upper ≠ [] → after.released = before.released

/-- A scope is **kept but** for some names if it has the same settings and loops and the same number
of layers, if all layers but the top one are the same, and if the top one is got from the one before
by setting variables of these names. -/
structure KeptBut (names : List String) (before after : Scope) : Prop extends
    KeptBelow before after where
  loops : after.loops = before.loops
  top : ∃ changes : Layer, (∀ entry ∈ changes, ∃ name ∈ names, entry.1 = .str name) ∧
    after.top = before.top.setAll changes

theorem KeptBelow.upper_ne_nil (h : s.KeptBelow t) (hs : s.upper ≠ []) : t.upper ≠ [] := by
  have hheight := h.height
  rw [length_layers, length_layers] at hheight
  have hpos := List.length_pos_iff.2 hs
  exact List.length_pos_iff.1 (by omega)

theorem KeptBelow.trans (h : s.KeptBelow t) (h' : t.KeptBelow u) : s.KeptBelow u where
  autoescape := h'.autoescape.trans h.autoescape
  request := h'.request.trans h.request
  outer := h'.outer.trans h.outer
  height := h'.height.trans h.height
  lower := h'.lower.trans h.lower
  released hs := (h'.released (h.upper_ne_nil hs)).trans (h.released hs)

theorem keptBelow_refl (s : Scope) : s.KeptBelow s := ⟨rfl, rfl, rfl, rfl, rfl, fun _ => rfl⟩

instance : IsPreorder Scope KeptBelow where
  refl := keptBelow_refl
  trans _ _ _ := KeptBelow.trans

instance : IsPreorder Scope (KeptBut names) where
  refl s := ⟨keptBelow_refl s, rfl, [], List.forall_mem_nil _, rfl⟩
  trans s t u h h' := by
    obtain ⟨changes, hnames, htop⟩ := h.top
    obtain ⟨changes', hnames', htop'⟩ := h'.top
    refine ⟨h.toKeptBelow.trans h'.toKeptBelow, h'.loops.trans h.loops, changes ++ changes', ?_, ?_⟩
    · intro entry hentry
      rcases List.mem_append.1 hentry with hentry | hentry
      · exact hnames entry hentry
      · exact hnames' entry hentry
    · rw [htop', htop, Layer.setAll_append]

theorem KeptBut.mono (h : KeptBut names s t) (hsub : names ⊆ more) : KeptBut more s t := by
  obtain ⟨changes, hnames, htop⟩ := h.top
  refine ⟨h.toKeptBelow, h.loops, changes, fun entry hentry => ?_, htop⟩
  obtain ⟨name, hname, hkey⟩ := hnames entry hentry
  exact ⟨name, hsub hname, hkey⟩

/-- A scope that is untouched is kept. -/
theorem Untouched.keptBut (h : s.Untouched t) : KeptBut names s t := by
  unfold Untouched at h
  rw [h]
  exact ⟨⟨rfl, rfl, rfl, rfl, rfl, fun _ => rfl⟩, rfl, [], List.forall_mem_nil _, rfl⟩

theorem Untouched.keptBelow (h : s.Untouched t) : s.KeptBelow t :=
  have hkept : KeptBut [] s t := h.keptBut
  hkept.toKeptBelow

/-- **Setting a variable** keeps a scope but for its name. -/
theorem keptBut_set (s : Scope) (name : String) (v : Value) (h : name ∈ names) :
    KeptBut names s (s.set (.str name) v) := by
  have hlayers := s.layers_modifyTop (·.set (.str name) v)
  have hlower := congrArg List.tail hlayers
  have htop := congrArg List.head? hlayers
  rw [layers_eq_cons] at htop
  refine ⟨⟨?_, ?_, ?_, ?_, hlower, ?_⟩, ?_, [(.str name, v)], ?_, ?_⟩
  · unfold set modifyTop; split <;> rfl
  · unfold set modifyTop; split <;> rfl
  · unfold set modifyTop; split <;> rfl
  · rw [Scope.set, hlayers, s.layers_eq_cons]; rfl
  · intro _; unfold set modifyTop; split <;> rfl
  · unfold set modifyTop; split <;> rfl
  · intro entry hentry
    rw [List.mem_singleton.1 hentry]
    exact ⟨name, h, rfl⟩
  · exact Option.some.inj htop

theorem keptBelow_setCount (s : Scope) (count : Int) : s.KeptBelow (s.setCount count) := by
  unfold setCount
  split
  · exact keptBelow_refl s
  · next h => exact ⟨rfl, rfl, by simp [h], rfl, rfl, fun _ => rfl⟩

/-- **A loop is left as it was entered:** what is kept below the layer and the counters of a loop is
kept when the loop is left. -/
theorem keptBut_leaveLoop {length : Int} (h : (s.enterLoop length).KeptBelow t) :
    KeptBut names s t.leaveLoop.2 := by
  have hheight := h.height
  have hlower := h.lower
  have houter : t.loops.tail = s.loops := h.outer
  rw [length_layers, length_layers] at hheight
  have hentered : (s.enterLoop length).layers.tail = s.layers := rfl
  -- there is a layer to take off, and below it are those of the scope
  obtain ⟨layer, rest, hupper⟩ := List.exists_cons_of_length_eq_add_one (Nat.succ.inj hheight)
  have hrest : rest ++ [t.lowest] = s.layers := by
    rw [hentered, layers, hupper] at hlower
    exact hlower
  obtain ⟨hrest, hlowest⟩ := List.append_inj' hrest rfl
  have hleft : t.leaveLoop.2.upper = s.upper ∧ t.leaveLoop.2.lowest = s.lowest ∧
      t.leaveLoop.2.loops = t.loops.tail ∧ t.leaveLoop.2.autoescape = t.autoescape ∧
      t.leaveLoop.2.request = t.request ∧ (s.upper ≠ [] → t.leaveLoop.2.released = t.released) := by
    rw [List.singleton_inj] at hlowest
    unfold leaveLoop pop
    rw [hupper, ← hrest, ← hlowest]
    cases rest with
    | nil => exact ⟨rfl, rfl, rfl, rfl, rfl, fun hne => absurd rfl hne⟩
    | cons _ _ => exact ⟨rfl, rfl, rfl, rfl, rfl, fun _ => rfl⟩
  obtain ⟨hup, hlow, hloops, hauto, hrequest, hreleased⟩ := hleft
  have hlayers : t.leaveLoop.2.layers = s.layers := by rw [layers, hup, hlow, layers]
  have htop : t.leaveLoop.2.top = s.top := by rw [top, hup, hlow, top]
  refine ⟨⟨hauto.trans h.autoescape, hrequest.trans h.request, ?_, ?_, ?_, fun hne => ?_⟩, ?_, [],
    List.forall_mem_nil _, htop⟩
  · rw [hloops, houter]
  · rw [hlayers]
  · rw [hlayers]
  · exact (hreleased hne).trans (h.released (List.cons_ne_nil _ _))
  · rw [hloops, houter]

end Scope

/-! ## The parts of nodes -/

open Scope

theorem keeps_written (v : Option Value) : Keeps Untouched (written v) :=
  keeps_get.bind fun _ => keeps_host _

theorem keeps_argumentValue (e : Expression) : Keeps Untouched (argumentValue e) :=
  (e.keeps_resolve .strict).bind fun _ => Rendering.keeps_numbered _

theorem keeps_argumentValues (positional : List Expression)
    (keyword : List (String × Expression)) :
    Keeps Untouched (argumentValues positional keyword) := by
  refine (keeps_mapM keeps_argumentValue).bind fun values => ?_
  refine (keeps_mapM fun entry => ?_).bind fun named => keeps_get.bind fun _ => keeps_pure _
  exact (keeps_argumentValue entry.2).map

theorem keeps_assign {name : String} (v : Value) (h : name ∈ names) :
    Keeps (KeptBut names) (assign name v) := by
  refine ((Rendering.keeps_numbered v).mono fun _ _ => Untouched.keptBut).bind fun v => ?_
  exact keeps_modify fun s => keptBut_set s name v h

theorem keeps_deliver (target : Option String) (v : Value) :
    Keeps (KeptBut target.toList) (deliver target v) := by
  cases target with
  | none => exact (keeps_written _).mono fun _ _ => Untouched.keptBut
  | some name => exact (keeps_assign v List.mem_cons_self).bind fun _ => keeps_pure _

/-- **A route** assigns to its target at most. -/
theorem RouteCall.keeps_run (c : RouteCall) (routes : RouteTable) :
    Keeps (KeptBut c.target.toList) (c.run routes) := by
  unfold RouteCall.run
  have harguments := keeps_argumentValues c.positional c.keyword
  refine ((keeps_argumentValue c.route).mono fun _ _ => Untouched.keptBut).bind fun name => ?_
  refine (harguments.mono fun _ _ => Untouched.keptBut).bind fun arguments => ?_
  refine ((Rendering.keeps_current name).mono fun _ _ => Untouched.keptBut).bind fun name => ?_
  refine keeps_get.bind fun s => ?_
  dsimp only
  split
  · exact keeps_deliver _ _
  · split
    · exact keeps_pure _
    · exact keeps_throw _

/-- **A call** of a function that does not take the scope assigns to its target at most. -/
theorem TagCall.keeps_run (c : TagCall) (span : Span) (h : c.takesScope = false) :
    Keeps (KeptBut c.target.toList) (c.run span) := by
  unfold TagCall.run
  have harguments := keeps_argumentValues c.positional c.keyword
  refine (harguments.mono fun _ _ => Untouched.keptBut).bind fun arguments => ?_
  simp only [h, Bool.false_eq_true, if_false]
  refine keeps_get.bind fun s => ?_
  split
  · exact keeps_deliver _ _
  · exact keeps_fail _ _

theorem keeps_verdict (c : Condition Expression) : Keeps Untouched (verdict c) := by
  exact (keeps_lift c.untouched_evaluate).bind fun _ => keeps_host _

theorem keeps_withAutoescape (enabled : Bool) {body : Rendering String}
    (h : Keeps (KeptBut names) body) : Keeps (KeptBut names) (withAutoescape enabled body) := by
  intro s
  have hbody := h { s with autoescape := enabled }
  -- the setting of before is restored in whatever scope the body leaves
  have hleft : ((withAutoescape enabled body).run.run s).2 =
      { (body.run.run { s with autoescape := enabled }).2 with autoescape := s.autoescape } :=
    run_ending body (fun t => (.ok (), { t with autoescape := s.autoescape })) _
  rw [hleft]
  exact ⟨⟨rfl, hbody.request, hbody.outer, hbody.height, hbody.lower, hbody.released⟩, hbody.loops,
    hbody.top⟩

namespace LoopHeader

variable {h : LoopHeader} {body empty : Rendering String}

theorem keeps_items (h : LoopHeader) : Keeps Untouched h.items := by
  unfold items
  refine (h.iterable.keeps_resolve .strict).bind fun v? => ?_
  repeat' split
  all_goals first | exact keeps_pure _ | exact keeps_fail _ _

theorem keeps_unpack (h : LoopHeader) (item : Value) : Keeps Untouched (h.unpack item) := by
  unfold unpack
  dsimp only
  -- the item is only looked at
  repeat' split
  all_goals first | exact keeps_pure _ | exact keeps_fail _ _

theorem keeps_bind (h : LoopHeader) (item : Value) : Keeps KeptBelow (h.bind item) := by
  have hassign (name : String) (v : Value) : Keeps KeptBelow (assign name v) := by
    have hkept : Keeps (KeptBut [name]) (assign name v) := keeps_assign v List.mem_cons_self
    exact hkept.mono fun _ _ => KeptBut.toKeptBelow
  unfold LoopHeader.bind
  refine ((Rendering.keeps_current item).mono fun _ _ => Untouched.keptBelow).bind fun item => ?_
  split
  · exact hassign _ _
  · refine ((h.keeps_unpack item).mono fun _ _ => Untouched.keptBelow).bind fun values => ?_
    exact keeps_forM fun entry _ => hassign _ _

/-- The rounds of a loop keep what is below its layer and its counters. -/
theorem keeps_rounds (hbody : Keeps (KeptBut names) body) (count : Nat) (items : List Value) :
    Keeps KeptBelow (h.rounds body count items) := by
  -- what a round assigns lies in the layer of the loop
  induction items generalizing count with
  | nil => exact keeps_pure _
  | cons item rest ih =>
    unfold rounds
    refine (keeps_modify fun s => keptBelow_setCount s count).bind fun _ => ?_
    refine (h.keeps_bind item).bind fun _ => ?_
    refine (hbody.mono fun _ _ => KeptBut.toKeptBelow).bind fun _ => ?_
    exact (ih _).map

/-- **A loop** leaves nothing of what its rounds assign. -/
theorem keeps_run (hbody : Keeps (KeptBut more) body) (hempty : Keeps (KeptBut names) empty) :
    Keeps (KeptBut names) (h.run body empty) := by
  unfold run
  refine (h.keeps_items.mono fun _ _ => Untouched.keptBut).bind fun items => ?_
  split
  · exact hempty
  · -- from entering the loop to leaving it, whatever its rounds come to
    intro s
    have hrounds := keeps_rounds (h := h) hbody 0 items (s.enterLoop items.length)
    change KeptBut names s ((do
      return String.join (← ending (h.rounds body 0 items) Scope.leaveLoop) :
        Rendering String).run.run (s.enterLoop items.length)).2
    rw [run_map, run_ending]
    exact keptBut_leaveLoop hrounds

end LoopHeader

/-! ## Nodes -/

mutual

/-- A node keeps a scope but for the names that it assigns to. -/
theorem Node.keeps_render (routes : RouteTable) (node : Node) (h : node.takesScope = false) :
    Keeps (KeptBut node.assigned) (node.render routes) := by
  cases node with
  | text _ _ => exact keeps_pure _
  | translated _ _ => exact keeps_pure _
  | load _ => exact keeps_pure _
  | output _ e =>
    exact ((e.keeps_resolve .lenient).bind fun v => keeps_written v).mono fun _ _ =>
      Untouched.keptBut
  | autoescape _ enabled body => exact keeps_withAutoescape enabled (keeps_renderAll routes body h)
  | choice _ condition truthy falsey =>
    obtain ⟨htruthy, hfalsey⟩ := Bool.or_eq_false_iff.1 h
    unfold Node.render
    refine ((keeps_verdict condition).mono fun _ _ => Untouched.keptBut).bind fun holds => ?_
    split
    · exact (keeps_renderAll routes truthy htruthy).mono fun _ _ hk =>
        hk.mono (List.subset_append_left _ _)
    · exact (keeps_renderAll routes falsey hfalsey).mono fun _ _ hk =>
        hk.mono (List.subset_append_right _ _)
  | loop _ header body empty =>
    obtain ⟨hbody, hempty⟩ := Bool.or_eq_false_iff.1 h
    exact LoopHeader.keeps_run (keeps_renderAll routes body hbody)
      (keeps_renderAll routes empty hempty)
  | route _ call => exact call.keeps_run routes
  | call span call => exact call.keeps_run span h

/-- So do some nodes. -/
theorem keeps_renderAll (routes : RouteTable) (nodes : List Node) (h : anyTakesScope nodes = false) :
    Keeps (KeptBut (assignedBy nodes)) (renderAll routes nodes) := by
  cases nodes with
  | nil => exact keeps_pure _
  | cons node rest =>
    obtain ⟨hnode, hrest⟩ := Bool.or_eq_false_iff.1 h
    have hfirst := (Node.keeps_render routes node hnode).mono fun _ _ hk =>
      hk.mono (List.subset_append_left _ (assignedBy rest))
    have hothers := (keeps_renderAll routes rest hrest).mono fun _ _ hk =>
      hk.mono (List.subset_append_right node.assigned _)
    unfold renderAll
    refine Keeps.bind (Keeps.mapFault hfirst) fun _ => ?_
    exact hothers.map

end

/-- **Rendering leaves a scope as it found it,** also when it fails. For nodes of which none takes the
scope, the settings, the loops and all layers below the top one are as before, and in the top layer
only the variables differ that are assigned to outside of the rounds of loops. -/
theorem keptBut_renderAll (routes : RouteTable) (nodes : List Node) (s : Scope)
    (h : anyTakesScope nodes = false) :
    let left := ((renderAll routes nodes).run.run s).2
    left.autoescape = s.autoescape ∧ left.loops = s.loops ∧ left.request = s.request ∧
      left.layers.length = s.layers.length ∧ left.layers.tail = s.layers.tail ∧
      (∃ changes : Layer, (∀ entry ∈ changes, ∃ name ∈ assignedBy nodes, entry.1 = .str name) ∧
        left.top = s.top.setAll changes) ∧
      ∀ key, (∀ name ∈ assignedBy nodes, Value.alike (.str name) key = false) →
        left.top.get? key = s.top.get? key := by
  intro left
  have hkept : KeptBut (assignedBy nodes) s left := keeps_renderAll routes nodes h s
  obtain ⟨changes, hnames, htop⟩ := hkept.top
  refine ⟨hkept.autoescape, hkept.loops, hkept.request, hkept.height, hkept.lower,
    ⟨changes, hnames, htop⟩, fun key hkey => ?_⟩
  rw [htop]
  exact Layer.get?_setAll_of_ne s.top changes hnames hkey

/-- A loop in which a text is not a number ends in a fault, and nothing is left of it. -/
theorem keptBut_renderAll_autoescape :
    let use : FilterUse := ⟨⟨50, 6⟩, .builtin .center, some (.path ⟨57, 1⟩ "x" [])⟩
    let header : LoopHeader := ⟨["x"], ⟨24, 1⟩, ⟨.text ⟨30, 2⟩ "ab", []⟩, false⟩
    let nodes : List Node := [.autoescape ⟨0, 20⟩ false
      [.loop ⟨20, 20⟩ header [.output ⟨40, 22⟩ ⟨.text ⟨44, 4⟩ "text", [use]⟩] []]]
    let s := Scope.create (some [(.str "x", .int 1)]) true none
    let rendered := (renderAll {} nodes).run.run s
    rendered.1 = .error (.template (.here (.notAnInteger "a") ⟨57, 1⟩)) ∧
      rendered.2.autoescape = true ∧ rendered.2.loops = [] := by
  intro use header nodes s rendered
  obtain ⟨hauto, hloops, -⟩ := keptBut_renderAll {} nodes s rfl
  exact ⟨by cbv, hauto, hloops⟩

end Galley
