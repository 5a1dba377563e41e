import Galley.Proofs.Frame
import Galley.Proofs.Numbering
import Galley.Template
import Mathlib

/-!
# What rendering does to the variables of the caller

The dictionary that an application renders a template with is the layer that the template's tags
assign to outside of loops. It is not copied, so what they assign is still there afterwards, and the
next render with the same dictionary starts with it.

* `Template.render_caller`: what is left of the dictionary, and when a second render is like the
  first one.
* `Template.render_caller_route`: a route that is assigned to a variable.
-/

namespace Galley

open Scope

/-- **A dictionary as it was given** makes the scope that it has made before. -/
theorem Scope.create_given (layer : Layer) (autoescape : Bool) (request : Option Request) :
    create (some layer.given) autoescape request = create (some layer) autoescape request := by
  simp only [create, Layer.given_given]

/-- What is kept above the constants is the layer that was pushed first. -/
theorem Scope.KeptBut.firstPushed {names : List String} {layer : Layer} {s t : Scope}
    (h : KeptBut names s t) (hupper : s.upper = [layer]) (hreleased : s.released = none) :
    t.firstPushed = t.top := by
  have hne : s.upper ≠ [] := by
    rw [hupper]
    exact List.cons_ne_nil _ _
  have hheight := h.height
  rw [length_layers, length_layers, hupper] at hheight
  obtain ⟨top, htop⟩ := List.length_eq_one_iff.1 (Nat.succ.inj hheight)
  rw [Scope.firstPushed, Scope.top, h.released hne, hreleased, htop]
  rfl

namespace Template

variable (t : Template) (routes : RouteTable) (number : Nat) (layer : Layer) (autoescape : Bool)
  (request : Option Request)

/-- Rendering with a dictionary starts in the scope that is made of it. -/
theorem render_dict :
    t.render routes (.dict number layer) autoescape request =
      let scope := Scope.create (some layer) autoescape request
      ((t.renderIn routes scope).1,
        (t.renderIn routes scope).2.firstPushed.reduced (t.renderIn routes scope).2.remains) := rfl

/-- **What a template leaves of the dictionary** that it was rendered with. Without tags that take
the scope, there are changes to the variables that tags assign to outside of loops, and to lists
from which calls have taken items. If calls have not, the dictionary is as it was given exactly if
the changes do nothing to it. If it is as it was given, it is rendered to the same again. -/
theorem render_caller (h : anyTakesScope t.nodes = false) :
    let first := t.render routes (.dict number layer) autoescape request
    let left := (t.renderIn routes (Scope.create (some layer) autoescape request)).2
    ∃ changes : Layer, (∀ entry ∈ changes, ∃ name ∈ assignedBy t.nodes, entry.1 = .str name) ∧
      first.2 = (layer.given.setAll changes).reduced left.remains ∧
      (left.remains = [] →
        (first.2 = layer.given ↔ layer.given.setAll changes = layer.given)) ∧
      (first.2 = layer.given →
        t.render routes (.dict number first.2) autoescape request = first) := by
  intro first left
  have hkept := keeps_renderAll routes t.nodes h { Scope.create (some layer) autoescape request with
    bound := true, templateName := scopeName t.name }
  obtain ⟨changes, hnames, htop⟩ := hkept.top
  -- what is left to be changed at the end of a render says nothing about the layers
  have hfirst : first.2 = (layer.given.setAll changes).reduced left.remains :=
    congrArg (Layer.reduced left.remains) ((hkept.firstPushed rfl rfl).trans htop)
  refine ⟨changes, hnames, hfirst, fun hremains => ?_, fun hgiven => ?_⟩
  · rw [hfirst, hremains, Layer.reduced_nil]
  · rw [hgiven, render_dict, Scope.create_given]
    rfl

/-- A route that is assigned to in a loop leaves the dictionary as it was. -/
theorem render_caller_loop :
    let header : LoopHeader := ⟨["a"], ⟨7, 1⟩, ⟨.text ⟨13, 1⟩ "b", []⟩, false⟩
    let call : RouteCall := ⟨⟨.text ⟨26, 4⟩ "home", []⟩, [], [], some "x"⟩
    let t : Template := ⟨[], none, [.loop ⟨0, 18⟩ header [.route ⟨18, 21⟩ call] []]⟩
    let routes : RouteTable := { routes := [⟨"home", []⟩] }
    let first := t.render routes (.dict 0 [(.str "x", .int 1)]) true none
    first.2 = [(.str "x", .int 1)] ∧ t.render routes (.dict 0 first.2) true none = first := by
  intro header call t routes first
  obtain ⟨changes, hnames, hfirst, hsame, hagain⟩ :=
    render_caller t routes 0 [(.str "x", .int 1)] true none rfl
  have hchanges : changes = [] := by
    refine List.eq_nil_iff_forall_not_mem.2 fun entry hentry => ?_
    obtain ⟨name, hname, -⟩ := hnames entry hentry
    exact absurd hname List.not_mem_nil
  have hremains : (t.renderIn routes (Scope.create (some [(.str "x", .int 1)]) true none)).2.remains
      = [] := by cbv
  have hgiven := (hsame hremains).2 (by rw [hchanges]; rfl)
  exact ⟨hgiven, hagain hgiven⟩

/-- **A route that is assigned to a variable** stays in the dictionary of the caller, and the next
render finds it there. -/
theorem render_caller_route :
    let nodes : List Node := [.output ⟨0, 7⟩ ⟨.path ⟨3, 1⟩ "x" [], []⟩,
      .route ⟨7, 21⟩ ⟨⟨.text ⟨15, 4⟩ "home", []⟩, [], [], some "x"⟩]
    let t : Template := ⟨"\x7b\x7b x \x7d\x7d\x7b% url 'home' as x %\x7d".toList, none, nodes⟩
    let routes : RouteTable := { routes := [⟨"home", []⟩] }
    Galley.compile t.source [] = .ok nodes ∧
      t.render routes (.dict 0 []) true none = (.ok "", [(.str "x", .str "/")]) ∧
      t.render routes (.dict 0 [(.str "x", .str "/")]) true none =
        (.ok "/", [(.str "x", .str "/")]) := by
  intro nodes t routes
  have hscan : Token.scan t.source = [⟨.interpolation, ⟨0, 7⟩⟩, ⟨.tag, ⟨7, 21⟩⟩] := by decide +kernel
  refine ⟨?_, by cbv, by cbv⟩
  rw [Galley.compile, hscan]
  cbv

end Template

end Galley
