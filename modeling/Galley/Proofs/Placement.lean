import Galley.Compile
import Galley.Proofs.Cursor
import Galley.Resolve

/-!
# Trees that stand in a text

A compiled template remembers places of the text that it was compiled from, and reports at them what
goes wrong when it is rendered. A path is reported name by name, so all its names have to stand in
the text where their lengths say.

* `Atom.StandsIn`, `Expression.StandsIn`: what is looked up.
* `LoopHeader.StandsIn`, `RouteCall.StandsIn`, `TagCall.StandsIn`: what tags say about themselves.
* `Node.StandsIn`, `AllStandIn`: nodes.
* `Reader.standsIn_path`: a path that is read from the text has room in its place.
* `allStandIn_chainOf`: the nodes of a chain of branches.
-/

namespace Galley

variable {source : List Char}

/-- The length of names behind a value, each with the dot in front of it. -/
def namesLength : List String → Nat
  | [] => 0
  | name :: rest => name.length + 1 + namesLength rest

/-- The length of a path in a template; a literal has no path. -/
def Atom.pathLength : Atom → Nat
  | .path _ root names => root.length + namesLength names
  | .loop _ parents counter names => loopPathLength parents counter + namesLength names
  | _ => 0

/-- An atom **stands in** a text if its place lies there, and if its path has room in this place. -/
structure Atom.StandsIn (a : Atom) (source : List Char) : Prop where
  within : a.span.Within source
  path : a.pathLength ≤ a.span.length

/-- A filter in use stands in a text with its name and its argument. -/
structure FilterUse.StandsIn (use : FilterUse) (source : List Char) : Prop where
  name : use.span.Within source
  argument : ∀ a, use.argument = some a → a.StandsIn source

/-- An expression stands in a text with its atom and its filters. -/
structure Expression.StandsIn (e : Expression) (source : List Char) : Prop where
  head : e.head.StandsIn source
  filters : ∀ use ∈ e.filters, use.StandsIn source

/-- The header of a loop stands in a text with its names and, behind them, its expression. -/
structure LoopHeader.StandsIn (h : LoopHeader) (source : List Char) : Prop where
  names : h.namesSpan.Within source
  iterable : h.iterable.StandsIn source
  ordered : h.namesSpan.Before h.iterable.span.start

/-- A route stands in a text with its name and its arguments. -/
structure RouteCall.StandsIn (c : RouteCall) (source : List Char) : Prop where
  route : c.route.StandsIn source
  positional : ∀ e ∈ c.positional, e.StandsIn source
  keyword : ∀ entry ∈ c.keyword, entry.2.StandsIn source

/-- A call stands in a text with its arguments. -/
structure TagCall.StandsIn (c : TagCall) (source : List Char) : Prop where
  positional : ∀ e ∈ c.positional, e.StandsIn source
  keyword : ∀ entry ∈ c.keyword, entry.2.StandsIn source

mutual

/-- A node **stands in** a text with all that is reported in it. Conditions report nothing: what
cannot be resolved in them counts as false. -/
def Node.StandsIn (source : List Char) : Node → Prop
  | .output _ e => e.StandsIn source
  | .autoescape _ _ body => AllStandIn source body
  | .choice _ _ truthy falsey => AllStandIn source truthy ∧ AllStandIn source falsey
  | .loop _ header body empty =>
    header.StandsIn source ∧ AllStandIn source body ∧ AllStandIn source empty
  | .route _ call => call.StandsIn source
  | .call span call => span.Within source ∧ call.StandsIn source
  | _ => True

/-- All of some nodes do. -/
def AllStandIn (source : List Char) : List Node → Prop
  | [] => True
  | node :: rest => node.StandsIn source ∧ AllStandIn source rest

end

/-! ## Paths -/

theorem namesLength_cons (name : String) (rest : List String) :
    namesLength (name :: rest) = name.length + 1 + namesLength rest := rfl

/-- The pieces of a text as names. -/
theorem namesLength_map_ofList (x : Char) (pieces : List (List Char)) :
    namesLength (pieces.map String.ofList) = (pieces.flatMap (· ++ [x])).length := by
  induction pieces with
  | nil => rfl
  | cons piece rest ih =>
    rw [List.map_cons, namesLength_cons, ih, List.flatMap_cons, List.length_append,
      List.length_append, String.length_ofList]
    rfl

theorem namesLength_parents (names : List String) :
    namesLength names =
      ".parentloop".length * (Reader.parents names).1 + namesLength (Reader.parents names).2 := by
  induction names with
  | nil => rfl
  | cons name rest ih =>
    unfold Reader.parents
    split
    · next hname =>
      have hlength : name.length + 1 = ".parentloop".length := by
        rw [hname]
        rfl
      rw [namesLength_cons, ih, hlength]
      dsimp only
      rw [Nat.mul_succ]
      omega
    · simp only [Nat.mul_zero, Nat.zero_add]

theorem loopPathLength_counter (outer : Nat) (names : List String) :
    loopPathLength outer (Reader.counter names).1 + namesLength (Reader.counter names).2 =
      loopPathLength outer none + namesLength names := by
  cases names with
  | nil => rfl
  | cons name rest =>
    cases hc : LoopCounter.ofWord? name with
    | none => simp only [Reader.counter, hc]
    | some c =>
      have hword : c.word = name := by simpa using List.find?_some hc
      simp only [Reader.counter, hc, loopPathLength, namesLength_cons, hword]
      omega

/-- **A path** has room in its place. -/
theorem Reader.standsIn_path {r : Reader} {span : Span} (h : span.Within r.source) :
    (r.path span).StandsIn r.source := by
  have hpieces := Cursor.length_flatMap_splitOn '.' (span.slice r.source)
  have hslice : (span.slice r.source).length ≤ span.length := List.length_take_le _ _
  unfold path
  split
  · exact ⟨h, Nat.zero_le _⟩
  · next root names hp =>
    -- each name takes its dot with it, and one dot is missing
    have hroom : root.length + namesLength names ≤ span.length := by
      have hlengths : namesLength (root :: names) = (span.slice r.source).length + 1 := by
        rw [← hp, namesLength_map_ofList '.', hpieces]
      rw [namesLength_cons] at hlengths
      omega
    split
    · next hloop =>
      have hroot : root.length = "forloop".length := by
        simp only [Bool.and_eq_true, decide_eq_true_eq] at hloop
        rw [hloop.2]
      have hparents := namesLength_parents names
      have hcounter := loopPathLength_counter (parents names).1 (parents names).2
      have hloop : loopPathLength (parents names).1 none =
        "forloop".length + ".parentloop".length * (parents names).1 := rfl
      refine ⟨h, ?_⟩
      dsimp only [Atom.pathLength, Atom.span]
      omega
    · exact ⟨h, hroom⟩

/-! ## Trees -/

theorem allStandIn_iff {nodes : List Node} :
    AllStandIn source nodes ↔ ∀ node ∈ nodes, node.StandsIn source := by
  induction nodes with
  | nil => exact iff_of_true trivial (List.forall_mem_nil _)
  | cons node rest ih => rw [AllStandIn, ih, List.forall_mem_cons]

theorem AllStandIn.reverse {nodes : List Node} (h : AllStandIn source nodes) :
    AllStandIn source nodes.reverse :=
  allStandIn_iff.2 fun node hnode => allStandIn_iff.1 h node (List.mem_reverse.1 hnode)

theorem Expression.StandsIn.within {e : Expression} (h : e.StandsIn source) :
    e.span.Within source := by
  unfold Expression.span
  split
  · next use huse => exact (h.filters use (List.mem_of_getLast? huse)).name
  · exact h.head.within

/-- Where an expression and its filters start, the place that stands for it starts, too. -/
theorem Expression.start_le_span {e : Expression} {n : Nat} (h : n ≤ e.head.span.start)
    (hf : ∀ use ∈ e.filters, n ≤ use.span.start) : n ≤ e.span.start := by
  unfold Expression.span
  split
  · next use huse => exact hf use (List.mem_of_getLast? huse)
  · exact h

/-! ## Open parts -/

/-- An open part stands in a text with what has been read of its block. -/
def Part.StandsIn (source : List Char) : Part → Prop
  | .branch earlier .. | .otherwise earlier _ => ∀ b ∈ earlier, AllStandIn source b.body
  | .loop _ header => header.StandsIn source
  | .empty _ header body _ => header.StandsIn source ∧ AllStandIn source body
  | .autoescape .. => True

/-- The nodes of a chain of branches stand where the branches do. -/
theorem allStandIn_chainOf {branches : List Branch} {otherwise : List Node}
    (h : ∀ b ∈ branches, AllStandIn source b.body) (ho : AllStandIn source otherwise) :
    AllStandIn source (Compiler.chainOf branches otherwise) := by
  induction branches with
  | nil => exact ho
  | cons b rest ih =>
    obtain ⟨hb, hrest⟩ := List.forall_mem_cons.1 h
    exact ⟨⟨hb, ih hrest⟩, trivial⟩

end Galley
