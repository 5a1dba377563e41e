import Galley.Compile
import Galley.Proofs.Effects

/-!
# The verdict of a condition

A condition swallows what goes wrong in it: an operand that cannot be resolved counts as nothing, and
an operator that cannot be applied as false. It does not test the truth of all it answers, however:
the value of an operand that stands alone, or behind `and` and `or`, is handed on as it is, and is
tested only by the node.

* `Condition.Fails`: what goes wrong in a condition itself.
* `Condition.HandsOn`, `Condition.HandsOn.value_eq`: the value of an operand that a condition answers
  untested.
* `Condition.truth_of_fails`, `Condition.handsOn_or_tested`: a condition that fails counts as false, and
  one that hands nothing on has a truth.
* `render_choice`: **a node renders one of its branches, unless its condition hands on a value whose
  truth cannot be told.**
-/

namespace Galley

open Rendering

variable {c left right : Condition Expression} {e : Expression} {operator : Operator} {s : Scope}
  {v : Value} {error : HostError}

namespace Operator

/-- Whether an operator answers one of the values that it joins. -/
def isLogical : Operator → Bool
  | either | both => true
  | _ => false

/-- What `and` and `or` answer to two values is the second one. -/
theorem result?_of_isLogical (h : operator.isLogical) (a b : Value) :
    operator.result? a b = some b := by
  cases operator <;> first | rfl | cases h

/-- What all others answer was never a value before: it has a truth. -/
theorem truth_of_result? (h : operator.isLogical = false) {a b answer : Value}
    (hresult : operator.result? a b = some answer) : ∃ holds, answer.truth = .ok holds := by
  have hmap {x : Option Bool} {f : Bool → Value} (hf : ∀ holds, ∃ holds', (f holds).truth = .ok holds')
      (hx : x.map f = some answer) : ∃ holds, answer.truth = .ok holds := by
    obtain ⟨holds, -, rfl⟩ := Option.map_eq_some_iff.1 hx
    exact hf holds
  cases operator with
  | either => cases h
  | both => cases h
  | same | notSame | equal | notEqual =>
    cases hresult
    exact ⟨_, rfl⟩
  | member | notMember | greater | greaterEqual | less | lessEqual =>
    exact hmap (fun _ => ⟨_, rfl⟩) hresult

/-- **A value that decides** was tested, and one without a truth decides for false. -/
theorem truth_of_decided? {a answer : Value} (h : operator.decided? a = some answer) :
    ∃ holds, answer.truth = .ok holds := by
  unfold decided? at h
  split at h
  · next holds ha =>
    split at h
    · cases h
      exact ⟨_, ha⟩
    · cases h
  · next holds ha =>
    split at h
    · cases h
    · cases h
      exact ⟨_, ha⟩
  · cases h
    exact ⟨false, rfl⟩
  · cases h
    exact ⟨false, rfl⟩
  · cases h

theorem decided?_of_error (h : operator.isLogical) {a : Value} (ha : a.truth = .error error) :
    operator.decided? a = some (.bool false) := by
  cases operator with
  | either | both => simp only [decided?, ha]
  | _ => cases h

end Operator

namespace Condition

/-- **What goes wrong in a condition.** Its operand cannot be resolved, what it negates or tests first
has no truth, its operator cannot be applied, or the last of its alternatives fails. -/
inductive Fails : Condition Expression → Scope → Prop
  | operand {e : Expression} {s s' : Scope} {fault : Fault}
    (h : (e.resolve .lenient).run.run s = (.error fault, s')) : Fails (.operand e) s
  | negation {c : Condition Expression} {s : Scope} {error : HostError}
    (h : (c.evaluate.run s).1.truth = .error error) : Fails (.negation c) s
  | left {operator : Operator} {left right : Condition Expression} {s : Scope} {error : HostError}
    (hop : operator.isLogical) (h : (left.evaluate.run s).1.truth = .error error) :
    Fails (.binary operator left right) s
  | right {operator : Operator} {left right : Condition Expression} {s : Scope}
    (hop : operator.isLogical) (hopen : operator.decided? (left.evaluate.run s).1 = none)
    (h : right.Fails (left.evaluate.run s).2) : Fails (.binary operator left right) s
  | result {operator : Operator} {left right : Condition Expression} {s t : Scope} {b : Value}
    (hopen : operator.decided? (left.evaluate.run s).1 = none)
    (hright : right.evaluate.run (left.evaluate.run s).2 = (b, t))
    (h : operator.result? (t.current (left.evaluate.run s).1) b = none) :
    Fails (.binary operator left right) s

/-- **What a condition hands on untested**: the value of an operand that is the whole condition, or
stands behind an `and` or `or` that its left side does not decide. -/
inductive HandsOn : Condition Expression → Scope → Value → Prop
  | operand {e : Expression} {s s' : Scope} {v : Value}
    (h : (e.resolve .lenient).run.run s = (.ok (some v), s')) : HandsOn (.operand e) s v
  | right {operator : Operator} {left right : Condition Expression} {s : Scope} {v : Value}
    (hop : operator.isLogical) (hopen : operator.decided? (left.evaluate.run s).1 = none)
    (h : right.HandsOn (left.evaluate.run s).2 v) : HandsOn (.binary operator left right) s v

/-! ## The value of a condition -/

/-- An operand that resolves to no value counts as nothing. -/
theorem run_operand (e : Expression) (s : Scope) :
    (operand e).evaluate.run s =
      match (e.resolve .lenient).run.run s with
      | (.ok (some v), s') => (v, s')
      | (_, s') => (.none, s') := by
  change e.operandValue.run s = _
  unfold Expression.operandValue
  rw [run_bind_state]
  rcases (e.resolve .lenient).run.run s with ⟨_ | _ | _, s'⟩ <;> rfl

theorem run_binary_of_decided {answer : Value}
    (h : operator.decided? (left.evaluate.run s).1 = some answer) :
    (binary operator left right).evaluate.run s = (answer, (left.evaluate.run s).2) := by
  conv => lhs; unfold evaluate
  rw [run_bind_state, h]
  rfl

theorem run_binary_of_open (h : operator.decided? (left.evaluate.run s).1 = none) :
    (binary operator left right).evaluate.run s =
      let last := right.evaluate.run (left.evaluate.run s).2
      ((operator.result? (last.2.current (left.evaluate.run s).1) last.1).getD (.bool false),
        last.2) := by
  conv => lhs; unfold evaluate
  rw [run_bind_state, h]
  rfl

/-- The last of several alternatives is the answer to all of them. -/
theorem value_of_last (hop : operator.isLogical)
    (hopen : operator.decided? (left.evaluate.run s).1 = none) :
    ((binary operator left right).evaluate.run s).1 =
      (right.evaluate.run (left.evaluate.run s).2).1 := by
  rw [run_binary_of_open hopen]
  dsimp only
  rw [Operator.result?_of_isLogical hop, Option.getD_some]

/-- What a condition hands on is its value. -/
theorem HandsOn.value_eq (h : c.HandsOn s v) : (c.evaluate.run s).1 = v := by
  induction h with
  | operand h => rw [run_operand, h]
  | right hop hopen _ ih => rw [value_of_last hop hopen, ih]

/-- **A condition that fails counts as false.** -/
theorem truth_of_fails (h : c.Fails s) : (c.evaluate.run s).1.truth = .ok false := by
  induction h with
  | operand h =>
    rw [run_operand, h]
    rfl
  | @negation c s error h =>
    change (c.evaluate.run s).1.negated.truth = _
    rw [Value.negated, h]
    rfl
  | left hop h =>
    rw [run_binary_of_decided (Operator.decided?_of_error hop h)]
    rfl
  | right hop hopen _ ih => rw [value_of_last hop hopen, ih]
  | result hopen hright h =>
    rw [run_binary_of_open hopen, hright]
    dsimp only
    rw [h]
    rfl

/-- **A condition has a truth unless it hands on its value.** -/
theorem handsOn_or_tested (c : Condition Expression) (s : Scope) :
    c.HandsOn s (c.evaluate.run s).1 ∨ ∃ holds, (c.evaluate.run s).1.truth = .ok holds := by
  -- the right side is looked at in the scope that the left side leaves
  induction c generalizing s with
  | operand e =>
    rw [run_operand]
    cases hrun : (e.resolve .lenient).run.run s with
    | mk outcome s' =>
      rcases outcome with fault | _ | v
      · exact .inr ⟨false, rfl⟩
      · exact .inr ⟨false, rfl⟩
      · exact .inl (.operand hrun)
  | negation c ih =>
    refine .inr ?_
    change ∃ holds, (c.evaluate.run s).1.negated.truth = _
    unfold Value.negated
    split <;> exact ⟨_, rfl⟩
  | binary operator left right ihl ihr =>
    cases hdecided : operator.decided? (left.evaluate.run s).1 with
    | some answer =>
      rw [run_binary_of_decided hdecided]
      exact .inr (Operator.truth_of_decided? hdecided)
    | none =>
      cases hop : operator.isLogical with
      | true =>
        rw [value_of_last hop hdecided]
        exact (ihr _).imp_left (.right hop hdecided)
      | false =>
        rw [run_binary_of_open hdecided]
        dsimp only
        cases hresult : operator.result? _ _ with
        | none => exact .inr ⟨false, rfl⟩
        | some answer => exact .inr (Operator.truth_of_result? hop hresult)

end Condition

/-! ## Branches -/

section Branches

variable (routes : RouteTable) (span : Span) (c : Condition Expression) (truthy falsey : List Node)
  (s : Scope)

/-- A node takes the branch that the truth of its condition tells. -/
theorem run_choice_of_truth {holds : Bool} (h : (c.evaluate.run s).1.truth = .ok holds) :
    ((Node.choice span c truthy falsey).render routes).run.run s =
      (renderAll routes (if holds then truthy else falsey)).run.run (c.evaluate.run s).2 := by
  have hverdict : (verdict c).run.run s = (.ok holds, (c.evaluate.run s).2) := by
    change (host (c.evaluate.run s).1.truth).run.run (c.evaluate.run s).2 = _
    rw [h]
    rfl
  rw [Node.render, run_bind, hverdict]
  cases holds <;> rfl

/-- Without a truth it ends in the error of asking for it. -/
theorem run_choice_of_error {error : HostError} (h : (c.evaluate.run s).1.truth = .error error) :
    ((Node.choice span c truthy falsey).render routes).run.run s =
      (.error (.host error), (c.evaluate.run s).2) := by
  have hverdict : (verdict c).run.run s = (.error (.host error), (c.evaluate.run s).2) := by
    change (host (c.evaluate.run s).1.truth).run.run (c.evaluate.run s).2 = _
    rw [h]
    rfl
  rw [Node.render, run_bind, hverdict]

end Branches

/-- **A node renders one of its branches**, in a scope that its condition has only looked at, and
raises what that branch raises; the second one if the condition fails. The one exception is a condition
that hands on a value whose truth cannot be told: its error is that of the node. -/
theorem render_choice (routes : RouteTable) (span : Span) (c : Condition Expression)
    (truthy falsey : List Node) (s : Scope) :
    let node := ((Node.choice span c truthy falsey).render routes).run.run s
    let v := (c.evaluate.run s).1
    let s' := (c.evaluate.run s).2
    s.Untouched s' ∧
      ((∃ holds, v.truth = .ok holds ∧ (c.Fails s → holds = false) ∧
          node = (renderAll routes (if holds then truthy else falsey)).run.run s') ∨
        ∃ e, c.HandsOn s v ∧ v.truth = .error e ∧ node = (.error (.host e), s')) := by
  intro node v s'
  refine ⟨c.untouched_evaluate s, ?_⟩
  cases htruth : v.truth with
  | ok holds =>
    refine .inl ⟨holds, rfl, fun hfails => ?_, run_choice_of_truth routes span c truthy falsey s htruth⟩
    have hfalse : v.truth = .ok false := Condition.truth_of_fails hfails
    rw [htruth] at hfalse
    cases hfalse
    rfl
  | error e =>
    refine .inr ⟨e, ?_, rfl, run_choice_of_error routes span c truthy falsey s htruth⟩
    rcases c.handsOn_or_tested s with hhands | ⟨holds, htested⟩
    · exact hhands
    · cases htruth.symm.trans htested

/-- A variable alone, whose value raises an error when it is asked for its truth: neither of the two
branches is rendered, in whatever scope. -/
theorem choice_without_branch :
    let x : Value := .object ⟨1, "Obj", "<obj>", "<obj>", false, some (.valueError "no")⟩ [] none
    let c : Condition Expression := .operand ⟨.path ⟨6, 1⟩ "x" [], []⟩
    let truthy : List Node := [.text ⟨10, 1⟩ "a"]
    let falsey : List Node := [.text ⟨21, 1⟩ "b"]
    let node : Node := .choice ⟨0, 10⟩ c truthy falsey
    let s := Scope.create (some [(.str "x", x)]) true none
    compile "{% if x %}a{% else %}b{% endif %}".toList [] = .ok [node] ∧
      c.HandsOn s x ∧
      ((node.render {}).run.run s).1 = .error (.host (.valueError "no")) ∧
      ∀ branch ∈ [truthy, falsey], ∀ s', (node.render {}).run.run s ≠ (renderAll {} branch).run.run s' := by
  intro x c truthy falsey node s
  have hscan : Token.scan "{% if x %}a{% else %}b{% endif %}".toList =
      [⟨.tag, ⟨0, 10⟩⟩, ⟨.text, ⟨10, 1⟩⟩, ⟨.tag, ⟨11, 10⟩⟩, ⟨.text, ⟨21, 1⟩⟩, ⟨.tag, ⟨22, 11⟩⟩] := by
    decide +kernel
  have hrun : ((node.render {}).run.run s).1 = .error (.host (.valueError "no")) := rfl
  refine ⟨by rw [compile, hscan]; rfl, .operand rfl, hrun, fun branch hbranch s' heq => ?_⟩
  rw [heq] at hrun
  simp only [List.mem_cons, List.not_mem_nil, or_false] at hbranch
  rcases hbranch with rfl | rfl <;> cases hrun

end Galley
