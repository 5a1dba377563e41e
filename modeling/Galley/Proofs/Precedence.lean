import Galley.Proofs.Acceptance

/-!
# The tree of a condition

A tree of operators is written as the row of its words, and many trees are written the same. The
powers of the operators tell which of them is meant: in a tree that respects them no operator takes
an operand that another one next to it holds on to more tightly, and of the trees that are written
alike only one does.

* `items`: the words of a tree, in their order.
* `Bound`: a tree that respects the powers of its operators.
* `Progress.Sound`, `Progress.sound_next`, `Progress.sound_foldlM`: what every word keeps true of
  the operators that wait for an operand.
* `foldlM_items`: the words of a tree that respects the powers, read one by one, build this tree.
* `parse_eq_ok_iff_bound`: the tree of a condition is the one that respects the powers.
-/

namespace Galley.Condition

variable {α : Type} {source : List Char}

/-! ## Trees that respect the powers -/

/-- **The words of a tree**, from the first to the last. -/
def items : Condition α → List (ConditionItem α)
  | operand value => [.operand value]
  | negation c => .operator "not" :: c.items
  | binary operator left right => left.items ++ .operator operator.symbol :: right.items

/-- The power of the operator at the root, if it stands between two operands. -/
def power? : Condition α → Option Nat
  | binary operator _ _ => some operator.power
  | _ => none

/-- Whether a `not` lies on the right edge of a tree, so that it would hold on to whatever follows. -/
def NegatesLast : Condition α → Prop
  | operand _ => False
  | negation _ => True
  | binary _ _ right => right.NegatesLast

/-- **A tree respects the powers** if every operator holds on to its operands more tightly than an
operator inside them does: to the left one at least as tightly, to the right one more tightly. An
operator that binds tighter than `not` has no `not` on the right edge of its left operand. -/
def Bound : Condition α → Prop
  | operand _ => True
  | negation c => c.Bound ∧ ∀ p, c.power? = some p → Operator.notPower < p
  | binary operator left right =>
    left.Bound ∧ right.Bound ∧
      (∀ p, left.power? = some p → operator.power ≤ p) ∧
      (∀ p, right.power? = some p → operator.power < p) ∧
      (Operator.notPower < operator.power → ¬ left.NegatesLast)

theorem ofSymbol?_symbol (operator : Operator) :
    Operator.ofSymbol? operator.symbol = some operator := by
  cases operator <;> decide

theorem symbol_of_ofSymbol? {symbol : String} {operator : Operator}
    (h : Operator.ofSymbol? symbol = some operator) : operator.symbol = symbol := by
  simpa using List.find?_some h

/-! ## The operators that wait -/

/-- The words of an operator that waits for its right operand. -/
def Pending.items : Pending α → List (ConditionItem α)
  | negation => [.operator "not"]
  | binary left operator => left.items ++ [.operator operator.symbol]

/-- The words of all that wait, the latest of which is the first. -/
def waitingItems : List (Pending α) → List (ConditionItem α)
  | [] => []
  | p :: rest => waitingItems rest ++ p.items

/-- A tree **fits** behind the operators that wait if the latest of them leaves it whole. -/
def Fits (c : Condition α) (waiting : List (Pending α)) : Prop :=
  ∀ p, c.power? = some p → ∀ w ∈ waiting.head?, w.power < p

/-- A tree may be the left operand of an operator with a power. -/
structure Yields (c : Condition α) (power : Nat) : Prop where
  bound : c.Bound
  le : ∀ p, c.power? = some p → power ≤ p
  negates : Operator.notPower < power → ¬ c.NegatesLast

/-- The operators that wait **ascend**: each one with a left operand holds on to its right operand
more tightly than the one before it does, and has a left operand that it may have. -/
inductive Ascending : List (Pending α) → Prop
  | nil : Ascending []
  | negation {rest : List (Pending α)} (h : Ascending rest) : Ascending (.negation :: rest)
  | binary {left : Condition α} {operator : Operator} {rest : List (Pending α)}
    (h : Ascending rest) (hl : left.Yields operator.power)
    (hp : ∀ w ∈ rest.head?, w.power < operator.power) :
    Ascending (.binary left operator :: rest)

theorem yields_operand (value : α) (power : Nat) : (operand value).Yields power :=
  ⟨trivial, nofun, fun _ => id⟩

/-- **Giving an operand away** to the operators that hold on to it keeps what is known of both. -/
theorem reduce_sound {power : Nat} {c : Condition α} {waiting : List (Pending α)}
    (hw : Ascending waiting) (hc : c.Yields power) (hf : c.Fits waiting) :
    let r := reduce power c waiting
    r.1.Yields power ∧ Ascending r.2 ∧ (∀ w ∈ r.2.head?, w.power < power) ∧
      waitingItems r.2 ++ r.1.items = waitingItems waiting ++ c.items := by
  induction hw generalizing c with
  | nil => exact ⟨hc, .nil, nofun, rfl⟩
  | @negation rest h ih =>
    simp only [reduce]
    split
    · next hle =>
      have hyields : (negation c).Yields power :=
        ⟨⟨hc.bound, fun p hp => hf p hp _ rfl⟩, nofun, fun hlt => absurd hle (Nat.not_le.2 hlt)⟩
      obtain ⟨h1, h2, h3, h4⟩ := ih hyields nofun
      refine ⟨h1, h2, h3, h4.trans ?_⟩
      simp [waitingItems, Pending.items, items]
    · next hgt =>
      refine ⟨hc, .negation h, ?_, rfl⟩
      rintro w ⟨⟩
      exact Nat.not_le.1 hgt
  | @binary left operator rest h hl hp ih =>
    simp only [reduce]
    split
    · next hle =>
      have hyields : (binary operator left c).Yields power := by
        refine ⟨⟨hl.bound, hc.bound, hl.le, fun p hp => hf p hp _ rfl, hl.negates⟩, ?_, hc.negates⟩
        rintro p ⟨⟩
        exact hle
      have hfits : (binary operator left c).Fits rest := by
        rintro p ⟨⟩
        exact hp
      obtain ⟨h1, h2, h3, h4⟩ := ih hyields hfits
      refine ⟨h1, h2, h3, h4.trans ?_⟩
      simp [waitingItems, Pending.items, items]
    · next hgt =>
      refine ⟨hc, .binary h hl hp, ?_, rfl⟩
      rintro w ⟨⟩
      exact Nat.not_le.1 hgt

/-- At the end all operators get their operand. -/
theorem reduce_zero (c : Condition α) (waiting : List (Pending α)) :
    (reduce 0 c waiting).2 = [] := by
  induction waiting generalizing c with
  | nil => rfl
  | cons w rest ih => simp only [reduce, Nat.zero_le, if_true, ih]

namespace Progress

/-- **What is known while a condition is read**: the operators that wait ascend, what stands before
the next word is one operand, and no word was lost. -/
structure Sound (p : Progress α) (read : List (ConditionItem α)) : Prop where
  ascending : Ascending p.waiting
  operand : ∀ c, p.operand = some c → ∃ value, c = .operand value
  items : waitingItems p.waiting ++ p.operand.elim [] Condition.items = read

variable {p p' : Progress α} {read : List (ConditionItem α)} {token : ConditionToken α}
  {tokens : List (ConditionToken α)}

/-- **Every word keeps it.** -/
theorem sound_next (h : p.Sound read) (hnext : p.next source token = .ok p') :
    p'.Sound (read ++ [token.item]) := by
  obtain ⟨waiting, operand, last⟩ := p
  obtain ⟨span, item⟩ := token
  obtain ⟨hw, hoperand, rfl⟩ := h
  cases operand <;> cases item
  · next value =>
    cases hnext
    refine ⟨hw, ?_, by simp [Condition.items]⟩
    rintro c ⟨⟩
    exact ⟨value, rfl⟩
  · next symbol =>
    simp only [next] at hnext
    split at hnext
    · next hs =>
      cases hnext
      subst hs
      refine ⟨.negation hw, ?_, by simp [waitingItems, Pending.items]⟩
      rintro c ⟨⟩
    · cases hnext
  · cases hnext
  · next c symbol =>
    obtain ⟨value, rfl⟩ := hoperand c rfl
    cases ho : Operator.ofSymbol? symbol with
    | none => simp [next, ho] at hnext
    | some operator =>
      simp only [next, ho, Except.ok.injEq] at hnext
      subst hnext
      have hfits : (Condition.operand value).Fits waiting := by rintro power ⟨⟩
      obtain ⟨hyields, hascending, hlt, hitems⟩ :=
        reduce_sound hw (yields_operand value operator.power) hfits
      refine ⟨.binary hascending hyields hlt, ?_, ?_⟩
      · rintro c ⟨⟩
      have hsymbol := symbol_of_ofSymbol? ho
      subst hsymbol
      simp only [waitingItems, Pending.items, Option.elim_none, List.append_nil, Option.elim_some]
      rw [← List.append_assoc, hitems]

/-- So does a whole row of words. -/
theorem sound_foldlM (h : p.Sound read) (hrun : tokens.foldlM (next source) p = .ok p') :
    p'.Sound (read ++ tokens.map (·.item)) := by
  induction tokens generalizing p read with
  | nil =>
    cases hrun
    simpa using h
  | cons token rest ih =>
    rw [List.foldlM_cons, bind_eq_ok] at hrun
    obtain ⟨middle, hmiddle, hrest⟩ := hrun
    have := ih (sound_next h hmiddle) hrest
    rwa [List.append_assoc] at this

/-- The tree at the end is written with the words that were read, and respects the powers. -/
theorem Sound.finish {c : Condition α} (h : p.Sound read) (hc : p.finish = .ok c) :
    c.Bound ∧ c.items = read := by
  obtain ⟨waiting, operand, last⟩ := p
  obtain ⟨hw, hoperand, rfl⟩ := h
  cases operand with
  | none => cases hc
  | some o =>
    obtain ⟨value, rfl⟩ := hoperand o rfl
    cases hc
    obtain ⟨hyields, -, -, hitems⟩ := reduce_sound hw (yields_operand value 0) nofun
    rw [reduce_zero] at hitems
    exact ⟨hyields.bound, hitems⟩

end Progress

/-! ## Reading the words of a tree -/

/-- The operators on the right edge of a tree as they wait before the last operand is read, the
innermost first. -/
def edge : Condition α → List (Pending α)
  | operand _ => []
  | negation c => c.edge ++ [.negation]
  | binary operator left right => right.edge ++ [.binary left operator]

/-- The last operand of a tree. -/
def lastValue : Condition α → α
  | operand value => value
  | negation c => c.lastValue
  | binary _ _ right => right.lastValue

/-- The operators on the edge, given the last operand, make the tree. -/
theorem foldl_edge (c : Condition α) :
    c.edge.foldl (fun c w => w.apply c) (.operand c.lastValue) = c := by
  induction c with
  | operand value => rfl
  | negation c ih => rw [edge, lastValue, List.foldl_append, ih]; rfl
  | binary operator left right _ ih => rw [edge, lastValue, List.foldl_append, ih]; rfl

/-- The operators on the edge of a left operand hold on to their operands. -/
theorem le_power_of_mem_edge {c : Condition α} {power : Nat} (h : c.Yields power) :
    ∀ w ∈ c.edge, power ≤ w.power := by
  induction c with
  | operand value => exact nofun
  | negation c ih =>
    obtain ⟨hc, hp⟩ := h.bound
    have hle : power ≤ Operator.notPower := Nat.not_lt.1 fun hlt => h.negates hlt trivial
    have hyields : c.Yields power :=
      ⟨hc, fun p h => Nat.le_trans hle (Nat.le_of_lt (hp p h)),
        fun hlt => absurd hle (Nat.not_le.2 hlt)⟩
    intro w hw
    rcases List.mem_append.1 hw with hw | hw
    · exact ih hyields w hw
    · rw [List.mem_singleton.1 hw]
      exact hle
  | binary operator left right _ ih =>
    obtain ⟨-, hright, -, hp, -⟩ := h.bound
    have hle : power ≤ operator.power := h.le _ rfl
    have hyields : right.Yields power :=
      ⟨hright, fun p h => Nat.le_trans hle (Nat.le_of_lt (hp p h)), h.negates⟩
    intro w hw
    rcases List.mem_append.1 hw with hw | hw
    · exact ih hyields w hw
    · rw [List.mem_singleton.1 hw]
      exact hle

/-- Operators that hold on to an operand get it. -/
theorem reduce_append {power : Nat} {first waiting : List (Pending α)} (c : Condition α)
    (h : ∀ w ∈ first, power ≤ w.power) :
    reduce power c (first ++ waiting) =
      reduce power (first.foldl (fun c w => w.apply c) c) waiting := by
  induction first generalizing c with
  | nil => rfl
  | cons w rest ih =>
    obtain ⟨hw, hrest⟩ := List.forall_mem_cons.1 h
    simp only [List.cons_append, reduce, if_pos hw, List.foldl_cons, ih _ hrest]

/-- **A left operand is complete** when the operator behind it is read. -/
theorem reduce_edge {c : Condition α} {power : Nat} {waiting : List (Pending α)}
    (h : c.Yields power) (hw : ∀ w ∈ waiting.head?, w.power < power) :
    reduce power (.operand c.lastValue) (c.edge ++ waiting) = (c, waiting) := by
  rw [reduce_append _ (le_power_of_mem_edge h), foldl_edge]
  cases waiting with
  | nil => rfl
  | cons w rest => rw [reduce, if_neg (Nat.not_le.2 (hw w rfl))]

/-- **Reading the words of a tree** leaves the operators on its edge waiting, if it respects the
powers and fits behind those that waited before. -/
theorem foldlM_items {c : Condition α} {tokens : List (ConditionToken α)} {p : Progress α}
    (source : List Char) (hb : c.Bound) (hf : c.Fits p.waiting) (hp : p.operand = none)
    (hitems : tokens.map (·.item) = c.items) :
    ∃ last, tokens.foldlM (Progress.next source) p =
      .ok ⟨c.edge ++ p.waiting, some (.operand c.lastValue), last⟩ := by
  induction c generalizing tokens p with
  | operand value =>
    obtain ⟨token, rest, rfl, hitem, hrest⟩ := List.map_eq_cons_iff.1 hitems
    obtain rfl := List.map_eq_nil_iff.1 hrest
    exact ⟨token.span, by simp [Progress.next, hp, hitem, edge, lastValue]⟩
  | negation c ih =>
    obtain ⟨token, rest, rfl, hitem, hrest⟩ := List.map_eq_cons_iff.1 hitems
    have hnext : p.next source token = .ok ⟨.negation :: p.waiting, none, token.span⟩ := by
      simp [Progress.next, hp, hitem]
    have hfits : c.Fits (.negation :: p.waiting) := by
      rintro q hq w ⟨⟩
      exact hb.2 q hq
    obtain ⟨last, hlast⟩ := ih (p := ⟨.negation :: p.waiting, none, token.span⟩) hb.1 hfits rfl hrest
    refine ⟨last, ?_⟩
    rw [foldlM_cons_of_ok hnext, hlast]
    simp [edge, lastValue]
  | binary operator left right ihl ihr =>
    obtain ⟨hbl, hbr, hl, hr, hnegates⟩ := hb
    obtain ⟨before, behind, rfl, hbefore, hbehind⟩ := List.map_eq_append_iff.1 hitems
    obtain ⟨token, after, rfl, hitem, hafter⟩ := List.map_eq_cons_iff.1 hbehind
    -- the latest operator that waits leaves the whole tree to this one
    have hwaiting : ∀ w ∈ p.waiting.head?, w.power < operator.power := hf _ rfl
    have hfitsl : left.Fits p.waiting := fun q hq w hw =>
      Nat.lt_of_lt_of_le (hwaiting w hw) (hl q hq)
    have hfitsr : right.Fits (.binary left operator :: p.waiting) := by
      rintro q hq w ⟨⟩
      exact hr q hq
    obtain ⟨span, hleft⟩ := ihl hbl hfitsl hp hbefore
    have hnext : Progress.next source
        ⟨left.edge ++ p.waiting, some (.operand left.lastValue), span⟩ token =
          .ok ⟨.binary left operator :: p.waiting, none, token.span⟩ := by
      simp only [Progress.next, hitem, ofSymbol?_symbol]
      rw [reduce_edge ⟨hbl, hl, hnegates⟩ hwaiting]
    obtain ⟨last, hright⟩ := ihr (p := ⟨.binary left operator :: p.waiting, none, token.span⟩)
      hbr hfitsr rfl hafter
    refine ⟨last, ?_⟩
    rw [List.foldlM_append, bind_eq_ok]
    refine ⟨_, hleft, ?_⟩
    rw [foldlM_cons_of_ok hnext, hright]
    simp [edge, lastValue]

variable {tag : Span} {tokens : List (ConditionToken α)} {c : Condition α}

theorem bound_of_parse (h : parse source tag tokens = .ok c) :
    c.Bound ∧ c.items = tokens.map (·.item) := by
  have hne : tokens ≠ [] := by
    rintro rfl
    cases h
  rw [parse_eq_foldlM source tag hne, bind_eq_ok] at h
  obtain ⟨p, hp, hc⟩ := h
  have hstart : Progress.Sound (α := α) ⟨[], none, tag⟩ [] := ⟨.nil, nofun, rfl⟩
  exact (Progress.sound_foldlM hstart hp).finish hc

theorem parse_of_bound (source : List Char) (tag : Span) (hb : c.Bound)
    (hitems : c.items = tokens.map (·.item)) : parse source tag tokens = .ok c := by
  have hne : tokens ≠ [] := by
    rintro rfl
    cases c <;> simp [items] at hitems
  obtain ⟨last, hlast⟩ := foldlM_items (p := ⟨[], none, tag⟩) source hb nofun rfl hitems.symm
  have hyields : c.Yields 0 := ⟨hb, fun _ _ => Nat.zero_le _, nofun⟩
  have hend : reduce 0 (.operand c.lastValue) (c.edge ++ []) = (c, []) := reduce_edge hyields nofun
  rw [parse_eq_foldlM source tag hne, hlast]
  simp only [bind, Except.bind, Progress.finish, hend]

/-- Two trees that respect the powers and are written alike are the same. -/
theorem eq_of_items_eq {c' : Condition α} (hb : c.Bound) (hb' : c'.Bound)
    (h : c.items = c'.items) : c = c' := by
  let tokens : List (ConditionToken α) := c.items.map fun item => ⟨⟨0, 0⟩, item⟩
  have hitems : c.items = tokens.map (·.item) := by simp [tokens, Function.comp_def]
  have hparse := parse_of_bound [] ⟨0, 0⟩ hb hitems
  rw [parse_of_bound [] ⟨0, 0⟩ hb' (h.symm.trans hitems)] at hparse
  cases hparse
  rfl

/-- Of two operators in a row the second takes what the first has made, unless it binds tighter. -/
theorem bound_of_two (first second : Operator) (a b d : α) :
    (if second.power ≤ first.power then
        binary second (binary first (.operand a) (.operand b)) (.operand d)
      else binary first (.operand a) (binary second (.operand b) (.operand d))).Bound := by
  split
  · next hle =>
    refine ⟨⟨trivial, trivial, nofun, nofun, fun _ => id⟩, trivial, ?_, nofun, fun _ => id⟩
    rintro p ⟨⟩
    exact hle
  · next hgt =>
    refine ⟨trivial, ⟨trivial, trivial, nofun, nofun, fun _ => id⟩, nofun, ?_, fun _ => id⟩
    rintro p ⟨⟩
    exact Nat.not_le.1 hgt

/-- **The tree of a condition** is the one that is written with its words and respects the powers of
its operators, and there are no two such trees. The powers ascend from `or` over `and`, `not` and
the two of `in` to the comparisons and the two of `is`; of two operators in a row the second takes
what the first has made, unless it has the greater power. -/
theorem parse_eq_ok_iff_bound (source : List Char) (tag : Span) (tokens : List (ConditionToken α)) :
    (∀ c, parse source tag tokens = .ok c ↔ c.items = tokens.map (·.item) ∧ c.Bound) ∧
      (∀ c c' : Condition α, c.Bound → c'.Bound → c.items = c'.items → c = c') ∧
      (Operator.either.power < Operator.both.power ∧
        Operator.both.power < Operator.notPower ∧
        Operator.notPower < Operator.member.power ∧
        Operator.notMember.power = Operator.member.power ∧
        ∀ operator ∉ [Operator.either, .both, .member, .notMember],
          Operator.member.power < operator.power ∧ operator.power = Operator.same.power) ∧
      ∀ (first second : Operator) (a b d : α),
        tokens.map (·.item) = [.operand a, .operator first.symbol, .operand b,
            .operator second.symbol, .operand d] →
          parse source tag tokens = .ok
            (if second.power ≤ first.power then
              .binary second (.binary first (.operand a) (.operand b)) (.operand d)
            else .binary first (.operand a) (.binary second (.operand b) (.operand d))) := by
  refine ⟨fun c => ⟨fun h => (bound_of_parse h).symm, fun h => parse_of_bound source tag h.2 h.1⟩,
    fun c c' => eq_of_items_eq, ⟨by decide, by decide, by decide, rfl, ?_⟩, ?_⟩
  · intro operator hmem
    cases operator <;> first | exact ⟨by decide, rfl⟩ | simp at hmem
  · intro first second a b d hitems
    refine parse_of_bound source tag (bound_of_two first second a b d) ?_
    rw [hitems]
    split <;> rfl

/-- A comparison with a `not` on its right: what the `not` negates goes on to the `in`. -/
example :
    (parse [] ⟨0, 0⟩ [⟨⟨0, 1⟩, .operand 'a'⟩, ⟨⟨2, 2⟩, .operator "=="⟩, ⟨⟨5, 3⟩, .operator "not"⟩,
      ⟨⟨9, 1⟩, .operand 'b'⟩, ⟨⟨11, 2⟩, .operator "in"⟩, ⟨⟨14, 1⟩, .operand 'c'⟩] : Except _ _) =
      .ok (.binary .equal (.operand 'a')
        (.negation (.binary .member (.operand 'b') (.operand 'c')))) :=
  rfl

end Galley.Condition
