import Galley.Proofs.Tiling

/-!
# Operators of two words

The words of a condition become operators one after the other, and a word looks back at the operator
before it, which may itself be of two words. This comes to the same as looking ahead: of two words next
to each other that make one operator the first pair is joined, and no word is used twice.

* `Condition.Lexed`, `Reader.lexed_of_mapM`: tokens as they come from the words of a condition.
* `Condition.lookahead`: joining words by looking ahead.
* `Condition.foldl_combineStep`: one run of looking back, from any tokens that nothing joins.
* `Condition.SpansOver`, `Condition.exists_groups`: what the tokens after joining consist of.
* `Condition.combine_eq_lookahead`: **both are the same.**
-/

namespace Galley

open Cursor

namespace Condition

variable {α : Type} {source : List Char} {tokens done : List (ConditionToken α)}
  {first second t : ConditionToken α} {word symbol : String}

/-- Tokens **as they are lexed:** their operators are comparison signs, and each of them lies before
those that follow it. -/
structure Lexed (tokens : List (ConditionToken α)) : Prop where
  signs : ∀ t ∈ tokens, ∀ symbol, t.item = .operator symbol →
    ∃ operator : Operator, operator.isComparison ∧ operator.symbol = symbol
  ordered : tokens.Pairwise fun s t => s.span.stop ≤ t.span.start

theorem Lexed.tail (h : Lexed (t :: tokens)) : Lexed tokens :=
  ⟨fun s hs => h.signs s (List.mem_cons_of_mem t hs), (List.pairwise_cons.1 h.ordered).2⟩

/-! ## Looking ahead -/

/-- The word operator that a token is, if it is one. -/
def word? (source : List Char) (t : ConditionToken α) : Option String :=
  match t.item with
  | .operator _ => none
  | .operand _ =>
    if isWordOperator source t.span then some (String.ofList (t.span.slice source)) else none

/-- A token on its own: a word operator becomes an operator, all others stay as they are. -/
def alone (source : List Char) (t : ConditionToken α) : ConditionToken α :=
  match word? source t with
  | some word => ⟨t.span, .operator word⟩
  | none => t

theorem span_alone (source : List Char) (t : ConditionToken α) : (alone source t).span = t.span := by
  unfold alone
  split <;> rfl

/-- The operator that two words next to each other make. -/
def pair? (first second : String) : Option String :=
  if first = "is" ∧ second = "not" then some "is not"
  else if first = "not" ∧ second = "in" then some "not in"
  else none

/-- The operator that two tokens next to each other make. -/
def paired? (source : List Char) (first second : ConditionToken α) : Option String := do
  pair? (← word? source first) (← word? source second)

/-- **Joining words by looking ahead** from each word at the one behind it. -/
def lookahead (source : List Char) : List (ConditionToken α) → List (ConditionToken α)
  | [] => []
  | [last] => [alone source last]
  | first :: second :: rest =>
    match paired? source first second with
    | some symbol => ⟨first.span.through second.span, .operator symbol⟩ :: lookahead source rest
    | none => alone source first :: lookahead source (second :: rest)

/-! ## Looking back -/

/-- What is made of two words is joined with nothing. -/
theorem pair?_eq_none {a b : String} (h : pair? a b = some symbol) (word : String) :
    pair? symbol word = none := by
  unfold pair? at h
  split at h
  · cases h
    simp [pair?]
  · split at h <;> cases h
    simp [pair?]

theorem joined?_operator (symbol word : String) :
    joined? (.operator symbol : ConditionItem α) word = pair? symbol word := by
  unfold joined? pair?
  by_cases his : symbol = "is" ∧ word = "not"
  · obtain ⟨rfl, rfl⟩ := his
    simp
  · by_cases hnot : symbol = "not" ∧ word = "in"
    · obtain ⟨rfl, rfl⟩ := hnot
      simp
    · rw [if_neg his, if_neg hnot]
      refine if_neg ?_
      simp only [Bool.or_eq_true, Bool.and_eq_true, decide_eq_true_eq]
      exact not_or.2 ⟨hnot, his⟩

/-- A comparison sign is joined with nothing. -/
theorem pair?_symbol {operator : Operator} (h : operator.isComparison) (word : String) :
    pair? operator.symbol word = none := by
  have hother : operator.symbol ≠ "is" ∧ operator.symbol ≠ "not" := by
    revert h
    cases operator <;> decide
  rw [pair?, if_neg fun hboth => hother.1 hboth.1, if_neg fun hboth => hother.2 hboth.1]

/-- **Looking back** from a word at a token that stands alone finds what looking ahead finds. -/
theorem joined?_alone (h : Lexed (first :: tokens)) (hword : word? source second = some word) :
    joined? (alone source first).item word = paired? source first second := by
  have hsigns := h.signs first List.mem_cons_self
  obtain ⟨span, item⟩ := first
  unfold alone paired?
  rw [hword]
  cases item with
  | operator symbol =>
    obtain ⟨operator, hcomparison, rfl⟩ := hsigns symbol rfl
    change joined? (.operator operator.symbol) word = none
    rw [joined?_operator, pair?_symbol hcomparison]
  | operand value =>
    by_cases hoperator : isWordOperator source span = true
    · have hfirst : word? source ⟨span, .operand value⟩ = some (String.ofList (span.slice source)) :=
        if_pos hoperator
      rw [hfirst]
      exact joined?_operator _ word
    · have hfirst : word? source ⟨span, .operand value⟩ = none := if_neg hoperator
      rw [hfirst]
      rfl

/-- A step back, by the word that the token is and the token before it. -/
theorem combineStep_eq : combineStep source done t =
    match word? source t, done with
    | some word, previous :: rest =>
      match joined? previous.item word with
      | some symbol => ⟨previous.span.through t.span, .operator symbol⟩ :: rest
      | none => alone source t :: done
    | _, _ => alone source t :: done := by
  obtain ⟨span, item⟩ := t
  cases item with
  | operator symbol => rfl
  | operand value =>
    unfold combineStep
    by_cases hoperator : isWordOperator source span = true
    · have hword : word? source ⟨span, .operand value⟩ = some (String.ofList (span.slice source)) :=
        if_pos hoperator
      have hcontains : wordOperators.contains (String.ofList (span.slice source)) = true := hoperator
      rw [alone, hword]
      dsimp only
      rw [if_pos hcontains]
      cases done <;> rfl
    · have hword : word? source ⟨span, .operand value⟩ = none := if_neg hoperator
      rw [alone, hword]
      exact if_neg hoperator

/-- A token that is not joined with the one before it stands alone. -/
theorem combineStep_alone (h : ∀ previous ∈ done.head?, ∀ word, word? source t = some word →
    joined? previous.item word = none) : combineStep source done t = alone source t :: done := by
  rw [combineStep_eq]
  split
  · next word previous rest hword =>
    rw [h previous rfl word hword]
  · rfl

theorem combineStep_joined (hword : word? source t = some word)
    (h : joined? first.item word = some symbol) :
    combineStep source (first :: done) t = ⟨first.span.through t.span, .operator symbol⟩ :: done := by
  rw [combineStep_eq, hword]
  dsimp only
  rw [h]

/-- **Looking back through all tokens,** from some that do not join the first of them. -/
theorem foldl_combineStep (h : Lexed tokens) (hdone : ∀ previous ∈ done.head?, ∀ t ∈ tokens.head?,
    ∀ word, word? source t = some word → joined? previous.item word = none) :
    (tokens.foldl (combineStep source) done).reverse = done.reverse ++ lookahead source tokens := by
  induction tokens using lookahead.induct source generalizing done with
  | case1 => rw [List.foldl_nil, lookahead, List.append_nil]
  | case2 last =>
    rw [List.foldl_cons, List.foldl_nil, combineStep_alone fun p hp => hdone p hp last rfl,
      List.reverse_cons]
    rfl
  | case3 first second rest symbol hpaired ih =>
    -- the second word joins the first, and nothing joins what they make
    obtain ⟨a, ha, b, hb, hpair⟩ : ∃ a, word? source first = some a ∧ ∃ b,
        word? source second = some b ∧ pair? a b = some symbol := by
      simpa [paired?, Option.bind_eq_some_iff] using hpaired
    have hjoined := joined?_alone h hb
    rw [hpaired] at hjoined
    have hlookahead : lookahead source (first :: second :: rest) =
        ⟨first.span.through second.span, .operator symbol⟩ :: lookahead source rest := by
      rw [lookahead, hpaired]
    rw [List.foldl_cons, List.foldl_cons, combineStep_alone fun p hp => hdone p hp first rfl,
      combineStep_joined hb hjoined, ih h.tail.tail, hlookahead, List.reverse_cons, List.append_assoc,
      span_alone]
    · rfl
    · rintro previous ⟨⟩ t - word -
      rw [joined?_operator, pair?_eq_none hpair]
  | case4 first second rest hpaired ih =>
    have hlookahead : lookahead source (first :: second :: rest) =
        alone source first :: lookahead source (second :: rest) := by
      rw [lookahead, hpaired]
    rw [List.foldl_cons, combineStep_alone fun p hp => hdone p hp first rfl, ih h.tail, hlookahead,
      List.reverse_cons, List.append_assoc]
    · rfl
    · rintro previous ⟨⟩ t ⟨⟩ word hword
      rw [joined?_alone h hword, hpaired]

/-! ## What the tokens consist of -/

/-- A token **spans over** tokens from the start of the first of them to the end of the last. -/
def SpansOver (t : ConditionToken α) (group : List (ConditionToken α)) : Prop :=
  ∃ first last, group.head? = some first ∧ group.getLast? = some last ∧
    t.span.start = first.span.start ∧ t.span.stop = last.span.stop

theorem spansOver_alone (source : List Char) (t : ConditionToken α) :
    SpansOver (alone source t) [t] := by
  refine ⟨t, t, rfl, rfl, ?_, ?_⟩
  · rw [span_alone]
  · rw [span_alone]

theorem spansOver_pair (h : Lexed (first :: second :: tokens)) (symbol : String) :
    SpansOver (⟨first.span.through second.span, .operator symbol⟩ : ConditionToken α)
      [first, second] := by
  have hle := (List.pairwise_cons.1 h.ordered).1 second List.mem_cons_self
  refine ⟨first, second, rfl, rfl, rfl, Span.stop_through ?_⟩
  exact Nat.le_trans (Nat.le_add_right _ _) hle

/-- **The tokens after joining** are made of those before. -/
theorem exists_groups (source : List Char) (h : Lexed tokens) :
    ∃ groups : List (List (ConditionToken α)), groups.flatten = tokens ∧ List.Forall₂ SpansOver (lookahead source tokens) groups := by
  induction tokens using lookahead.induct source with
  | case1 => exact ⟨[], rfl, .nil⟩
  | case2 last => exact ⟨[[last]], rfl, .cons (spansOver_alone source last) .nil⟩
  | case3 first second rest symbol hpaired ih =>
    obtain ⟨groups, hflatten, hgroups⟩ := ih h.tail.tail
    rw [lookahead, hpaired]
    exact ⟨[first, second] :: groups, congrArg (first :: second :: ·) hflatten,
      .cons (spansOver_pair h symbol) hgroups⟩
  | case4 first second rest hpaired ih =>
    obtain ⟨groups, hflatten, hgroups⟩ := ih h.tail
    rw [lookahead, hpaired]
    exact ⟨[first] :: groups, congrArg (first :: ·) hflatten,
      .cons (spansOver_alone source first) hgroups⟩

/-- Tokens that are made of ordered ones are in the same order. -/
theorem ordered_of_groups {joined : List (ConditionToken α)} {groups : List (List (ConditionToken α))}
    (h : List.Forall₂ SpansOver joined groups)
    (hordered : groups.flatten.Pairwise fun s t => s.span.stop ≤ t.span.start) :
    (joined.Pairwise fun s t => s.span.stop ≤ t.span.start) ∧
      ∀ t ∈ joined, ∃ s ∈ groups.flatten, s.span.start = t.span.start := by
  induction h with
  | nil => exact ⟨.nil, nofun⟩
  | @cons t group later groups hgroup _ ih =>
    rw [List.flatten_cons] at hordered
    obtain ⟨-, hlater, hbefore⟩ := List.pairwise_append.1 hordered
    obtain ⟨hjoined, hstarts⟩ := ih hlater
    obtain ⟨first, last, hfirst, hlast, hstart, hstop⟩ := hgroup
    refine ⟨List.pairwise_cons.2 ⟨fun u hu => ?_, hjoined⟩, List.forall_mem_cons.2 ⟨?_, fun u hu => ?_⟩⟩
    · obtain ⟨s, hs, hsu⟩ := hstarts u hu
      have := hbefore last (List.mem_of_getLast? hlast) s hs
      omega
    · exact ⟨first, List.mem_append_left _ (List.mem_of_head? hfirst), hstart.symm⟩
    · obtain ⟨s, hs, hsu⟩ := hstarts u hu
      exact ⟨s, List.mem_append_right _ hs, hsu⟩

/-- **Looking back comes to the same as looking ahead.** What is made of the tokens of a condition is
what scanning them from left to right and joining each word with the one behind it gives. Its tokens
are in order, and each spans over one or two of those before, which are all used in their order. -/
theorem combine_eq_lookahead (h : Lexed tokens) :
    combine source tokens = lookahead source tokens ∧
      ((combine source tokens).Pairwise fun s t => s.span.stop ≤ t.span.start) ∧
      ∃ groups : List (List (ConditionToken α)), groups.flatten = tokens ∧
        List.Forall₂ SpansOver (combine source tokens) groups := by
  have hsame : combine source tokens = lookahead source tokens := foldl_combineStep h nofun
  obtain ⟨groups, hflatten, hgroups⟩ := exists_groups source h
  rw [hsame]
  exact ⟨rfl, (ordered_of_groups hgroups (hflatten ▸ h.ordered)).1, groups, hflatten, hgroups⟩

/-- Three words that could be joined in two ways. -/
theorem combine_eq_lookahead_three :
    let source := "is not in < a".toList
    let tokens : List (ConditionToken Unit) := [⟨⟨0, 2⟩, .operand ()⟩, ⟨⟨3, 3⟩, .operand ()⟩,
      ⟨⟨7, 2⟩, .operand ()⟩, ⟨⟨10, 1⟩, .operator "<"⟩, ⟨⟨12, 1⟩, .operand ()⟩]
    Lexed tokens ∧ lookahead source tokens = [⟨⟨0, 6⟩, .operator "is not"⟩,
      ⟨⟨7, 2⟩, .operator "in"⟩, ⟨⟨10, 1⟩, .operator "<"⟩, ⟨⟨12, 1⟩, .operand ()⟩] := by
  intro source tokens
  have hlexed : Lexed tokens := by
    refine ⟨fun t ht symbol hsymbol => ⟨.less, rfl, ?_⟩, by decide⟩
    simp only [tokens, List.mem_cons, List.not_mem_nil, or_false] at ht
    rcases ht with rfl | rfl | rfl | rfl | rfl <;> cases hsymbol
    rfl
  exact ⟨hlexed, (combine_eq_lookahead hlexed).1.symm.trans (by decide +kernel)⟩

end Condition

/-! ## Tokens of conditions -/

theorem ConditionWord.isComparison_of_step {c next : Cursor} {operator : Operator} {span : Span}
    (h : step c = some (.ok (.comparison operator span), next)) : operator.isComparison := by
  unfold step at h
  dsimp only at h
  split at h
  · cases h
  · split at h
    · next hsign =>
      cases h
      exact (List.mem_filter.1 (List.mem_of_find?_eq_some hsign)).2
    · split at h
      · cases h
      · split at h <;> cases h

/-- **The tokens of a condition** are lexed. -/
theorem Reader.lexed_of_mapM {r : Reader} {parts : Span} {tokens : List (ConditionToken Expression)}
    (hparts : parts.Within r.source)
    (h : (ConditionWord.all r.source parts).mapM r.conditionToken = .ok tokens) :
    Condition.Lexed tokens := by
  have hmade := Words.mapM_words h
  refine ⟨fun t ht symbol hsymbol => ?_, ?_⟩
  · obtain ⟨word, hword, hconverted⟩ := exists_of_mem_mapM hmade ht
    cases word with
    | comparison operator span =>
      cases hconverted
      cases hsymbol
      have hends := ConditionWord.endsWith_readAll (ofSpan r.source parts)
      have hsigns : ∀ word ∈ (ConditionWord.all r.source parts).words, ∀ operator span,
          word = .comparison operator span → operator.isComparison :=
        hends.forall_mem fun _ _ _ hstep _ _ heq => ConditionWord.isComparison_of_step (heq ▸ hstep)
      exact ⟨operator, hsigns _ hword operator span rfl, rfl⟩
    | operand o =>
      obtain ⟨e, -, hconverted⟩ := bind_eq_ok.1 hconverted
      cases hconverted
      cases hsymbol
  · have hspans : tokens.map (·.span) = (ConditionWord.all r.source parts).words.map (·.span) :=
      map_eq_of_mapM hmade fun _ _ ht => span_of_conditionToken ht
    have hwords : ((ConditionWord.all r.source parts).words.map (·.span)).Pairwise
        fun s t => s.stop ≤ t.start :=
      List.pairwise_map.2 ((ConditionWord.ordered_all hparts).2.imp fun hbefore => hbefore.2)
    rw [← hspans] at hwords
    exact List.pairwise_map.1 hwords

end Galley
