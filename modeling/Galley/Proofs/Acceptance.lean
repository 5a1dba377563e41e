import Galley.Condition
import Galley.Proofs.Outcome

/-!
# Which conditions are accepted

The words of a condition have a simple form: operands, each behind any number of `not`, with an
operator between any two of them. How tightly the operators bind decides what the tree is, but never
whether there is one, and where the form is left the word that leaves it is the one reported.

* `Formed`: the form of a condition; `Completable`: its beginnings.
* `Misplaced`: the words that cannot stand behind a beginning.
* `Progress.next`, `parse_eq_foldlM`: the words are taken one by one.
* `parse_spec`: the conditions that are accepted, and the error of each that is not.
-/

namespace Galley.Condition

variable {α : Type} {source : List Char} {items : List (ConditionItem α)} {symbol : String}

/-! ## The form of a condition -/

/-- An operand behind any number of `not`. -/
inductive Negated : List (ConditionItem α) → Prop
  | operand (value : α) : Negated [.operand value]
  | negation {items : List (ConditionItem α)} (h : Negated items) :
    Negated (.operator "not" :: items)

/-- **The form of a condition**: operands behind any number of `not`, and an operator with a power
between any two of them. -/
inductive Formed : List (ConditionItem α) → Prop
  | single {items : List (ConditionItem α)} (h : Negated items) : Formed items
  | joined {first rest : List (ConditionItem α)} {symbol : String} (h : Negated first)
    (ho : (Operator.ofSymbol? symbol).isSome) (hr : Formed rest) :
    Formed (first ++ .operator symbol :: rest)

/-- Words that are the beginning of a condition. -/
def Completable (items : List (ConditionItem α)) : Prop := ∃ more, Formed (items ++ more)

/-- **What cannot stand behind the beginning of a condition**: where the beginning is a condition an
operator is due, and elsewhere an operand. -/
inductive Misplaced (before : List (ConditionItem α)) : ConditionItem α → Prop
  /-- An operand where an operator is due. -/
  | operand (h : Formed before) (value : α) : Misplaced before (.operand value)
  /-- The word `not` where an operator is due, or a symbol that has no power. -/
  | powerless (h : Formed before) {symbol : String} (hs : Operator.ofSymbol? symbol = none) :
    Misplaced before (.operator symbol)
  /-- An operator where an operand is due. -/
  | operator (h : ¬ Formed before) {symbol : String} (hs : symbol ≠ "not") :
    Misplaced before (.operator symbol)

/-- Whether an operand is complete behind one more word, if the word can stand there. -/
def follow : Bool → ConditionItem α → Option Bool
  | false, .operand _ => some true
  | false, .operator symbol => if symbol = "not" then some false else none
  | true, .operand _ => none
  | true, .operator symbol => if (Operator.ofSymbol? symbol).isSome then some false else none

/-- Whether an operand is complete behind words, if they can stand at the beginning. -/
def followAll (items : List (ConditionItem α)) : Option Bool := items.foldlM follow false

theorem Formed.negation (h : Formed items) : Formed (.operator "not" :: items) := by
  cases h with
  | single h => exact .single h.negation
  | joined h ho hr => exact .joined h.negation ho hr

theorem Negated.foldlM_follow (h : Negated items) : items.foldlM follow false = some true := by
  induction h with
  | operand value => rfl
  | negation h ih => simpa [follow] using ih

theorem Formed.followAll (h : Formed items) : followAll items = some true := by
  unfold Condition.followAll
  induction h with
  | single h => exact h.foldlM_follow
  | joined h ho hr ih => simp [List.foldlM_append, h.foldlM_follow, follow, ho, ih]

/-- Words that end in a complete operand: a condition, or what has still to come behind an operand
to make one. -/
theorem formed_of_foldlM {complete : Bool} (h : items.foldlM follow complete = some true) :
    if complete then
      items = [] ∨ ∃ symbol rest, items = .operator symbol :: rest ∧
        (Operator.ofSymbol? symbol).isSome ∧ Formed rest
    else Formed items := by
  induction items generalizing complete with
  | nil =>
    cases h
    exact .inl rfl
  | cons item rest ih =>
    rw [List.foldlM_cons, Option.bind_eq_bind, Option.bind_eq_some_iff] at h
    obtain ⟨next, hnext, h⟩ := h
    have hrest := ih h
    cases complete <;> cases item <;> simp only [follow] at hnext
    · -- an operand where one is due
      cases hnext
      rcases hrest with rfl | ⟨symbol, rest, rfl, ho, hr⟩
      · exact .single (.operand _)
      · exact .joined (.operand _) ho hr
    · split at hnext
      · next hs =>
        cases hnext
        subst hs
        exact Formed.negation hrest
      · cases hnext
    · cases hnext
    · split at hnext
      · next ho =>
        cases hnext
        exact .inr ⟨_, rest, rfl, ho, hrest⟩
      · cases hnext

theorem formed_iff : Formed items ↔ followAll items = some true :=
  ⟨Formed.followAll, fun h => formed_of_foldlM h⟩

theorem followAll_append (first second : List (ConditionItem α)) :
    followAll (first ++ second) = (followAll first).bind fun c => second.foldlM follow c :=
  List.foldlM_append

theorem followAll_snoc (items : List (ConditionItem α)) (item : ConditionItem α) :
    followAll (items ++ [item]) = (followAll items).bind (follow · item) := by
  simp [followAll_append]

/-- **Beginnings of conditions** are the words that can follow each other. -/
theorem completable_iff [Inhabited α] : Completable items ↔ (followAll items).isSome := by
  constructor
  · rintro ⟨more, h⟩
    have h := h.followAll
    rw [followAll_append, Option.bind_eq_some_iff] at h
    obtain ⟨c, hc, -⟩ := h
    rw [hc]
    rfl
  · intro h
    obtain ⟨complete, hc⟩ := Option.isSome_iff_exists.1 h
    cases complete with
    | false =>
      -- any operand completes it
      refine ⟨[.operand default], formed_iff.2 ?_⟩
      rw [followAll_snoc, hc]
      rfl
    | true => exact ⟨[], by rwa [List.append_nil, formed_iff]⟩

/-- **The words that end a beginning** are those that are misplaced behind it. -/
theorem misplaced_iff [Inhabited α] {item : ConditionItem α} (h : Completable items) :
    ¬ Completable (items ++ [item]) ↔ Misplaced items item := by
  obtain ⟨complete, hc⟩ := Option.isSome_iff_exists.1 (completable_iff.1 h)
  rw [completable_iff, followAll_snoc, hc, Option.bind_some, Option.not_isSome_iff_eq_none]
  cases complete with
  | false =>
    have hnot : ¬ Formed items := by simp [formed_iff, hc]
    cases item with
    | operand value =>
      refine ⟨nofun, fun hm => ?_⟩
      cases hm with
      | operand hf => exact absurd hf hnot
    | operator symbol =>
      simp only [follow]
      split
      · next hs =>
        refine ⟨nofun, fun hm => ?_⟩
        cases hm with
        | powerless hf => exact absurd hf hnot
        | operator _ hne => exact absurd hs hne
      · next hs => exact ⟨fun _ => .operator hnot hs, fun _ => rfl⟩
  | true =>
    have hf : Formed items := formed_iff.2 hc
    cases item with
    | operand value => exact ⟨fun _ => .operand hf value, fun _ => rfl⟩
    | operator symbol =>
      simp only [follow]
      split
      · next hs =>
        refine ⟨nofun, fun hm => ?_⟩
        cases hm with
        | powerless _ hnone => rw [hnone] at hs; cases hs
        | operator hnot => exact absurd hf hnot
      · next hs => exact ⟨fun _ => .powerless hf (by simpa using hs), fun _ => rfl⟩

/-- Words with which a beginning ceases to be one have a first one with which it does. -/
theorem exists_not_completable {before : List (ConditionItem α)} (hc : Completable before)
    (h : ¬ Completable (before ++ items)) :
    ∃ first item after, items = first ++ item :: after ∧ Completable (before ++ first) ∧
      ¬ Completable (before ++ first ++ [item]) := by
  induction items generalizing before with
  | nil =>
    rw [List.append_nil] at h
    exact absurd hc h
  | cons item rest ih =>
    by_cases hnext : Completable (before ++ [item])
    · rw [List.append_cons] at h
      obtain ⟨first, item', after, rfl, hfirst, hnot⟩ := ih hnext h
      refine ⟨item :: first, item', after, rfl, ?_, ?_⟩
      · rwa [List.append_cons]
      · rwa [List.append_cons before item first]
    · exact ⟨[], item, rest, rfl, by rwa [List.append_nil], by rwa [List.append_nil]⟩

/-! ## Taking the words one by one -/

/-- What has been read of a condition. -/
structure Progress (α : Type) where
  /-- The operators that wait for their right operand, the latest first. -/
  waiting : List (Pending α)
  /-- What stands before the next word if it is complete. -/
  operand : Option (Condition α)
  /-- The place of the word read last. -/
  last : Span

/-- The error at a word that cannot stand where it does. -/
def misplaced (source : List Char) (token : ConditionToken α) : TemplateError :=
  match token.item with
  | .operator symbol => .here (.misplacedOperator symbol) token.span
  | .operand _ => .here (.unusedExpression (String.ofList (token.span.slice source))) token.span

namespace Progress

/-- **One more word.** -/
def next (source : List Char) (p : Progress α) (token : ConditionToken α) :
    Except TemplateError (Progress α) :=
  match p.operand, token.item with
  | none, .operand value => .ok ⟨p.waiting, some (.operand value), token.span⟩
  | none, .operator symbol =>
    if symbol = "not" then .ok ⟨.negation :: p.waiting, none, token.span⟩
    else .error (misplaced source token)
  | some _, .operand _ => .error (misplaced source token)
  | some c, .operator symbol =>
    match Operator.ofSymbol? symbol with
    | none => .error (misplaced source token)
    | some operator =>
      let (left, waiting) := reduce operator.power c p.waiting
      .ok ⟨.binary left operator :: waiting, none, token.span⟩

/-- The end of the words. -/
def finish (p : Progress α) : Except TemplateError (Condition α) :=
  match p.operand with
  | none => .error (.here .unexpectedEnd p.last)
  | some c => .ok (reduce 0 c p.waiting).1

variable {p : Progress α} {token : ConditionToken α} {tokens : List (ConditionToken α)}

/-- A word that can follow is taken. -/
theorem next_of_follow {complete : Bool} (source : List Char)
    (h : follow p.operand.isSome token.item = some complete) :
    ∃ p', p.next source token = .ok p' ∧ p'.operand.isSome = complete ∧ p'.last = token.span := by
  obtain ⟨waiting, operand, last⟩ := p
  obtain ⟨span, item⟩ := token
  cases operand <;> cases item <;> simp only [Option.isSome, follow] at h
  · cases h
    exact ⟨_, rfl, rfl, rfl⟩
  · split at h
    · next hs =>
      cases h
      exact ⟨⟨.negation :: waiting, none, span⟩, by simp [next, hs], rfl, rfl⟩
    · cases h
  · cases h
  · next c symbol =>
    cases ho : Operator.ofSymbol? symbol with
    | none => simp [ho] at h
    | some operator =>
      obtain rfl : false = complete := by simpa [ho] using h
      exact ⟨⟨.binary (reduce operator.power c waiting).1 operator ::
        (reduce operator.power c waiting).2, none, span⟩, by simp [next, ho], rfl, rfl⟩

/-- A word that cannot follow is reported. -/
theorem next_of_not_follow (source : List Char) (h : follow p.operand.isSome token.item = none) :
    p.next source token = .error (misplaced source token) := by
  obtain ⟨waiting, operand, last⟩ := p
  obtain ⟨span, item⟩ := token
  cases operand <;> cases item <;> simp only [Option.isSome, follow] at h
  · cases h
  · split at h
    · cases h
    · next hs => simp [next, hs]
  · rfl
  · next c symbol =>
    cases ho : Operator.ofSymbol? symbol with
    | none => simp [next, ho]
    | some operator => simp [ho] at h

/-- **Words that can follow each other are taken**, and the last one is remembered. -/
theorem exists_foldlM_next {complete : Bool} (source : List Char)
    (h : (tokens.map (·.item)).foldlM follow p.operand.isSome = some complete) :
    ∃ p', tokens.foldlM (next source) p = .ok p' ∧ p'.operand.isSome = complete ∧
      p'.last = (tokens.getLast?.map (·.span)).getD p.last := by
  induction tokens generalizing p with
  | nil =>
    cases h
    exact ⟨p, rfl, rfl, rfl⟩
  | cons token rest ih =>
    rw [List.map_cons, List.foldlM_cons, Option.bind_eq_bind, Option.bind_eq_some_iff] at h
    obtain ⟨middle, hmiddle, h⟩ := h
    obtain ⟨p', hp', rfl, hlast⟩ := next_of_follow source hmiddle
    obtain ⟨p'', hp'', hcomplete, hlast'⟩ := ih h
    refine ⟨p'', by rw [foldlM_cons_of_ok hp', hp''], hcomplete, ?_⟩
    rw [hlast', hlast]
    cases rest with
    | nil => rfl
    | cons _ _ => simp [List.getLast?_eq_some_getLast]

end Progress

/-- The tree is built in one pass over the words. -/
theorem parseFrom_eq_foldlM (source : List Char) (p : Progress α) (tokens : List (ConditionToken α)) :
    parseFrom source p.waiting p.operand p.last tokens =
      tokens.foldlM (Progress.next source) p >>= Progress.finish := by
  induction tokens generalizing p with
  | nil =>
    obtain ⟨waiting, operand, last⟩ := p
    cases operand <;> rfl
  | cons token rest ih =>
    obtain ⟨waiting, operand, last⟩ := p
    obtain ⟨span, item⟩ := token
    rw [List.foldlM_cons]
    cases operand <;> cases item
    · exact ih ⟨waiting, some (.operand _), span⟩
    · next symbol =>
      simp only [parseFrom, Progress.next]
      split
      · exact ih ⟨.negation :: waiting, none, span⟩
      · rfl
    · rfl
    · next c symbol =>
      cases ho : Operator.ofSymbol? symbol with
      | none =>
        simp only [parseFrom, Progress.next, ho]
        rfl
      | some operator =>
        simp only [parseFrom, Progress.next, ho]
        exact ih ⟨.binary (reduce operator.power c waiting).1 operator ::
          (reduce operator.power c waiting).2, none, span⟩

/-- **The words are taken one by one**, each of them once. -/
theorem parse_eq_foldlM (source : List Char) (tag : Span) {tokens : List (ConditionToken α)}
    (h : tokens ≠ []) :
    parse source tag tokens =
      tokens.foldlM (Progress.next source) ⟨[], none, tag⟩ >>= Progress.finish := by
  cases tokens with
  | nil => exact absurd rfl h
  | cons token rest => exact parseFrom_eq_foldlM source ⟨[], none, tag⟩ (token :: rest)

variable {tag : Span} {tokens : List (ConditionToken α)}

/-- A condition of the right form is accepted. -/
theorem exists_parse_of_formed (source : List Char) (tag : Span) (hne : tokens ≠ [])
    (h : Formed (tokens.map (·.item))) : ∃ c, parse source tag tokens = .ok c := by
  obtain ⟨p, hp, hcomplete, -⟩ :=
    Progress.exists_foldlM_next (p := ⟨[], none, tag⟩) source h.followAll
  obtain ⟨c, hc⟩ := Option.isSome_iff_exists.1 hcomplete
  refine ⟨(reduce 0 c p.waiting).1, ?_⟩
  rw [parse_eq_foldlM source tag hne, bind_eq_ok]
  exact ⟨p, hp, by simp [Progress.finish, hc]⟩

/-- A condition that lacks its end is reported at its last word. -/
theorem parse_of_completable [Inhabited α] (source : List Char) (tag : Span) (hne : tokens ≠ [])
    (hc : Completable (tokens.map (·.item))) (hf : ¬ Formed (tokens.map (·.item))) :
    parse source tag tokens = .error (.here .unexpectedEnd (tokens.getLast hne).span) := by
  obtain ⟨complete, hfollow⟩ := Option.isSome_iff_exists.1 (completable_iff.1 hc)
  obtain ⟨p, hp, hcomplete, hlast⟩ :=
    Progress.exists_foldlM_next (p := ⟨[], none, tag⟩) source hfollow
  have hoperand : p.operand = none := by
    cases complete with
    | false => simpa using hcomplete
    | true => exact absurd (formed_iff.2 hfollow) hf
  rw [parse_eq_foldlM source tag hne, hp]
  simp only [bind, Except.bind, Progress.finish, hoperand, hlast,
    List.getLast?_eq_some_getLast hne, Option.map_some, Option.getD_some]

/-- A word that ends a beginning is reported, whatever stands behind it. -/
theorem parse_of_misplaced [Inhabited α] (source : List Char) (tag : Span)
    {before after : List (ConditionToken α)} {token : ConditionToken α}
    (hc : Completable (before.map (·.item)))
    (hnot : ¬ Completable (before.map (·.item) ++ [token.item])) :
    parse source tag (before ++ token :: after) = .error (misplaced source token) := by
  obtain ⟨complete, hfollow⟩ := Option.isSome_iff_exists.1 (completable_iff.1 hc)
  obtain ⟨p, hp, hcomplete, -⟩ :=
    Progress.exists_foldlM_next (p := ⟨[], none, tag⟩) source hfollow
  have hnext : p.next source token = .error (misplaced source token) := by
    refine Progress.next_of_not_follow source ?_
    rw [completable_iff, followAll_snoc, hfollow, Option.not_isSome_iff_eq_none] at hnot
    rw [hcomplete]
    exact hnot
  rw [parse_eq_foldlM source tag (by simp), List.foldlM_append, hp]
  simp only [bind, Except.bind, List.foldlM_cons, hnext]

/-- A condition that does not have the form is refused, at its last word or at a misplaced one. -/
theorem parse_of_not_formed [Inhabited α] (source : List Char) (tag : Span) (hne : tokens ≠ [])
    (hf : ¬ Formed (tokens.map (·.item))) :
    (Completable (tokens.map (·.item)) ∧
        parse source tag tokens = .error (.here .unexpectedEnd (tokens.getLast hne).span)) ∨
      ∃ before token after, tokens = before ++ token :: after ∧
        Completable (before.map (·.item)) ∧ ¬ Completable ((before ++ [token]).map (·.item)) ∧
        Misplaced (before.map (·.item)) token.item ∧
        parse source tag tokens = .error (misplaced source token) := by
  by_cases hc : Completable (tokens.map (·.item))
  · exact .inl ⟨hc, parse_of_completable source tag hne hc hf⟩
  · have hnil : Completable ([] : List (ConditionItem α)) := completable_iff.2 rfl
    obtain ⟨items, item, rest, heq, hitems, hnot⟩ := exists_not_completable hnil hc
    rw [List.nil_append] at hitems hnot
    obtain ⟨before, behind, rfl, rfl, hbehind⟩ := List.map_eq_append_iff.1 heq
    obtain ⟨token, after, rfl, rfl, -⟩ := List.map_eq_cons_iff.1 hbehind
    refine .inr ⟨before, token, after, rfl, hitems, ?_, (misplaced_iff hitems).1 hnot, ?_⟩
    · rwa [List.map_append]
    · exact parse_of_misplaced source tag hitems hnot

/-- **Acceptance of conditions.** The words of a condition are taken one by one. They are accepted
exactly if they have the form of a condition; otherwise either they begin one, and the last of them
is reported, or there is a first word with which they cease to, and this word is reported for what
it is: one that cannot stand where it does. -/
theorem parse_spec [Inhabited α] (source : List Char) (tag : Span) (first : ConditionToken α)
    (others : List (ConditionToken α)) :
    let tokens := first :: others
    parse source tag tokens =
        tokens.foldlM (Progress.next source) ⟨[], none, tag⟩ >>= Progress.finish ∧
      ((∃ c, parse source tag tokens = .ok c) ↔ Formed (tokens.map (·.item))) ∧
      (¬ Formed (tokens.map (·.item)) →
        (Completable (tokens.map (·.item)) ∧
          parse source tag tokens =
            .error (.here .unexpectedEnd (tokens.getLast (List.cons_ne_nil first others)).span)) ∨
        ∃ before token after, tokens = before ++ token :: after ∧
          Completable (before.map (·.item)) ∧ ¬ Completable ((before ++ [token]).map (·.item)) ∧
          Misplaced (before.map (·.item)) token.item ∧
          parse source tag tokens = .error (misplaced source token)) := by
  intro tokens
  have hne : tokens ≠ [] := List.cons_ne_nil first others
  refine ⟨parse_eq_foldlM source tag hne, ⟨?_, exists_parse_of_formed source tag hne⟩,
    parse_of_not_formed source tag hne⟩
  rintro ⟨c, hc⟩
  refine Classical.byContradiction fun hf => ?_
  rcases parse_of_not_formed source tag hne hf with ⟨-, he⟩ | ⟨_, _, _, -, -, -, -, he⟩ <;>
  · rw [hc] at he
    cases he

end Galley.Condition
