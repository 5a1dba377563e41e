import Galley.Proofs.Precedence
import Galley.Proofs.Reading

/-!
# The operands of tags

The operands that are written in the parts of a tag become its expressions: each of them becomes one, and
there are no others. They stand between the ends of the parts.

* `Reader.conditionOperands`, `Reader.loopOperands`, `Reader.routeOperands`, `Reader.callOperands`: **the
  operands that are written.**
* `Reader.Makes`: expressions that are those of operands.
* `Reader.makes_condition`, `Reader.makes_loopHeader`, `Reader.makes_routeCall`, `Reader.makes_tagCall`:
  what the tags are made of.
* `Span.Inside`, `Reader.StandIn`: operands that stand in parts.
-/

namespace Galley

/-! ## Words of conditions -/

namespace Condition

variable {α : Type} {source : List Char} {tokens done : List (ConditionToken α)}
  {t token : ConditionToken α} {value : α}

/-- Whether a word is an operator. -/
def isWordOperator (source : List Char) (span : Span) : Bool :=
  wordOperators.contains (String.ofList (span.slice source))

/-- An operand stays what it is, unless it is an operator. -/
theorem mem_combineStep_iff (ht : t.item = .operand value) :
    t ∈ combineStep source done token ↔
      t ∈ done ∨ t = token ∧ isWordOperator source token.span = false := by
  have hnot (span : Span) (symbol : String) : t ≠ ⟨span, .operator symbol⟩ := by
    rintro rfl
    cases ht
  have hmem (span : Span) (symbol : String) (rest : List (ConditionToken α)) :
      t ∈ ⟨span, .operator symbol⟩ :: rest ↔ t ∈ rest := by
    rw [List.mem_cons, or_iff_right (hnot span symbol)]
  obtain ⟨span, item⟩ := token
  cases item with
  | operator symbol =>
    change t ∈ ⟨span, .operator symbol⟩ :: done ↔ _
    rw [hmem, or_iff_left fun h => hnot span symbol h.1]
  | operand value' =>
    unfold combineStep isWordOperator
    dsimp only
    by_cases hword : wordOperators.contains (String.ofList (span.slice source)) = true
    · rw [if_pos hword, hword, or_iff_left fun h => Bool.noConfusion h.2]
      cases done with
      | nil => exact hmem _ _ []
      | cons previous rest =>
        dsimp only
        split
        · next symbol hjoined =>
          -- what is joined with the word before is an operator, too
          have hprevious : t ≠ previous := by
            rintro rfl
            rw [ht] at hjoined
            cases hjoined
          rw [hmem, List.mem_cons, or_iff_right hprevious]
        · exact hmem _ _ (previous :: rest)
    · rw [if_neg hword, List.mem_cons, or_comm, and_iff_left (Bool.eq_false_iff.2 hword)]

/-- **The operands of a condition** are the words that are no operators. -/
theorem mem_combine_iff (ht : t.item = .operand value) :
    t ∈ combine source tokens ↔ t ∈ tokens ∧ isWordOperator source t.span = false := by
  have hrun : ∀ rest done : List (ConditionToken α), t ∈ rest.foldl (combineStep source) done ↔
      t ∈ done ∨ t ∈ rest ∧ isWordOperator source t.span = false := by
    intro rest
    induction rest with
    | nil =>
      intro done
      rw [List.foldl_nil, or_iff_left fun h => List.not_mem_nil h.1]
    | cons token rest ih =>
      intro done
      have hfirst : t = token ∧ isWordOperator source token.span = false ↔
          t = token ∧ isWordOperator source t.span = false := by
        refine and_congr_right fun heq => ?_
        rw [heq]
      rw [List.foldl_cons, ih, mem_combineStep_iff ht, hfirst, List.mem_cons, or_and_right, or_assoc]
  rw [combine, List.mem_reverse, hrun, or_iff_right List.not_mem_nil]

end Condition

/-! ## What is made of operands -/

/-- The expressions of a route. -/
def RouteCall.expressions (c : RouteCall) : List Expression :=
  c.route :: (c.positional ++ c.keyword.map (·.2))

/-- The expressions of a call. -/
def TagCall.expressions (c : TagCall) : List Expression := c.positional ++ c.keyword.map (·.2)

namespace Reader

variable {r : Reader} {e : Expression} {o : Operand} {operands : List Operand} {tag parts : Span}
  {words : List CallWord} {P Q : Expression → Prop}

/-- The operands of a condition. -/
def conditionOperands (r : Reader) (parts : Span) : List Operand :=
  (ConditionWord.all r.source parts).words.filterMap fun
    | .operand o => if Condition.isWordOperator r.source o.span then none else some o
    | .comparison .. => none

/-- The operand of a loop, if there is one. -/
def loopOperands (r : Reader) (parts : Span) : List Operand :=
  (LoopReader.ofParts r.source parts).names.2.keyword.2.iterable.1.toOption.toList

/-- The operands of arguments without their target. -/
def argumentOperands (r : Reader) (words : List CallWord) : List Operand :=
  (r.splitTarget words).1.map (·.operand)

/-- The operands of a route. -/
def routeOperands (r : Reader) (parts : Span) : List Operand :=
  match CallWord.all r.source parts with
  | .ok (first :: rest) => first.operand :: r.argumentOperands rest
  | _ => []

/-- The operands of a call. -/
def callOperands (r : Reader) (parts : Span) : List Operand :=
  match CallWord.all r.source parts with
  | .ok words => r.argumentOperands words
  | .error _ => []

/-- **Expressions are made of operands** if each operand is one of them, and there are no others. -/
structure Makes (r : Reader) (operands : List Operand) (P : Expression → Prop) : Prop where
  each : ∀ o ∈ operands, ∃ e, r.expression o = .ok e ∧ P e
  only : ∀ e, P e → ∃ o ∈ operands, r.expression o = .ok e

theorem Makes.congr (h : r.Makes operands P) (hiff : ∀ e, Q e ↔ P e) : r.Makes operands Q where
  each o ho := (h.each o ho).imp fun e he => ⟨he.1, (hiff e).2 he.2⟩
  only e he := h.only e ((hiff e).1 he)

theorem makes_nil : r.Makes [] fun _ => False := ⟨nofun, nofun⟩

theorem Makes.cons (h : r.Makes operands P) (he : r.expression o = .ok e) :
    r.Makes (o :: operands) fun e' => e' = e ∨ P e' := by
  refine ⟨fun o' ho' => ?_, fun e' he' => ?_⟩
  · rcases List.mem_cons.1 ho' with rfl | ho'
    · exact ⟨e, he, .inl rfl⟩
    · exact (h.each o' ho').imp fun _ he' => ⟨he'.1, .inr he'.2⟩
  · rcases he' with rfl | he'
    · exact ⟨o, List.mem_cons_self, he⟩
    · exact (h.only e' he').imp fun _ ho' => ⟨List.mem_cons_of_mem _ ho'.1, ho'.2⟩

/-- **The operands of a condition** are what it is made of. -/
theorem makes_condition {made : Condition Expression} (h : r.condition tag parts = .ok made) :
    r.Makes (r.conditionOperands parts) fun e => .operand e ∈ made.items := by
  unfold condition at h
  obtain ⟨tokens, htokens, h⟩ := bind_eq_ok.1 h
  have hitems := (Condition.bound_of_parse h).2
  have hwords := Cursor.Words.mapM_words htokens
  refine ⟨fun o ho => ?_, fun e he => ?_⟩
  · obtain ⟨word, hword, hoperand⟩ := List.mem_filterMap.1 ho
    cases word with
    | comparison operator span => cases hoperand
    | operand o' =>
      dsimp only at hoperand
      split at hoperand
      · cases hoperand
      · next hnot =>
        cases hoperand
        obtain ⟨token, htoken, hmade⟩ := exists_of_mem_of_mapM hwords hword
        obtain ⟨e, he, hmade⟩ := bind_eq_ok.1 hmade
        cases hmade
        have hmem : _ ∈ Condition.combine r.source tokens :=
          (Condition.mem_combine_iff rfl).2 ⟨htoken, Bool.eq_false_iff.2 hnot⟩
        exact ⟨e, he, hitems ▸ List.mem_map_of_mem hmem⟩
  · rw [hitems] at he
    obtain ⟨token, htoken, hitem⟩ := List.mem_map.1 he
    obtain ⟨hmem, hnot⟩ := (Condition.mem_combine_iff hitem).1 htoken
    obtain ⟨word, hword, hmade⟩ := exists_of_mem_mapM hwords hmem
    cases word with
    | comparison operator span =>
      cases hmade
      cases hitem
    | operand o =>
      obtain ⟨e', he', hmade⟩ := bind_eq_ok.1 hmade
      cases hmade
      cases hitem
      exact ⟨o, List.mem_filterMap.2 ⟨_, hword, if_neg (Bool.eq_false_iff.1 hnot)⟩, he'⟩

/-- **The operand of a loop** is its iterable. -/
theorem makes_loopHeader {header : LoopHeader} (h : r.loopHeader tag parts = .ok header) :
    r.Makes (r.loopOperands parts) (· = header.iterable) := by
  unfold loopHeader at h
  dsimp only at h
  obtain ⟨_, -, h⟩ := bind_eq_ok.1 h
  obtain ⟨names, -, h⟩ := bind_eq_ok.1 h
  cases names with
  | nil => cases h
  | cons first others =>
    obtain ⟨_, -, h⟩ := bind_eq_ok.1 h
    obtain ⟨operand, hoperand, h⟩ := bind_eq_ok.1 h
    obtain ⟨_, -, h⟩ := bind_eq_ok.1 h
    split at h
    · cases h
    · obtain ⟨iterable, hiterable, h⟩ := bind_eq_ok.1 h
      cases h
      unfold loopOperands
      rw [hoperand]
      exact (makes_nil.cons hiterable).congr fun e => (or_iff_left id).symm

/-- **The operands of arguments** are their values. -/
theorem makes_arguments {arguments : List (Option String × Expression)}
    (h : (r.splitTarget words).1.mapM r.argument = .ok arguments) :
    r.Makes (r.argumentOperands words) (· ∈ arguments.map (·.2)) := by
  refine ⟨fun o ho => ?_, fun e he => ?_⟩
  · obtain ⟨word, hword, rfl⟩ := List.mem_map.1 ho
    obtain ⟨argument, hargument, hread⟩ := exists_of_mem_of_mapM h hword
    obtain ⟨e, he, hread⟩ := bind_eq_ok.1 hread
    cases hread
    exact ⟨e, he, List.mem_map_of_mem hargument⟩
  · obtain ⟨argument, hargument, rfl⟩ := List.mem_map.1 he
    obtain ⟨word, hword, hread⟩ := exists_of_mem_mapM h hargument
    obtain ⟨_, hvalue, hread⟩ := bind_eq_ok.1 hread
    cases hread
    exact ⟨word.operand, List.mem_map_of_mem hword, hvalue⟩

/-- **The operands of a route.** -/
theorem makes_routeCall {call : RouteCall} (h : r.routeCall tag parts = .ok call) :
    r.Makes (r.routeOperands parts) (· ∈ call.expressions) := by
  unfold routeCall at h
  obtain ⟨words, hwords, h⟩ := bind_eq_ok.1 h
  unfold routeOperands
  rw [hwords]
  cases words with
  | nil => cases h
  | cons first rest =>
    dsimp only at h
    split at h
    · cases h
    · obtain ⟨route, hroute, h⟩ := bind_eq_ok.1 h
      obtain ⟨arguments, harguments, h⟩ := bind_eq_ok.1 h
      split at h
      · cases h
      · cases h
        refine ((makes_arguments harguments).cons hroute).congr fun e => ?_
        simp only [RouteCall.expressions, List.mem_cons, List.mem_append, List.mem_map,
          List.mem_filterMap]
        refine or_congr_right ⟨?_, ?_⟩
        · rintro (⟨⟨name?, e'⟩, hmem, hsome⟩ | ⟨_, ⟨⟨name?, e'⟩, hmem, hsome⟩, rfl⟩)
          · cases name? with
            | none =>
              cases hsome
              exact ⟨_, hmem, rfl⟩
            | some name => cases hsome
          · cases name? with
            | none => cases hsome
            | some name =>
              cases hsome
              exact ⟨_, hmem, rfl⟩
        · rintro ⟨⟨name?, e'⟩, hmem, rfl⟩
          cases name? with
          | none => exact .inl ⟨_, hmem, rfl⟩
          | some name => exact .inr ⟨_, ⟨_, hmem, rfl⟩, rfl⟩

/-- The expressions that have been checked so far. -/
def Checked.expressions (c : Checked) : List Expression := c.positional ++ c.keyword.map (·.2)

/-- One more argument adds its value. -/
theorem exists_of_checkArgument {name : String} {signature : Signature} {word : CallWord}
    {c c' : Checked} (h : r.checkArgument name signature c word = .ok c') :
    ∃ e, r.expression word.operand = .ok e ∧
      ∀ e', e' ∈ c'.expressions ↔ e' = e ∨ e' ∈ c.expressions := by
  unfold checkArgument at h
  obtain ⟨e, he, h⟩ := bind_eq_ok.1 h
  refine ⟨e, he, fun e' => ?_⟩
  unfold Checked.expressions
  split at h
  · dsimp only at h
    split at h
    · cases h
    · split at h
      · cases h
      · cases h
        simp only [List.map_append, List.map_cons, List.map_nil, List.mem_append, List.mem_singleton]
        rw [← or_assoc, or_comm]
  · split at h
    · cases h
    · split at h
      · cases h
      · cases h
        simp only [List.mem_append, List.mem_singleton]
        rw [or_comm (b := e' = e), or_assoc]

/-- So do all of them. -/
theorem makes_checkArguments {name : String} {signature : Signature} {c c' : Checked}
    (h : words.foldlM (r.checkArgument name signature) c = .ok c') :
    ∃ P, r.Makes (words.map (·.operand)) P ∧ ∀ e, e ∈ c'.expressions ↔ P e ∨ e ∈ c.expressions := by
  induction words generalizing c with
  | nil =>
    cases h
    exact ⟨_, makes_nil, fun e => (or_iff_right id).symm⟩
  | cons word rest ih =>
    rw [List.foldlM_cons, bind_eq_ok] at h
    obtain ⟨next, hnext, h⟩ := h
    obtain ⟨e, he, hadded⟩ := exists_of_checkArgument hnext
    obtain ⟨P, hmakes, hall⟩ := ih h
    refine ⟨_, hmakes.cons he, fun e' => ?_⟩
    rw [hall, hadded, or_left_comm, or_assoc]

/-- **The operands of a call.** -/
theorem makes_tagCall {loadedTag : LoadedTag} {loaded : Span} {call : TagCall}
    (h : r.tagCall loadedTag loaded tag parts = .ok call) :
    r.Makes (r.callOperands parts) (· ∈ call.expressions) := by
  unfold tagCall at h
  split at h
  · cases h
  · unfold functionCall at h
    dsimp only at h
    split at h
    · cases h
    · obtain ⟨words, hwords, h⟩ := bind_eq_ok.1 h
      obtain ⟨checked, hchecked, h⟩ := bind_eq_ok.1 h
      split at h
      · cases h
      · cases h
        unfold callOperands
        rw [hwords]
        obtain ⟨P, hmakes, hall⟩ := makes_checkArguments hchecked
        refine hmakes.congr fun e => ?_
        exact (hall e).trans (or_iff_left List.not_mem_nil)

/-! ## Where operands stand -/

end Reader

/-- A place **inside** another one. -/
def Span.Inside (s outer : Span) : Prop := outer.start ≤ s.start ∧ s.stop ≤ outer.stop

theorem Span.Inside.trans {s t u : Span} (h : s.Inside t) (h' : t.Inside u) : s.Inside u :=
  ⟨Nat.le_trans h'.1 h.1, Nat.le_trans h.2 h'.2⟩

/-- Nothing is read behind the characters that are left to read. -/
theorem Cursor.Reads.cut {source : List Char} {c : Cursor} (h : c.Reads source) :
    c.Reads (source.take (c.start + c.rest.length)) := by
  have hlen := h.add_length_le
  refine ⟨?_, ?_⟩
  · rw [List.length_take]
    omega
  · rw [List.drop_take, Nat.add_sub_cancel_left]
    exact List.prefix_take_iff.2 ⟨h.2, Nat.le_refl _⟩

theorem Span.stop_le_of_within_take {source : List Char} {s : Span} {stop : Nat}
    (h : s.Within (source.take stop)) : s.stop ≤ stop := by
  unfold Span.Within at h
  rw [List.length_take] at h
  omega

/-- **A text that ends with a place** is the same there. -/
theorem Span.slice_take_stop (source : List Char) (s : Span) :
    s.slice (source.take s.stop) = s.slice source := by
  simp [Span.slice, Span.stop, List.drop_take, List.take_take]

theorem Span.within_take_stop {source : List Char} {s : Span} (h : s.Within source) :
    s.Within (source.take s.stop) := by
  unfold Span.Within at h ⊢
  rw [List.length_take]
  omega

namespace Reader

variable {r : Reader} {o : Operand} {parts : Span}

/-- Operands **stand in** parts if they stand in the text, and lie inside the parts. -/
def StandIn (r : Reader) (parts : Span) (operands : List Operand) : Prop :=
  ∀ o ∈ operands, o.StandsIn r.source ∧ o.span.Inside parts

theorem standIn_condition (h : parts.Within r.source) :
    r.StandIn parts (r.conditionOperands parts) := by
  intro o ho
  obtain ⟨word, hword, hoperand⟩ := List.mem_filterMap.1 ho
  cases word with
  | comparison operator span => cases hoperand
  | operand o' =>
    dsimp only at hoperand
    split at hoperand
    · cases hoperand
    · cases hoperand
      have hstands := (ConditionWord.sound_all h).words _ hword
      have hstart := (ConditionWord.ordered_all h).1 _ hword
      have hcut := ConditionWord.sound_all (Span.within_take_stop h)
      unfold ConditionWord.all Cursor.ofSpan at hcut hword
      rw [Span.slice_take_stop] at hcut
      have hstop : o.StandsIn _ := hcut.words _ hword
      exact ⟨hstands, hstart, Span.stop_le_of_within_take hstop.within⟩

theorem standIn_loop (h : parts.Within r.source) : r.StandIn parts (r.loopOperands parts) := by
  intro o ho
  have hoperand : (LoopReader.ofParts r.source parts).names.2.keyword.2.iterable.1 = .ok o := by
    unfold loopOperands at ho
    cases hread : (LoopReader.ofParts r.source parts).names.2.keyword.2.iterable.1 with
    | error e =>
      rw [hread] at ho
      cases ho
    | ok o' =>
      rw [hread] at ho
      cases List.mem_singleton.1 ho
      rfl
  have hiterable {source : List Char} (h : (LoopReader.ofParts r.source parts).Sound source) :=
    (LoopReader.settles_iterable (LoopReader.settles_keyword (LoopReader.sound_names h).2).2).1.of_ok
      hoperand
  obtain ⟨hstands, hstart⟩ := hiterable (LoopReader.sound_ofParts h)
  have hcut := LoopReader.sound_ofParts (Span.within_take_stop h)
  unfold LoopReader.ofParts Cursor.ofSpan at hcut
  rw [Span.slice_take_stop] at hcut
  refine ⟨hstands, ?_, Span.stop_le_of_within_take (hiterable hcut).1.within⟩
  rw [hstart]
  have hnames := (LoopReader.start_namesUpTo (r := .ofParts r.source parts)
    ((LoopReader.ofParts r.source parts).cursor.rest.length + 1)).1
  exact Nat.le_trans hnames LoopReader.start_le_keyword

theorem StandIn.subset {operands fewer : List Operand} (h : r.StandIn parts operands)
    (hsub : fewer ⊆ operands) : r.StandIn parts fewer := fun o ho => h o (hsub ho)

theorem standIn_words {words : List CallWord} (h : parts.Within r.source)
    (hwords : CallWord.all r.source parts = .ok words) :
    r.StandIn parts (words.map (·.operand)) := by
  intro o ho
  obtain ⟨word, hword, rfl⟩ := List.mem_map.1 ho
  have hstands := ((CallWord.settles_all h).of_ok hwords).1 word hword
  have hcut := CallWord.settles_all (Span.within_take_stop h)
  unfold CallWord.all Cursor.ofSpan at hcut
  rw [Span.slice_take_stop] at hcut
  have hstop := ((hcut.of_ok hwords).1 word hword).operand.within
  refine ⟨hstands.operand, ?_, Span.stop_le_of_within_take hstop⟩
  have hread : Cursor.readAll CallWord.step (.ofSpan r.source parts) = ⟨words, none⟩ :=
    Cursor.Words.eq_of_toExcept hwords
  have hstart := (CallWord.ordered_readAll (Cursor.reads_ofSpan h)).1
  rw [hread] at hstart
  have hle : parts.start ≤ word.span.start := hstart word hword
  cases hk : word.keyword with
  | none =>
    unfold CallWord.span at hle
    rwa [hk] at hle
  | some name =>
    unfold CallWord.span at hle
    rw [hk] at hle
    exact Nat.le_trans hle (hstands.ordered name hk)

theorem argumentOperands_subset (r : Reader) (words : List CallWord) :
    r.argumentOperands words ⊆ words.map (·.operand) :=
  ((r.splitTarget_sublist words).map _).subset

theorem standIn_route (h : parts.Within r.source) : r.StandIn parts (r.routeOperands parts) := by
  unfold routeOperands
  split
  · next first rest hwords =>
    refine (standIn_words h hwords).subset (List.cons_subset_cons _ ?_)
    exact r.argumentOperands_subset rest
  · exact nofun

theorem standIn_call (h : parts.Within r.source) : r.StandIn parts (r.callOperands parts) := by
  unfold callOperands
  split
  · next words hwords => exact (standIn_words h hwords).subset (r.argumentOperands_subset words)
  · exact nofun

end Reader

end Galley
