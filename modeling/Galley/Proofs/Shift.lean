import Galley.Proofs.Reading

/-!
# The same text at another place

What a reader of literals, names and filters answers depends on the text alone. At another place it
reads the same, and every span is moved by as much as the text is.

* `Cursor.shift`, `Expression.shift`: a cursor and an expression, so many places further on.
* `Moves`: two outcomes that are the same but for the places in them.
* `Chain.moves_read`, `Chain.moves_filterWord`: the value and the filters of a chain.
* `Reader.moves_chain`: an atom with its filters, read where they stand and on their own.
-/

namespace Galley

open Text

variable {α β γ δ : Type} {n k : Nat} {c : Cursor}

/-! ## Outcomes -/

/-- **The same but for the places.** Both are errors, or the second is what the first one becomes
when it is moved. -/
def Moves (move : α → β) : Except TemplateError α → Except TemplateError β → Prop
  | .ok a, .ok b => b = move a
  | .error _, .error _ => True
  | _, _ => False

namespace Moves

variable {move : α → β} {x : Except TemplateError α} {y : Except TemplateError β}

theorem of_ok {a : α} (h : Moves move x y) (hx : x = .ok a) : y = .ok (move a) := by
  subst hx
  cases y with
  | ok b => rw [h]
  | error e => cases h

theorem exists_of_ok {b : β} (h : Moves move x y) (hy : y = .ok b) : ∃ a, x = .ok a ∧ b = move a := by
  subst hy
  cases x with
  | ok a => exact ⟨a, rfl, h⟩
  | error e => cases h

theorem bind {next : α → Except TemplateError γ} {next' : β → Except TemplateError δ}
    {move' : γ → δ} (h : Moves move x y)
    (hnext : ∀ a, x = .ok a → Moves move' (next a) (next' (move a))) :
    Moves move' (x >>= next) (y >>= next') := by
  cases x with
  | ok a =>
    rw [h.of_ok rfl]
    exact hnext a rfl
  | error e =>
    cases y with
    | ok b => cases h
    | error e' => trivial

theorem map {f : α → γ} {f' : β → δ} {move' : γ → δ} (h : Moves move x y)
    (hf : ∀ a, f' (move a) = move' (f a)) : Moves move' (x.map f) (y.map f') := by
  cases x with
  | ok a =>
    rw [h.of_ok rfl]
    exact hf a
  | error e =>
    cases y with
    | ok b => cases h
    | error e' => trivial

theorem mapM {f : α → Except TemplateError γ} {f' : β → Except TemplateError δ} {move' : γ → δ}
    {items : List α} (h : ∀ a ∈ items, Moves move' (f a) (f' (move a))) :
    Moves (List.map move') (items.mapM f) ((items.map move).mapM f') := by
  induction items with
  | nil => rfl
  | cons a rest ih =>
    obtain ⟨ha, hrest⟩ := List.forall_mem_cons.1 h
    rw [List.map_cons, List.mapM_cons, List.mapM_cons]
    exact ha.bind fun _ _ => (ih hrest).bind fun _ _ => rfl

/-- A choice that does not depend on the place. -/
theorem ite {p : Prop} [Decidable p] {x' : Except TemplateError α} {y' : Except TemplateError β}
    (h : p → Moves move x y) (h' : ¬p → Moves move x' y') :
    Moves move (if p then x else x') (if p then y else y') := by
  by_cases hp : p
  · rw [if_pos hp, if_pos hp]
    exact h hp
  · rw [if_neg hp, if_neg hp]
    exact h' hp

end Moves

/-- What is made of words, and the error behind them. -/
theorem moves_mapM_words {move : α → β} {w : Cursor.Words α} {w' : Cursor.Words β}
    {f : α → Except TemplateError γ} {f' : β → Except TemplateError δ} {move' : γ → δ}
    (hwords : w'.words = w.words.map move) (herror : w'.error.isSome = w.error.isSome)
    (h : ∀ a ∈ w.words, Moves move' (f a) (f' (move a))) :
    Moves (List.map move') (w.mapM f) (w'.mapM f') := by
  unfold Cursor.Words.mapM
  rw [hwords]
  refine (Moves.mapM h).bind fun made _ => ?_
  cases he : w.error with
  | none =>
    rw [he, Option.isSome_none, Option.isSome_eq_false_iff, Option.isNone_iff_eq_none] at herror
    rw [herror]
    rfl
  | some e =>
    rw [he, Option.isSome_some, Option.isSome_iff_exists] at herror
    obtain ⟨e', herror⟩ := herror
    rw [herror]
    trivial

theorem moves_error {move : α → β} (e e' : TemplateError) : Moves move (.error e) (.error e') :=
  trivial

theorem moves_ok {move : α → β} {a : α} {b : β} (h : b = move a) : Moves move (.ok a) (.ok b) := h

/-! ## Literals and names -/

/-- The same stretch, `n` places further on. -/
def Span.shift (n : Nat) (s : Span) : Span := ⟨n + s.start, s.length⟩

/-- An operand, `n` places further on. -/
def Operand.shift (n : Nat) (o : Operand) : Operand := ⟨o.kind, o.span.shift n⟩

namespace Cursor

/-- The same text, `n` places further on. -/
def shift (n : Nat) (c : Cursor) : Cursor := ⟨n + c.start, c.rest⟩

@[simp] theorem rest_shift (n : Nat) (c : Cursor) : (c.shift n).rest = c.rest := rfl

@[simp] theorem advance_shift (n k : Nat) (c : Cursor) :
    (c.shift n).advance k = (c.advance k).shift n := by
  simp only [advance, shift, Nat.add_assoc]

@[simp] theorem finish_shift (n : Nat) (c : Cursor) : (c.shift n).finish = c.finish.shift n := rfl

@[simp] theorem ahead_shift (n k : Nat) (c : Cursor) :
    (c.shift n).ahead k = (c.ahead k).shift n := rfl

/-- What a reader answers, `n` places further on. -/
abbrev shiftTaken (n : Nat) (r : Span × Cursor) : Span × Cursor := (r.1.shift n, r.2.shift n)

theorem take_shift (n k : Nat) (c : Cursor) : (c.shift n).take k = shiftTaken n (c.take k) := by
  simp only [take, ahead_shift, advance_shift]

theorem moves_quotedText (n : Nat) (c : Cursor) (quote : Char) :
    Moves (shiftTaken n) (c.quotedText quote) ((c.shift n).quotedText quote) := by
  unfold quotedText
  rw [rest_shift]
  cases closingQuote? quote (c.rest.drop 1) with
  | none => trivial
  | some m => exact take_shift n (m + 1) c

theorem moves_translated (n : Nat) (c : Cursor) :
    Moves (shiftTaken n) c.translated (c.shift n).translated := by
  unfold translated
  simp only [advance_shift, rest_shift]
  cases (c.advance 2).rest with
  | nil => trivial
  | cons quote rest =>
    dsimp only
    split
    · trivial
    · refine (moves_quotedText n (c.advance 2) quote).bind fun r _ => ?_
      simp only [rest_shift]
      split
      · exact take_shift n (r.1.length + 3) c
      · trivial

theorem numeral_shift (n : Nat) (c : Cursor) : (c.shift n).numeral = shiftTaken n c.numeral :=
  take_shift n (numeralLength c.rest) c

theorem badSegment?_isSome (start start' : Nat) (segments : List (List Char)) :
    (badSegment? start segments).isSome = (badSegment? start' segments).isSome := by
  induction segments generalizing start start' with
  | nil => rfl
  | cons segment others ih =>
    simp only [badSegment?]
    split
    · rfl
    · rfl
    · exact ih _ _

theorem moves_checkPath (path : List Char) (start start' : Nat) :
    Moves id (checkPath path start) (checkPath path start') := by
  have h := badSegment?_isSome start start' (splitOn '.' path)
  unfold checkPath
  cases h1 : badSegment? start (splitOn '.' path) <;>
    cases h2 : badSegment? start' (splitOn '.' path) <;> simp_all [Moves]

theorem moves_path (n : Nat) (c : Cursor) : Moves (shiftTaken n) c.path (c.shift n).path := by
  unfold path
  exact (moves_checkPath _ _ _).bind fun _ _ => take_shift n (pathLength c.rest) c

end Cursor

/-! ## Chains -/

/-- A filter word, `n` places further on. -/
def FilterWord.shift (n : Nat) (w : FilterWord) : FilterWord :=
  ⟨w.name.shift n, w.argument.map (Operand.shift n)⟩

namespace Chain

open Cursor

/-- An operand and the cursor behind it, `n` places further on. -/
abbrev shiftOperand (n : Nat) (r : Operand × Cursor) : Operand × Cursor := (r.1.shift n, r.2.shift n)

theorem moves_head_name (n : Nat) (c : Cursor) :
    Moves (shiftOperand n) (head.name c) (head.name (c.shift n)) := by
  unfold head.name
  simp only [rest_shift, ahead_shift, advance_shift]
  refine .ite (fun _ => moves_error _ _) fun _ => .ite (fun _ => ?_) fun _ => ?_
  · exact (moves_checkPath _ _ _).bind fun _ _ => moves_error _ _
  · exact (moves_checkPath _ _ _).bind fun _ _ => moves_ok rfl

theorem moves_head (n : Nat) (c : Cursor) : Moves (shiftOperand n) (head c) (head (c.shift n)) := by
  unfold head
  rw [rest_shift]
  split
  · exact (moves_translated n c).map fun _ => rfl
  · refine .ite (fun _ => (moves_quotedText n c _).map fun _ => rfl) fun _ => ?_
    refine .ite (fun _ => ?_) fun _ => ?_
    · rw [numeral_shift]
      exact moves_ok rfl
    · exact moves_head_name n c
  · exact moves_error _ _

theorem filters_shift (n : Nat) (c : Cursor) : filters (c.shift n) = (filters c).shift n := by
  unfold filters
  simp only [rest_shift, advance_shift, finish_shift]
  split
  · rfl
  · simp only [shift, Nat.add_assoc]

theorem moves_checkGap (n : Nat) (o o' : Operand) (c : Cursor) (hkind : o'.kind = o.kind) :
    Moves id (checkGap o c) (checkGap o' (c.shift n)) := by
  unfold checkGap
  rw [rest_shift, hkind]
  refine .ite (fun _ => moves_ok rfl) fun _ => ?_
  exact .ite (fun _ => moves_error _ _) fun _ => moves_error _ _

/-- **The value of a chain** and the cursor at its first filter. -/
theorem moves_read (n : Nat) (content : List Char) (start : Nat) :
    Moves (Option.map (shiftOperand n)) (read? content start) (read? content (n + start)) := by
  unfold read?
  refine .ite (fun _ => moves_ok rfl) fun _ => ?_
  rw [Nat.add_assoc]
  refine (moves_head n _).bind fun (value, behind) _ => ?_
  refine (moves_checkGap n value (value.shift n) behind rfl).bind fun _ _ => ?_
  exact moves_ok (congrArg (fun c => some (value.shift n, c)) (filters_shift n behind))

/-- An argument, if there is one, and the cursor behind it, `n` places further on. -/
abbrev shiftArgument (n : Nat) (r : Option Operand × Cursor) : Option Operand × Cursor :=
  (r.1.map (Operand.shift n), r.2.shift n)

theorem moves_argument (n : Nat) (c : Cursor) :
    Moves (shiftArgument n) (argument c) (argument (c.shift n)) := by
  unfold argument
  simp only [rest_shift, advance_shift]
  refine .ite (fun _ => moves_ok rfl) fun _ => ?_
  split
  · exact moves_error _ _
  · exact (moves_translated n _).map fun _ => rfl
  · exact moves_error _ _
  · refine .ite (fun _ => (moves_quotedText n _ _).map fun _ => rfl) fun _ => ?_
    refine .ite (fun _ => ?_) fun _ => ?_
    · rw [numeral_shift]
      exact moves_ok rfl
    · exact (moves_path n _).map fun _ => rfl

theorem moves_separator (n : Nat) (c : Cursor) :
    Moves (Cursor.shift n) (separator c) (separator (c.shift n)) := by
  unfold separator
  simp only [rest_shift, advance_shift]
  exact .ite (fun _ => moves_ok rfl) fun _ => moves_error _ _

/-- **A filter** of a chain and the cursor behind it. -/
theorem moves_filterWord (n : Nat) (c : Cursor) :
    Moves (fun r => (r.1.shift n, r.2.shift n)) (filterWord c) (filterWord (c.shift n)) := by
  unfold filterWord
  simp only [rest_shift, advance_shift]
  refine .ite (fun _ => moves_error _ _) fun _ => ?_
  refine (moves_argument n _).bind fun r _ => (moves_separator n _).bind fun _ _ => ?_
  exact moves_ok rfl

/-- The words and the error of filters are the same but for their places. -/
theorem readUpTo_shift (n limit : Nat) (c : Cursor) :
    (readUpTo filterStep limit (c.shift n)).words =
        (readUpTo filterStep limit c).words.map (FilterWord.shift n) ∧
      (readUpTo filterStep limit (c.shift n)).error.isSome =
        (readUpTo filterStep limit c).error.isSome := by
  induction limit generalizing c with
  | zero => exact ⟨rfl, rfl⟩
  | succ limit ih =>
    have hmoves := moves_filterWord n c
    unfold readUpTo filterStep Step.ofRead
    rw [rest_shift]
    cases hempty : c.rest.isEmpty with
    | true => exact ⟨rfl, rfl⟩
    | false =>
      simp only [Bool.false_eq_true, if_false]
      cases hread : filterWord c with
      | error e =>
        rw [hread] at hmoves
        cases hread' : filterWord (c.shift n) with
        | error e' => exact ⟨rfl, rfl⟩
        | ok r' => rw [hread'] at hmoves; cases hmoves
      | ok r =>
        rw [hmoves.of_ok hread]
        obtain ⟨hwords, herror⟩ := ih r.2
        exact ⟨congrArg _ hwords, herror⟩

theorem readAll_shift (n : Nat) (c : Cursor) :
    (readAll filterStep (c.shift n)).words =
        (readAll filterStep c).words.map (FilterWord.shift n) ∧
      (readAll filterStep (c.shift n)).error.isSome = (readAll filterStep c).error.isSome :=
  readUpTo_shift n c.rest.length c

end Chain

/-! ## Expressions -/

/-- An atom, `n` places further on. -/
def Atom.shift (n : Nat) : Atom → Atom
  | int s v => int (s.shift n) v
  | float s v => float (s.shift n) v
  | text s v => text (s.shift n) v
  | translated s v => translated (s.shift n) v
  | path s root names => path (s.shift n) root names
  | loop s parents counter names => loop (s.shift n) parents counter names

/-- A filter in use, `n` places further on. -/
def FilterUse.shift (n : Nat) (u : FilterUse) : FilterUse :=
  ⟨u.span.shift n, u.filter, u.argument.map (Atom.shift n)⟩

/-- **An expression, `n` places further on.** -/
def Expression.shift (n : Nat) (e : Expression) : Expression :=
  ⟨e.head.shift n, e.filters.map (FilterUse.shift n)⟩

/-- A text **stands** in another one at a place. -/
def StandsAt (content : List Char) (place : Nat) (source : List Char) : Prop :=
  Span.slice ⟨place, content.length⟩ source = content

theorem StandsAt.drop_eq {content source : List Char} (h : StandsAt content n source) :
    source.drop n = content ++ (source.drop n).drop content.length := by
  have htake : (source.drop n).take content.length = content := h
  have heq := (List.take_append_drop content.length (source.drop n)).symm
  rwa [htake] at heq

/-- What a text has at a place, the other one has where the text stands. -/
theorem StandsAt.slice_shift {content source : List Char} {s : Span}
    (h : StandsAt content n source) (hs : s.Within content) :
    (s.shift n).slice source = s.slice content := by
  have hle : s.start + s.length ≤ content.length := hs
  have heq : s.slice content = s.slice (Span.slice ⟨n, content.length⟩ source) := by rw [h]
  rw [heq]
  simp only [Span.slice, Span.shift, List.drop_take, List.take_take, List.drop_drop]
  rw [Nat.min_eq_left (by omega)]

namespace Reader

/-- A reader of another text. -/
def on (r : Reader) (source : List Char) : Reader := { r with source }

variable {content source : List Char} {s : Span} (r : Reader)

@[simp] theorem source_on (source : List Char) : (r.on source).source = source := rfl

@[simp] theorem filters_on (source : List Char) : (r.on source).filters = r.filters := rfl

@[simp] theorem loopDepth_on (source : List Char) : (r.on source).loopDepth = r.loopDepth := rfl

theorem textAt_shift (h : StandsAt content n source) (hs : s.Within content) :
    (r.on source).textAt (s.shift n) = (r.on content).textAt s :=
  congrArg String.ofList (h.slice_shift hs)

theorem moves_number (h : StandsAt content n source) (hs : s.Within content) :
    Moves (Atom.shift n) ((r.on content).number s) ((r.on source).number (s.shift n)) := by
  unfold number
  simp only [source_on, h.slice_shift hs]
  split
  · exact moves_ok rfl
  · split
    · exact moves_ok rfl
    · exact moves_error _ _

theorem path_shift (h : StandsAt content n source) (hs : s.Within content) :
    (r.on source).path (s.shift n) = ((r.on content).path s).shift n := by
  unfold path
  rw [source_on, source_on, loopDepth_on, loopDepth_on, h.slice_shift hs]
  split
  · rfl
  · split <;> rfl

theorem moves_literalText (text : List Char) : Moves id (literalText text) (literalText text) := by
  cases literalText text with
  | ok t => rfl
  | error e => trivial

/-- **An operand is the same atom** at another place. -/
theorem moves_atom {o : Operand} (h : StandsAt content n source) (ho : o.StandsIn content) :
    Moves (Atom.shift n) ((r.on content).atom o) ((r.on source).atom (o.shift n)) := by
  have hinner : (o.shift n).inner = o.inner.shift n := by
    simp only [Operand.inner, OperandKind.inner, Operand.shift, Span.shift, Nat.add_assoc]
  unfold atom
  rw [hinner]
  simp only [Operand.shift]
  cases hkind : o.kind with
  | numeric => exact r.moves_number h ho.within
  | text =>
    simp only [source_on, h.slice_shift ho.within]
    exact (moves_literalText _).bind fun _ _ => moves_ok rfl
  | translated =>
    have hwithin : Span.Within ⟨o.span.start + 2, o.span.length - 3⟩ content := by
      have := ho.within
      have := (ho.translated hkind).2
      simp only [Span.Within, Span.stop] at *
      omega
    have hslice : Span.slice ⟨(o.span.shift n).start + 2, (o.span.shift n).length - 3⟩ source =
        Span.slice ⟨o.span.start + 2, o.span.length - 3⟩ content := by
      rw [← h.slice_shift hwithin]
      simp only [Span.shift, Nat.add_assoc]
    simp only [source_on, hslice]
    exact (moves_literalText _).bind fun _ _ => moves_ok rfl
  | path => exact moves_ok (r.path_shift h ho.within)

theorem moves_filter (h : StandsAt content n source) (hs : s.Within content) :
    Moves id ((r.on content).filter s) ((r.on source).filter (s.shift n)) := by
  unfold filter
  rw [r.textAt_shift h hs]
  simp only [filters_on]
  split
  · exact moves_ok rfl
  · split
    · exact moves_ok rfl
    · exact moves_error _ _

theorem moves_checkArity (filter : Filter) (s s' : Span) (argument : Option Atom) :
    Moves id (checkArity filter s argument)
      (checkArity filter s' (argument.map (Atom.shift n))) := by
  unfold checkArity
  cases filter.arity <;> cases argument <;> trivial

theorem moves_filterUse {w : FilterWord} (h : StandsAt content n source) (hw : w.StandsIn content) :
    Moves (FilterUse.shift n) ((r.on content).filterUse w)
      ((r.on source).filterUse (w.shift n)) := by
  have hrest (argument : Option Atom) : Moves (FilterUse.shift n)
      (do
        let filter ← (r.on content).filter w.name
        checkArity filter w.name argument
        return (⟨w.name, filter, argument⟩ : FilterUse))
      (do
        let filter ← (r.on source).filter (w.name.shift n)
        checkArity filter (w.name.shift n) (argument.map (Atom.shift n))
        return (⟨w.name.shift n, filter, argument.map (Atom.shift n)⟩ : FilterUse)) := by
    refine (r.moves_filter h hw.name).bind fun filter _ => ?_
    exact (moves_checkArity filter _ _ argument).bind fun _ _ => moves_ok rfl
  unfold filterUse FilterWord.shift
  cases ha : w.argument with
  | none => exact hrest none
  | some o =>
    have hargument : Moves (Option.map (Atom.shift n)) ((r.on content).atom o |>.map some)
        ((r.on source).atom (o.shift n) |>.map some) :=
      (r.moves_atom h (hw.argument o ha)).map fun _ => rfl
    exact hargument.bind fun argument _ => hrest argument

/-- **An atom with its filters** is the same on its own and where its text stands in another one. -/
theorem moves_chain (whole whole' : Span) (h : StandsAt content n source) :
    Moves (Expression.shift n) ((r.on content).chain content whole 0)
      ((r.on source).chain content whole' n) := by
  have hreads : (⟨0, content⟩ : Cursor).Reads content := ⟨Nat.zero_le _, List.prefix_rfl⟩
  unfold chain
  refine (Chain.moves_read n content 0).bind fun chain? hchain => ?_
  cases chain? with
  | none => exact moves_error _ _
  | some chain =>
    obtain ⟨value, filters⟩ := chain
    obtain ⟨hvalue, hfilters, -⟩ := (Chain.settles_read hreads).of_ok hchain value filters rfl
    have hwords := Chain.sound_filterStep.readAll hfilters
    obtain ⟨hshift, herror⟩ := Chain.readAll_shift n filters
    refine (r.moves_atom h hvalue).bind fun head _ => ?_
    refine (moves_mapM_words hshift herror fun w hw => ?_).bind fun uses _ => moves_ok rfl
    exact r.moves_filterUse h (hwords.words w hw)

end Reader

end Galley
