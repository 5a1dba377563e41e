import Galley.Proofs.Confines

/-!
# Readers stay on their text

A reader keeps what is left to read and where this starts, and changes both in many places: behind a
word, behind blanks, behind a separator, and after an error. Whatever it is asked for, and in whatever
order, what is left to read stands in the text where the reader says, the place never moves back, and
what is answered or refused lies between the ends of the parts that are read.

* `Reading.Stays`: a computation that narrows its cursor and stays inside of parts, with one lemma for
  each way to build one.
* `ConditionWord.perform_inside`, `CallWord.perform_inside`, `Chain.perform_inside`,
  `LoopReader.perform_inside`: one turn.
* `turns`, `Turn.Steady`, `steady_of_mem_turns`: what a reader is asked for in a row.
* `CallWord.answer_next`, `Chain.answer_next`, `ConditionWord.step_next`: asked for the next word, the
  readers answer what the steps through all words do.
* `Turn.steady_throughout`: **all readers stay on their text.**
-/

namespace Galley

open Cursor Text

variable {α β : Type} {source : List Char} {c later : Cursor} {parts : Span} {n : Nat}

/-! ## Computations on a cursor -/

namespace Reading

variable {P : α → Prop} {Q : β → Prop} {x : Reading α} {f : α → Reading β}
  {read : Cursor → Except TemplateError (α × Cursor)} {spans : α → List Span}

theorem run_bind (x : Reading α) (f : α → Reading β) (c : Cursor) :
    (x >>= f).run.run c =
      match x.run.run c with
      | (.ok a, behind) => (f a).run.run behind
      | (.error e, behind) => (.error e, behind) := by
  simp only [bind, ExceptT.bind, ExceptT.run, StateT.run, StateT.bind, ExceptT.mk, ExceptT.bindCont]
  rcases x c with ⟨_ | _, behind⟩ <;> rfl

/-- A computation **stays** in parts if its cursor narrows, and its outcome lies in the parts when what
is left to read does. -/
def Stays (parts : Span) (P : α → Prop) (x : Reading α) : Prop :=
  ∀ c : Cursor, c.range.Inside parts →
    StaysIn parts P (x.run.run c).1 ∧ c.Narrows (x.run.run c).2

theorem stays_pure {a : α} (h : P a) : Stays parts P (pure a) :=
  fun c _ => ⟨h, narrows_refl c⟩

theorem Stays.bind (h : Stays parts P x) (hf : ∀ a, P a → Stays parts Q (f a)) :
    Stays parts Q (x >>= f) := by
  intro c hin
  obtain ⟨houtcome, hnarrows⟩ := h c hin
  rw [run_bind]
  revert houtcome hnarrows
  cases x.run.run c with
  | mk answer behind =>
    intro houtcome hnarrows
    cases answer with
    | error e => exact ⟨houtcome, hnarrows⟩
    | ok a =>
      obtain ⟨houtcome', hnarrows'⟩ := hf a houtcome behind (hnarrows.range_inside.trans hin)
      exact ⟨houtcome', hnarrows.trans hnarrows'⟩

theorem stays_ofRead (h : ∀ c : Cursor, c.Confines spans (read c)) :
    Stays parts (fun a => ∀ s ∈ spans a, s.Inside parts) (ofRead read) := by
  intro c hin
  have hread := h c
  change StaysIn parts _ (ofRead read c).1 ∧ c.Narrows (ofRead read c).2
  unfold ofRead
  split
  · next a behind hr =>
    rw [hr] at hread
    exact ⟨fun s hs => (hread.1 s hs).trans hin, hread.2⟩
  · next e hr =>
    rw [hr] at hread
    exact ⟨fun label hlabel => (hread label hlabel).trans hin, narrows_refl c⟩

theorem Stays.finishing (h : Stays parts P x) (final : TemplateError → Bool) :
    Stays parts P (finishing final x) := by
  intro c hin
  obtain ⟨houtcome, hnarrows⟩ := h c hin
  change StaysIn parts P (Reading.finishing final x c).1 ∧ c.Narrows (Reading.finishing final x c).2
  unfold Reading.finishing
  split
  · next a behind hr =>
    rw [hr] at houtcome hnarrows
    exact ⟨houtcome, hnarrows⟩
  · next e behind hr =>
    rw [hr] at houtcome hnarrows
    refine ⟨houtcome, ?_⟩
    dsimp only
    split
    · exact hnarrows.trans (narrows_finish behind)
    · exact hnarrows

theorem stays_blanks : Stays parts (fun _ => True) blanks :=
  fun c _ => ⟨trivial, narrows_advance (blankLength_le c.rest)⟩

theorem stays_separation :
    Stays parts (fun _ => ∀ s ∈ ([] : List Span), s.Inside parts) separation :=
  stays_ofRead confines_separated

end Reading

/-! ## Answers -/

/-- Places that lie in parts, and an error whose places do. -/
structure Cursor.Words.Inside (w : Cursor.Words Span) (parts : Span) : Prop where
  words : ∀ s ∈ w.words, s.Inside parts
  error : ∀ e, w.error = some e → ∀ label ∈ e.labels, label.span.Inside parts

theorem Cursor.Words.inside_error {e : TemplateError} (h : ∀ label ∈ e.labels, label.span.Inside parts) :
    (⟨[], some e⟩ : Cursor.Words Span).Inside parts :=
  ⟨List.forall_mem_nil _, fun _ he => Option.some.inj he ▸ h⟩

theorem Cursor.Words.inside_words {spans : List Span} (h : ∀ s ∈ spans, s.Inside parts) :
    (⟨spans, none⟩ : Cursor.Words Span).Inside parts :=
  ⟨h, nofun⟩

namespace Reading

variable {x : Reading α} {spans : α → List Span}

theorem Stays.places (h : Stays parts (fun a => ∀ s ∈ spans a, s.Inside parts) x)
    (hin : c.range.Inside parts) :
    (x.places spans c).1.Inside parts ∧ c.Narrows (x.places spans c).2 := by
  obtain ⟨houtcome, hnarrows⟩ := h c hin
  unfold Reading.places
  split
  · next a behind hr =>
    rw [hr] at houtcome hnarrows
    exact ⟨Words.inside_words houtcome, hnarrows⟩
  · next e behind hr =>
    rw [hr] at houtcome hnarrows
    exact ⟨Words.inside_error houtcome, hnarrows⟩

theorem Stays.nextPlaces (h : Stays parts (fun a => ∀ s ∈ spans a, s.Inside parts) x)
    (hin : c.range.Inside parts) :
    (x.nextPlaces spans c).1.Inside parts ∧ c.Narrows (x.nextPlaces spans c).2 := by
  unfold Reading.nextPlaces
  split
  · exact ⟨Words.inside_words (List.forall_mem_nil _), narrows_refl c⟩
  · exact h.places hin

end Reading

open Reading

/-! ## Readers of words -/

namespace ConditionWord

theorem stays_word : Stays parts (fun w => ∀ s ∈ spans w, s.Inside parts) word :=
  ((stays_ofRead confines_operand).bind fun _ hvalue =>
    stays_separation.bind fun _ _ => stays_pure hvalue).finishing _

theorem stays_next : Stays parts (fun w => ∀ s ∈ spans w, s.Inside parts) next := by
  intro c hin
  change StaysIn parts _ (next c).1 ∧ c.Narrows (next c).2
  have hword := wordLength_le c.rest
  have hblank := blankLength_le (c.rest.drop (wordLength c.rest))
  rw [List.length_drop] at hblank
  unfold next
  dsimp only
  split
  · exact ⟨List.forall_mem_singleton.2 ((inside_ahead hword).trans hin), narrows_advance (by omega)⟩
  · exact stays_word c hin

theorem perform_inside (call : WordCall) (hin : c.range.Inside parts) :
    (perform call c).1.Inside parts ∧ c.Narrows (perform call c).2 := by
  cases call with
  | next => exact stays_next.nextPlaces hin
  | word => exact stays_word.places hin
  | separation => exact stays_separation.places hin

end ConditionWord

namespace CallWord

theorem stays_word : Stays parts (fun w => ∀ s ∈ spans w, s.Inside parts) word :=
  (stays_ofRead confines_readKeyword).bind fun _ hname =>
    (stays_ofRead confines_operand).bind fun _ hvalue =>
      stays_pure (List.forall_mem_cons.2 ⟨hvalue _ List.mem_cons_self, hname⟩)

theorem stays_next : Stays parts (fun w => ∀ s ∈ spans w, s.Inside parts) next :=
  (stays_word.bind fun _ hw => stays_separation.bind fun _ _ => stays_pure hw).finishing _

theorem perform_inside (call : WordCall) (hin : c.range.Inside parts) :
    (perform call c).1.Inside parts ∧ c.Narrows (perform call c).2 := by
  cases call with
  | next => exact stays_next.nextPlaces hin
  | word => exact stays_word.places hin
  | separation => exact stays_separation.places hin

end CallWord

namespace Chain

theorem stays_argumentBehind :
    Stays parts (fun value => ∀ s ∈ argumentSpans value, s.Inside parts) argumentBehind := by
  intro c hin
  change StaysIn parts _ (argumentBehind c).1 ∧ c.Narrows (argumentBehind c).2
  have hread := confines_argument c
  unfold argumentBehind
  split
  · next value behind hr =>
    rw [hr] at hread
    exact ⟨fun s hs => (hread.1 s hs).trans hin, hread.2⟩
  · next e hr =>
    rw [hr] at hread
    exact ⟨fun label hlabel => (hread label hlabel).trans hin, narrows_advance (colon_lt_of_error hr)⟩

theorem stays_filter : Stays parts (fun w => ∀ s ∈ spans w, s.Inside parts) filter :=
  stays_blanks.bind fun _ _ => (stays_ofRead confines_filterName).bind fun _ hname =>
    stays_argumentBehind.bind fun _ hvalue =>
      stays_pure (List.forall_mem_cons.2 ⟨hname _ List.mem_cons_self, hvalue⟩)

theorem stays_separation :
    Stays parts (fun _ => ∀ s ∈ ([] : List Span), s.Inside parts) separation :=
  stays_ofRead confines_separator

theorem stays_next : Stays parts (fun w => ∀ s ∈ spans w, s.Inside parts) next :=
  (stays_filter.bind fun _ hw => stays_separation.bind fun _ _ => stays_pure hw).finishing _

theorem perform_inside (call : FilterCall) (hin : c.range.Inside parts) :
    (perform call c).1.Inside parts ∧ c.Narrows (perform call c).2 := by
  cases call with
  | next => exact stays_next.nextPlaces hin
  | filter => exact stays_filter.places hin
  | argument => exact stays_argumentBehind.places hin
  | separation => exact stays_separation.places hin

end Chain

/-! ## The reader of a loop header -/

namespace LoopReader

variable {r : LoopReader}

/-- A loop reader **works inside** parts: what is left to read and the word read last lie there. -/
structure WorksInside (r : LoopReader) (parts : Span) : Prop where
  range : r.cursor.range.Inside parts
  previous : ∀ s, r.previous = some s → s.Inside parts

/-- What is read of a loop header **goes on** inside of the parts. -/
structure GoesOn (r : LoopReader) (parts : Span) (P : α → Prop) (x : Except TemplateError α × LoopReader) :
    Prop where
  outcome : StaysIn parts P x.1
  narrows : r.cursor.Narrows x.2.cursor
  previous : ∀ s, x.2.previous = some s → s.Inside parts

theorem GoesOn.worksInside {P : α → Prop} {x : Except TemplateError α × LoopReader}
    (h : r.GoesOn parts P x) (hr : r.WorksInside parts) : x.2.WorksInside parts :=
  ⟨h.narrows.range_inside.trans hr.range, h.previous⟩

/-- The place of a word that is missing is that of the word before it. -/
theorem WorksInside.goesOn_missing {P : α → Prop} {cause : Cause} (h : r.WorksInside parts)
    (ho : cause.otherSpans = []) : r.GoesOn parts P (.error ⟨r.previous, cause⟩, r) :=
  ⟨staysIn_error_of h.previous ho, narrows_refl _, h.previous⟩

theorem goesOn_named {skip : Nat} (last : Bool) (h : r.WorksInside parts)
    (hn : n ≤ r.cursor.rest.length) (hskip : skip ≤ r.cursor.rest.length) :
    r.GoesOn parts (fun name? => ∀ s ∈ name?.toList, s.Inside parts) (r.named n skip last) := by
  have hspan := (inside_ahead hn).trans h.range
  have hprevious : ∀ s, some (r.cursor.ahead n) = some s → s.Inside parts :=
    fun _ hs => Option.some.inj hs ▸ hspan
  have hblank := blankLength_le (r.cursor.rest.drop skip)
  rw [List.length_drop] at hblank
  unfold named
  dsimp only
  split
  · exact ⟨staysIn_error hspan rfl, narrows_finish _, hprevious⟩
  · exact ⟨List.forall_mem_singleton.2 hspan, narrows_advance (by omega), hprevious⟩

theorem goesOn_name (h : r.WorksInside parts) :
    r.GoesOn parts (fun name? => ∀ s ∈ name?.toList, s.Inside parts) r.name := by
  have hword := wordLength_le r.cursor.rest
  unfold name
  dsimp only
  repeat' split
  · exact ⟨List.forall_mem_nil _, narrows_refl _, h.previous⟩
  · exact ⟨List.forall_mem_nil _, narrows_refl _, h.previous⟩
  · exact goesOn_named _ h (by omega) (by omega)
  · exact goesOn_named _ h hword hword

/-- Name after name, the reader narrows. -/
theorem namesUpTo_inside (limit : Nat) (h : r.WorksInside parts) :
    (namesUpTo limit r).1.Inside parts ∧ r.cursor.Narrows (namesUpTo limit r).2.cursor ∧
      (namesUpTo limit r).2.WorksInside parts := by
  induction limit generalizing r with
  | zero => exact ⟨Words.inside_words (List.forall_mem_nil _), narrows_refl _, h⟩
  | succ limit ih =>
    have hname := goesOn_name h
    have hnext := hname.worksInside h
    unfold namesUpTo
    split
    · next next hn =>
      rw [hn] at hname hnext
      exact ⟨Words.inside_words (List.forall_mem_nil _), hname.narrows, hnext⟩
    · next e next hn =>
      rw [hn] at hname hnext
      exact ⟨Words.inside_error hname.outcome, hname.narrows, hnext⟩
    · next span next hn =>
      rw [hn] at hname hnext
      obtain ⟨⟨hwords, herror⟩, hnarrows, hlast⟩ := ih hnext
      have hspan := hname.outcome span List.mem_cons_self
      exact ⟨⟨List.forall_mem_cons.2 ⟨hspan, hwords⟩, herror⟩, hname.narrows.trans hnarrows, hlast⟩

theorem goesOn_keyword (h : r.WorksInside parts) :
    r.GoesOn parts (fun _ => ∀ s ∈ ([] : List Span), s.Inside parts) r.keyword := by
  have hword := wordLength_le r.cursor.rest
  have hspan := (inside_ahead hword).trans h.range
  have hblank := blankLength_le (r.cursor.rest.drop (wordLength r.cursor.rest))
  rw [List.length_drop] at hblank
  unfold keyword
  dsimp only
  split
  · exact h.goesOn_missing rfl
  · split
    · exact ⟨staysIn_error hspan rfl, narrows_refl _, h.previous⟩
    · exact ⟨List.forall_mem_nil _, narrows_advance (by omega),
        fun _ hs => Option.some.inj hs ▸ hspan⟩

theorem goesOn_separation (h : r.WorksInside parts) :
    r.GoesOn parts (fun _ => ∀ s ∈ ([] : List Span), s.Inside parts) r.separation := by
  have hread := confines_separated r.cursor
  unfold separation
  split
  · next e he =>
    rw [he] at hread
    exact ⟨fun label hlabel => (hread label hlabel).trans h.range, narrows_refl _, h.previous⟩
  · next next hnext =>
    rw [hnext] at hread
    exact ⟨List.forall_mem_nil _, hread.2, h.previous⟩

theorem goesOn_iterable (h : r.WorksInside parts) :
    r.GoesOn parts (fun o => ∀ s ∈ [o.span], s.Inside parts) r.iterable := by
  have hoperand := confines_operand r.cursor
  unfold iterable
  split
  · exact h.goesOn_missing rfl
  · split
    · next e he =>
      rw [he] at hoperand
      exact ⟨fun label hlabel => (hoperand label hlabel).trans h.range, narrows_refl _, h.previous⟩
    · next o behind ho =>
      rw [ho] at hoperand
      obtain ⟨hspans, hnarrows⟩ := hoperand
      -- the blanks behind the operand are passed by the reader that it leaves
      have hbehind : ({ r with cursor := behind } : LoopReader).WorksInside parts :=
        ⟨hnarrows.range_inside.trans h.range, h.previous⟩
      have hseparation := goesOn_separation hbehind
      unfold separation at hseparation
      dsimp only at hseparation
      split
      · next e he =>
        rw [he] at hseparation
        exact ⟨hseparation.outcome, hnarrows, h.previous⟩
      · next next hnext =>
        rw [hnext] at hseparation
        exact ⟨fun s hs => (hspans s hs).trans h.range, hnarrows.trans hseparation.narrows, h.previous⟩

theorem staysIn_direction (h : r.WorksInside parts) :
    StaysIn parts (fun _ => ∀ s ∈ ([] : List Span), s.Inside parts) r.direction := by
  have hword := wordLength_le r.cursor.rest
  have hblank := blankLength_le (r.cursor.rest.drop (wordLength r.cursor.rest))
  rw [List.length_drop] at hblank
  unfold direction
  dsimp only
  split
  · exact List.forall_mem_nil _
  · split
    · split
      · exact List.forall_mem_nil _
      · -- all that is left behind the word and its blanks
        refine staysIn_error (Span.Inside.trans ?_ h.range) rfl
        simp only [Span.Inside, Span.stop, Cursor.range]
        omega
    · exact staysIn_error ((inside_ahead hword).trans h.range) rfl

theorem places_inside {spans : α → List Span} {x : Except TemplateError α}
    (h : StaysIn parts (fun a => ∀ s ∈ spans a, s.Inside parts) x) :
    (places spans x).Inside parts := by
  cases x with
  | ok a => exact Words.inside_words h
  | error e => exact Words.inside_error h

theorem GoesOn.answered {spans : α → List Span} {x : Except TemplateError α × LoopReader}
    (h : r.GoesOn parts (fun a => ∀ s ∈ spans a, s.Inside parts) x) (hr : r.WorksInside parts) :
    (places spans x.1).Inside parts ∧ r.cursor.Narrows x.2.cursor ∧ x.2.WorksInside parts :=
  ⟨places_inside h.outcome, h.narrows, h.worksInside hr⟩

/-- **Whatever the reader of a loop header is asked for**, it narrows and works inside of the parts. -/
theorem perform_inside (call : LoopCall) (h : r.WorksInside parts) :
    (perform call r).1.Inside parts ∧ r.cursor.Narrows (perform call r).2.cursor ∧
      (perform call r).2.WorksInside parts := by
  cases call with
  | name => exact (goesOn_name h).answered h
  | names => exact namesUpTo_inside _ h
  | keyword => exact (goesOn_keyword h).answered h
  | iterable => exact (goesOn_iterable h).answered h
  | separation => exact (goesOn_separation h).answered h
  | direction => exact ⟨places_inside (staysIn_direction h), narrows_refl _, h⟩

end LoopReader

/-! ## Turns -/

/-- What a reader is asked for **once**: its cursor before, the places that it answers or its error, and
its cursor behind. -/
structure Turn where
  before : Cursor
  answer : Cursor.Words Span
  behind : Cursor

/-- The turns of a reader that is asked for one thing after another. It goes on from where it is, also
after an error. -/
def turns {State Call : Type} (cursor : State → Cursor)
    (perform : Call → State → Cursor.Words Span × State) : State → List Call → List Turn
  | _, [] => []
  | s, call :: later =>
    let (answer, behind) := perform call s
    ⟨cursor s, answer, cursor behind⟩ :: turns cursor perform behind later

/-- A turn is **steady** if what is left to read stands in the text at the cursor, the cursor does not
move back, and all places that are answered or reported lie between the ends of the parts. -/
structure Turn.Steady (source : List Char) (parts : Span) (t : Turn) : Prop where
  rest : t.behind.rest = Span.slice ⟨t.behind.start, t.behind.rest.length⟩ source
  forward : t.before.start ≤ t.behind.start
  answer : t.answer.Inside parts

namespace Cursor

/-- A cursor **stands on** the parts of a tag if what is left to read stands in the text at the cursor,
between the ends of the parts. -/
structure StandsOn (c : Cursor) (source : List Char) (parts : Span) : Prop where
  rest : c.rest <+: source.drop c.start
  inside : c.range.Inside parts

theorem standsOn_ofSpan (source : List Char) (parts : Span) :
    (ofSpan source parts).StandsOn source parts := by
  refine ⟨List.take_prefix _ _, Nat.le_refl _, ?_⟩
  exact Nat.add_le_add_left (List.length_take_le _ _) _

theorem StandsOn.narrows (h : c.StandsOn source parts) (hn : c.Narrows later) :
    later.StandsOn source parts := by
  refine ⟨?_, hn.range_inside.trans h.inside⟩
  obtain ⟨n, hle, hstart, hrest⟩ := hn
  obtain ⟨tail, htail⟩ := h.rest
  rw [hstart, ← List.drop_drop, ← htail, List.drop_append_of_le_length hle]
  exact hrest.trans (List.prefix_append _ _)

end Cursor

/-- **A run of turns**: if each turn of a reader narrows its cursor and stays inside of the parts, and the
reader stays good, then it is steady in all of them. -/
theorem steady_of_mem_turns {State Call : Type} {cursor : State → Cursor}
    {perform : Call → State → Cursor.Words Span × State} (Good : State → Prop)
    (hstep : ∀ call s, Good s → (cursor s).range.Inside parts →
      (perform call s).1.Inside parts ∧ (cursor s).Narrows (cursor (perform call s).2) ∧
        Good (perform call s).2)
    {s : State} (hgood : Good s) (hs : (cursor s).StandsOn source parts) (calls : List Call) :
    ∀ t ∈ turns cursor perform s calls, t.Steady source parts := by
  induction calls generalizing s with
  | nil => exact List.forall_mem_nil _
  | cons call rest ih =>
    obtain ⟨hanswer, hnarrows, hnext⟩ := hstep call s hgood hs.inside
    have hbehind := hs.narrows hnarrows
    exact List.forall_mem_cons.2
      ⟨⟨List.prefix_iff_eq_take.1 hbehind.rest, hnarrows.start_le, hanswer⟩, ih hnext hbehind⟩

/-- A reader that is no more than its cursor. -/
theorem steady_of_mem_turns_id {Call : Type} {perform : Call → Cursor → Cursor.Words Span × Cursor}
    (hstep : ∀ call (c : Cursor), c.range.Inside parts →
      (perform call c).1.Inside parts ∧ c.Narrows (perform call c).2)
    (hc : c.StandsOn source parts) (calls : List Call) :
    ∀ t ∈ turns id perform c calls, t.Steady source parts :=
  steady_of_mem_turns (fun _ => True)
    (fun call c _ hin => ⟨(hstep call c hin).1, (hstep call c hin).2, trivial⟩) trivial hc calls

/-! ## The readers of all words -/

/-- Two cursors have the same **left** to read if they are the same, or nothing is left at either. -/
def Cursor.SameLeft (c c' : Cursor) : Prop := c = c' ∨ c.rest = [] ∧ c'.rest = []

/-- Two steps are **alike** if from cursors with the same left to read they answer the same, and the
cursors behind them have the same left to read. -/
def Cursor.Step.Alike (step step' : Step α) : Prop :=
  ∀ c c' : Cursor, c.SameLeft c' →
    (step c).map (·.1) = (step' c').map (·.1) ∧ (step.behind c).SameLeft (step'.behind c')

/-- **Steps that are alike** answer the same to every question. -/
theorem Cursor.Step.Alike.answer_eq {step step' : Step α} (h : step.Alike step') {c c' : Cursor}
    (hsame : c.SameLeft c') (question : Nat) : step.answer question c = step'.answer question c' := by
  induction question generalizing c c' with
  | zero => exact (h c c' hsame).1
  | succ question ih => exact ih (h c c' hsame).2

namespace Reading

variable {x : Reading α} {f : α → Reading β} {read : Cursor → Except TemplateError (α × Cursor)}

theorem run_ofRead (read : Cursor → Except TemplateError (α × Cursor)) (c : Cursor) :
    (ofRead read).run.run c = match read c with
      | .ok (a, behind) => (.ok a, behind)
      | .error e => (.error e, c) := rfl

/-- What a computation comes to is what is **read**: the same answer, and behind a word the same cursor. -/
def ComesTo : Except TemplateError (α × Cursor) → Except TemplateError α × Cursor → Prop
  | .ok (a, behind), r => r = (.ok a, behind)
  | .error e, r => ∃ behind, r = (.error e, behind)

/-- A computation **agrees** with a reader if it comes to what this reads. -/
def Agrees (x : Reading α) (read : Cursor → Except TemplateError (α × Cursor)) : Prop :=
  ∀ c, ComesTo (read c) (x.run.run c)

theorem agrees_ofRead (read : Cursor → Except TemplateError (α × Cursor)) :
    (ofRead read).Agrees read := by
  intro c
  change ComesTo (read c) (ofRead read c)
  unfold ofRead
  cases read c with
  | ok r => rfl
  | error e => exact ⟨c, rfl⟩

theorem agrees_pure (a : α) : (pure a : Reading α).Agrees fun c => .ok (a, c) := fun _ => rfl

theorem agrees_blanks : blanks.Agrees fun c => .ok ((), c.advance (blankLength c.rest)) := fun _ => rfl

theorem Agrees.bind {read' : α → Cursor → Except TemplateError (β × Cursor)} (h : x.Agrees read)
    (hf : ∀ a, (f a).Agrees (read' a)) :
    (x >>= f).Agrees fun c => read c >>= fun r => read' r.1 r.2 := by
  intro c
  have hread := h c
  change ComesTo (read c >>= fun r => read' r.1 r.2) _
  rw [run_bind]
  cases hr : read c with
  | error e =>
    rw [hr] at hread
    obtain ⟨behind, hrun⟩ := hread
    rw [hrun]
    exact ⟨behind, rfl⟩
  | ok r =>
    rw [hr] at hread
    have hrun : x.run.run c = (.ok r.1, r.2) := hread
    rw [hrun]
    exact hf r.1 r.2

theorem Agrees.congr (h : x.Agrees read) (read' : Cursor → Except TemplateError (α × Cursor))
    (hread : ∀ c, read' c = read c) : x.Agrees read' :=
  fun c => hread c ▸ h c

/-- Where every error leaves nothing to read, the two are alike as steps. -/
theorem Agrees.alike (h : x.Agrees read) :
    (finishing (fun _ => true) x).step.Alike (Step.ofRead read) := by
  rintro c c' (rfl | ⟨hnil, hnil'⟩)
  · have hread := h c
    unfold Step.behind Step.ofRead Reading.step
    cases c.rest.isEmpty with
    | true => exact ⟨rfl, .inl rfl⟩
    | false =>
      have hrun : (finishing (fun _ => true) x).run.run c = finishing (fun _ => true) x c := rfl
      simp only [Bool.false_eq_true, if_false, hrun]
      unfold finishing
      cases hr : read c with
      | ok r =>
        rw [hr] at hread
        have hrun : x.run.run c = (.ok r.1, r.2) := hread
        rw [hrun]
        exact ⟨rfl, .inl rfl⟩
      | error e =>
        rw [hr] at hread
        obtain ⟨behind, hrun⟩ := hread
        rw [hrun]
        exact ⟨rfl, .inr ⟨rfl, rfl⟩⟩
  · unfold Step.behind Step.ofRead Reading.step
    rw [hnil, hnil']
    exact ⟨rfl, .inr ⟨hnil, hnil'⟩⟩

end Reading

theorem CallWord.alike_next : CallWord.next.step.Alike CallWord.step := by
  have hword := (agrees_ofRead readKeyword).bind fun name =>
    (agrees_ofRead Cursor.operand).bind fun value => agrees_pure (CallWord.mk value name)
  have hnext := hword.bind fun w => (agrees_ofRead fun c =>
    c.separated.map fun behind => ((), behind)).bind fun _ => agrees_pure w
  refine (hnext.congr read fun c => ?_).alike
  unfold read
  cases readKeyword c with
  | error e => rfl
  | ok r =>
    change (r.2.operand >>= _) = (r.2.operand >>= _) >>= _
    cases r.2.operand with
    | error e => rfl
    | ok r' =>
      change Except.map _ r'.2.separated = Except.map _ r'.2.separated >>= _
      cases r'.2.separated <;> rfl

/-- **Asked for one argument after another**, the reader answers what the step through all of them does. -/
theorem CallWord.answer_next (question : Nat) (c : Cursor) :
    CallWord.next.step.answer question c = CallWord.step.answer question c :=
  alike_next.answer_eq (.inl rfl) question

theorem Chain.agrees_argumentBehind : argumentBehind.Agrees argument := by
  intro c
  change ComesTo (argument c) (argumentBehind c)
  unfold argumentBehind
  cases argument c with
  | ok r => rfl
  | error e => exact ⟨_, rfl⟩

theorem Chain.alike_next : Chain.next.step.Alike Chain.filterStep := by
  have hfilter := agrees_blanks.bind fun _ => (agrees_ofRead readFilterName).bind fun name =>
    agrees_argumentBehind.bind fun value => agrees_pure (FilterWord.mk name value)
  have hnext := hfilter.bind fun w => (agrees_ofRead fun c =>
    (separator c).map fun behind => ((), behind)).bind fun _ => agrees_pure w
  refine (hnext.congr filterWord fun c => ?_).alike
  unfold filterWord
  change _ = (readFilterName (c.advance (blankLength c.rest)) >>= _) >>= _
  unfold readFilterName
  dsimp only
  split
  · rfl
  · change (argument (c.advance _ |>.advance _) >>= _) = (argument (c.advance _ |>.advance _) >>= _) >>= _
    cases argument (c.advance _ |>.advance _) with
    | error e => rfl
    | ok r =>
      change (separator r.2 >>= _) = Except.map _ (separator r.2) >>= _
      cases separator r.2 <;> rfl

/-- **Asked for one filter after another**, so does the reader of filters. -/
theorem Chain.answer_next (question : Nat) (c : Cursor) :
    Chain.next.step.answer question c = Chain.filterStep.answer question c :=
  alike_next.answer_eq (.inl rfl) question

/-- An outcome that is **not about what follows**: if it is an error, it is not text directly behind a
word. -/
def NotBehind : Except TemplateError α → Prop
  | .ok _ => True
  | .error e => e.cause ≠ .invalidRemainder

theorem NotBehind.map {x : Except TemplateError α} (h : NotBehind x) (f : α → β) :
    NotBehind (x.map f) := by
  cases x with
  | ok a => trivial
  | error e => exact h

theorem NotBehind.bind {x : Except TemplateError α} {f : α → Except TemplateError β} (h : NotBehind x)
    (hf : ∀ a, NotBehind (f a)) : NotBehind (x >>= f) := by
  cases x with
  | ok a => exact hf a
  | error e => exact h

namespace Cursor

theorem notBehind_quotedText (c : Cursor) (quote : Char) : NotBehind (c.quotedText quote) := by
  unfold quotedText
  split
  · trivial
  · exact nofun

theorem notBehind_translated (c : Cursor) : NotBehind c.translated := by
  unfold translated
  dsimp only
  cases (c.advance 2).rest with
  | nil => exact nofun
  | cons quote rest =>
    dsimp only
    split
    · exact nofun
    · refine (notBehind_quotedText _ _).bind fun r => ?_
      split
      · trivial
      · exact nofun

theorem notBehind_operand (c : Cursor) : NotBehind c.operand := by
  unfold operand
  split
  · exact (notBehind_translated c).map _
  · split
    · exact (notBehind_quotedText c _).map _
    · split <;> trivial
  · exact nofun

/-- An operand is never refused for the text behind it. -/
theorem ne_invalidRemainder_of_operand {e : TemplateError} (h : c.operand = .error e) :
    e.cause ≠ .invalidRemainder := by
  have hoperand := notBehind_operand c
  rw [h] at hoperand
  exact hoperand

/-- Text directly behind a word is refused for itself. -/
theorem cause_of_separated {e : TemplateError} (h : c.separated = .error e) :
    e.cause = .invalidRemainder := by
  unfold separated at h
  split at h
  · cases h
  · cases h
    rfl

end Cursor

/-- **Asked for the next word of a condition**, the reader takes the same step. -/
theorem ConditionWord.step_next : ConditionWord.next.step = ConditionWord.step := by
  funext c
  unfold Reading.step step
  split
  · rfl
  · change some (next c) = _
    unfold next
    dsimp only
    cases comparison? (c.rest.take (wordLength c.rest)) with
    | some operator => rfl
    | none =>
      change some (finishing _ (ofRead Cursor.operand >>= _) c) = _
      unfold finishing
      rw [run_bind, run_ofRead]
      cases hoperand : c.operand with
      | error e => simp [Cursor.ne_invalidRemainder_of_operand hoperand]
      | ok r =>
        dsimp only
        rw [run_bind, Reading.separation, run_ofRead]
        cases hblanks : r.2.separated with
        | ok behind => rfl
        | error e => simp [Except.map, Cursor.cause_of_separated hblanks]

/-- **All readers stay on their text**, whatever they are asked for and in whatever order, also after
errors: the reader of a loop header, those of conditions and calls, and that of filters, both of a
text that begins with a value and behind the value of a chain. -/
theorem Turn.steady_throughout (source : List Char) (parts : Span) :
    (∀ calls, ∀ t ∈ turns LoopReader.cursor LoopReader.perform (.ofParts source parts) calls,
      t.Steady source parts) ∧
    (∀ calls, ∀ t ∈ turns id ConditionWord.perform (.ofSpan source parts) calls,
      t.Steady source parts) ∧
    (∀ calls, ∀ t ∈ turns id CallWord.perform (.ofSpan source parts) calls,
      t.Steady source parts) ∧
    (∀ calls, ∀ t ∈ turns id Chain.perform (Chain.filters (.ofSpan source parts)) calls,
      t.Steady source parts) ∧
    ∀ value filters, Chain.read? (parts.slice source) parts.start = .ok (some (value, filters)) →
      ∀ calls, ∀ t ∈ turns id Chain.perform filters calls, t.Steady source parts := by
  have hc := standsOn_ofSpan source parts
  refine ⟨?_, ?_, ?_, ?_, fun value filters hread => ?_⟩
  · exact steady_of_mem_turns (LoopReader.WorksInside · parts)
      (fun call r hr _ => LoopReader.perform_inside call hr) ⟨hc.inside, nofun⟩ hc
  · exact steady_of_mem_turns_id (fun call _ => ConditionWord.perform_inside call) hc
  · exact steady_of_mem_turns_id (fun call _ => CallWord.perform_inside call) hc
  · exact steady_of_mem_turns_id (fun call _ => Chain.perform_inside call)
      (hc.narrows (Chain.narrows_filters _))
  · exact steady_of_mem_turns_id (fun call _ => Chain.perform_inside call)
      (hc.narrows (Chain.narrows_of_read hread))

/-- A filter whose argument is not closed. The reader is asked again behind the error, and for pieces that
are not there. -/
theorem Turn.steady_throughout_unclosed :
    let source := "\x7b\x7b a|b:\"c \x7d\x7d".toList
    let parts : Span := ⟨2, 8⟩
    let filters : Cursor := ⟨5, "b:\"c".toList⟩
    (∃ t ∈ turns LoopReader.cursor LoopReader.perform (.ofParts source parts) [.direction, .name],
      t.Steady source parts) ∧
    (∃ t ∈ turns id ConditionWord.perform (.ofSpan source parts) [.next, .word], t.Steady source parts) ∧
    (∃ t ∈ turns id CallWord.perform (.ofSpan source parts) [.word, .separation],
      t.Steady source parts) ∧
    (∃ t ∈ turns id Chain.perform (Chain.filters (.ofSpan source parts)) [.argument, .next],
      t.Steady source parts) ∧
    Chain.read? (parts.slice source) parts.start = .ok (some (⟨.path, ⟨3, 1⟩⟩, filters)) ∧
    turns id Chain.perform filters [.next, .next] =
      [⟨filters, ⟨[], some (.here .incompleteString ⟨7, 2⟩)⟩, ⟨7, []⟩⟩,
        ⟨⟨7, []⟩, ⟨[], none⟩, ⟨7, []⟩⟩] ∧
    Turn.Steady source parts ⟨filters, ⟨[], some (.here .incompleteString ⟨7, 2⟩)⟩, ⟨7, []⟩⟩ := by
  intro source parts filters
  obtain ⟨hloop, hcondition, hcall, hfilters, hchain⟩ := Turn.steady_throughout source parts
  have hread : Chain.read? (parts.slice source) parts.start =
      .ok (some (⟨.path, ⟨3, 1⟩⟩, filters)) := rfl
  refine ⟨⟨_, List.mem_cons_self, hloop [.direction, .name] _ List.mem_cons_self⟩,
    ⟨_, List.mem_cons_self, hcondition [.next, .word] _ List.mem_cons_self⟩,
    ⟨_, List.mem_cons_self, hcall [.word, .separation] _ List.mem_cons_self⟩,
    ⟨_, List.mem_cons_self, hfilters [.argument, .next] _ List.mem_cons_self⟩, hread, rfl, ?_⟩
  exact hchain _ _ hread [.next, .next] _ List.mem_cons_self

end Galley
