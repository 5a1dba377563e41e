import Galley.Proofs.Turns

/-!
# What comes after an error

A list of words may be asked for its next word also behind an error. The arguments of a call and the
filters of a chain end at their first error. A condition does so only if the error is text directly
behind an operand: any other error is found again at the same place, whenever the next word is asked for.

* `Cursor.Step.LeadsTo`: all answers up to the last step.
* `Cursor.Step.EndsAfterErrors`: a list of words that ends at its first error.
* `Cursor.Step.LeadsTo.endsAfterErrors`: a last step behind which nothing is left to read.
* `CallWord.endsAfterErrors`, `Chain.endsAfterErrors`: calls and filters.
* `ConditionWord.next_of_error`: **where an error leaves a condition.**
* `endsAfterErrors_iff`: **which lists of words end at their first error.**
-/

namespace Galley

open Cursor

variable {α : Type} {c last behind : Cursor} {e : TemplateError}

/-! ## One answer after another -/

namespace Cursor.Step

variable {step : Step α} {w : Words α}

theorem behind_of_step {answer : Except TemplateError α} (h : step c = some (answer, behind)) :
    step.behind c = behind := by
  rw [Step.behind, h]
  rfl

/-- Where the words have ended, there is no answer any more. -/
theorem answer_of_ended (h : step c = none) (i : Nat) : step.answer i c = none := by
  have hbehind : step.behind c = c := by
    rw [Step.behind, h]
    rfl
  induction i with
  | zero => rw [answer, h, Option.map_none]
  | succ i ih => rw [answer, hbehind, ih]

/-- An error that leaves the cursor where it is, is the answer to every question. -/
theorem answer_of_repeated (h : step c = some (.error e, c)) (i : Nat) :
    step.answer i c = some (.error e) := by
  induction i with
  | zero => rw [answer, h, Option.map_some]
  | succ i ih => rw [answer, behind_of_step h, ih]

/-- The words that a step reads **lead to** its last step: they are the first answers, and those behind
them are the answers from there on. The last step finds the end, or the error and the cursor behind it. -/
structure LeadsTo (step : Step α) (c : Cursor) (w : Words α) (last behind : Cursor) : Prop where
  words : ∀ i word, w.words[i]? = some word → step.answer i c = some (.ok word)
  later : ∀ i, step.answer (w.words.length + i) c = step.answer i last
  ended : step last = w.error.map fun e => (.error e, behind)

theorem EndsWith.exists_leadsTo (h : step.EndsWith c w) : ∃ last behind, step.LeadsTo c w last behind := by
  induction h with
  | @ended c h => exact ⟨c, c, nofun, fun i => by rw [List.length_nil, Nat.zero_add], h⟩
  | @failed c next e h => exact ⟨c, next, nofun, fun i => by rw [List.length_nil, Nat.zero_add], h⟩
  | @read c next word later h _ ih =>
    obtain ⟨last, behind, hwords, hlater, hended⟩ := ih
    refine ⟨last, behind, fun i word' hword => ?_, fun i => ?_, hended⟩
    · cases i with
      | zero =>
        cases hword
        rw [answer, h, Option.map_some]
      | succ i =>
        rw [answer, behind_of_step h]
        exact hwords i word' hword
    · rw [List.length_cons, Nat.succ_add, answer, behind_of_step h]
      exact hlater i

/-! ## Ends -/

/-- A list of words **ends after errors** if there is no answer behind an error. Whoever goes on asking
behind errors comes to an end. -/
structure EndsAfterErrors (step : Step α) (c : Cursor) : Prop where
  silent : ∀ i j e, step.answer i c = some (.error e) → i < j → step.answer j c = none
  ends : ∃ i, step.answer i c = none

/-- Behind the last step there is no answer, if its error leaves nothing to read. -/
theorem LeadsTo.answer_eq_none (h : step.LeadsTo c w last behind)
    (hbehind : ∀ e, w.error = some e → step behind = none) {j : Nat} (hj : w.words.length < j) :
    step.answer j c = none := by
  obtain ⟨k, rfl⟩ : ∃ k, j = w.words.length + (k + 1) := ⟨j - w.words.length - 1, by omega⟩
  rw [h.later]
  have hended := h.ended
  cases he : w.error with
  | none =>
    rw [he] at hended
    exact answer_of_ended hended _
  | some e =>
    rw [he] at hended
    rw [answer, behind_of_step hended]
    exact answer_of_ended (hbehind e he) k

/-- **A list of words whose last step leaves nothing to read** ends after errors. -/
theorem LeadsTo.endsAfterErrors (h : step.LeadsTo c w last behind)
    (hbehind : ∀ e, w.error = some e → step behind = none) : step.EndsAfterErrors c := by
  refine ⟨fun i j e hi hij => ?_, w.words.length + 1, h.answer_eq_none hbehind (Nat.lt_succ_self _)⟩
  -- before the last step there are only words
  refine h.answer_eq_none hbehind (Nat.lt_of_le_of_lt (Nat.le_of_not_lt fun hlt => ?_) hij)
  rw [h.words i _ (List.getElem?_eq_getElem hlt)] at hi
  cases hi

/-- **An error that is found again** is the answer to all questions behind the words. -/
theorem LeadsTo.answer_of_repeated (h : step.LeadsTo c w last last) (he : w.error = some e) {i : Nat}
    (hi : w.words.length ≤ i) : step.answer i c = some (.error e) := by
  obtain ⟨k, rfl⟩ := Nat.exists_eq_add_of_le hi
  have hended := h.ended
  rw [he] at hended
  rw [h.later]
  exact Step.answer_of_repeated hended k

/-- A step that reads one word and finds nothing behind an error. -/
theorem endsAfterErrors_ofRead {read : Cursor → Except TemplateError (α × Cursor)}
    (h : (ofRead read).EndsWith c w) : (ofRead read).EndsAfterErrors c := by
  obtain ⟨last, behind, hleads⟩ := h.exists_leadsTo
  refine hleads.endsAfterErrors fun e he => ?_
  have hended := hleads.ended
  rw [he, Option.map_some] at hended
  unfold ofRead at hended
  split at hended
  · cases hended
  · split at hended
    · cases hended
    · cases hended
      rfl

end Cursor.Step

/-! ## The three readers -/

theorem CallWord.endsAfterErrors (c : Cursor) : CallWord.step.EndsAfterErrors c :=
  Step.endsAfterErrors_ofRead (Step.endsWith_readAll (fun _ => CallWord.sound_step) c)

theorem Chain.endsAfterErrors (c : Cursor) : Chain.filterStep.EndsAfterErrors c :=
  Step.endsAfterErrors_ofRead (Step.endsWith_readAll (fun _ => Chain.sound_filterStep) c)

namespace ConditionWord

/-- **Where an error leaves a condition**: text directly behind an operand leaves nothing to read, and
every other error leaves the cursor where it is. -/
theorem next_of_error (h : step c = some (.error e, behind)) :
    if e.cause = .invalidRemainder then behind.rest = [] else behind = c := by
  unfold step at h
  dsimp only at h
  split at h
  · cases h
  · split at h
    · cases h
    · split at h
      · next hoperand =>
        cases h
        rw [if_neg (ne_invalidRemainder_of_operand hoperand)]
      · split at h
        · next hblanks =>
          cases h
          rw [if_pos (cause_of_separated hblanks)]
          rfl
        · cases h

/-- The words of a condition up to its last step. -/
theorem exists_leadsTo (c : Cursor) :
    ∃ last behind, step.LeadsTo c (readAll step c) last behind :=
  (Step.endsWith_readAll (fun _ => sound_step) c).exists_leadsTo

/-- **An error other than text directly behind an operand** is found again and again. -/
theorem answer_of_error (he : (readAll step c).error = some e) (hcause : e.cause ≠ .invalidRemainder)
    {i : Nat} (hi : (readAll step c).words.length ≤ i) : step.answer i c = some (.error e) := by
  obtain ⟨last, behind, hleads⟩ := exists_leadsTo c
  have hended := hleads.ended
  rw [he, Option.map_some] at hended
  have hnext := next_of_error hended
  rw [if_neg hcause] at hnext
  subst hnext
  exact hleads.answer_of_repeated he hi

/-- A condition ends after errors if its first error is text directly behind an operand. -/
theorem endsAfterErrors_of (h : ∀ e, (readAll step c).error = some e → e.cause = .invalidRemainder) :
    step.EndsAfterErrors c := by
  obtain ⟨last, behind, hleads⟩ := exists_leadsTo c
  refine hleads.endsAfterErrors fun e he => ?_
  have hended := hleads.ended
  rw [he, Option.map_some] at hended
  have hnext := next_of_error hended
  rw [if_pos (h e he)] at hnext
  exact (sound_step : step.Sound [] _).ended behind hnext

end ConditionWord

/-- **Which lists of words end at their first error**: calls and filters always, and conditions if and only
if they have no error or it is text directly behind an operand. Any other error of a condition is the
answer to every question behind its words. -/
theorem endsAfterErrors_iff (c : Cursor) :
    CallWord.step.EndsAfterErrors c ∧ Chain.filterStep.EndsAfterErrors c ∧
    (ConditionWord.step.EndsAfterErrors c ↔
      ∀ e, (readAll ConditionWord.step c).error = some e → e.cause = .invalidRemainder) ∧
    ∀ e, (readAll ConditionWord.step c).error = some e → e.cause ≠ .invalidRemainder →
      ∀ i, (readAll ConditionWord.step c).words.length ≤ i →
        ConditionWord.step.answer i c = some (.error e) := by
  refine ⟨CallWord.endsAfterErrors c, Chain.endsAfterErrors c,
    ⟨fun h e he => ?_, ConditionWord.endsAfterErrors_of⟩,
    fun e he hcause i hi => ConditionWord.answer_of_error he hcause hi⟩
  by_contra hcause
  -- the answer behind the error is the error again
  have hfirst := ConditionWord.answer_of_error he hcause (Nat.le_refl _)
  have hagain := ConditionWord.answer_of_error he hcause (Nat.le_succ _)
  rw [h.silent _ _ e hfirst (Nat.lt_succ_self _)] at hagain
  cases hagain

/-- A literal that is not closed is reported again and again. -/
theorem endsAfterErrors_iff_unclosed :
    let c := Cursor.ofSpan "\x7b% if \"a %\x7d".toList ⟨6, 2⟩
    (readAll ConditionWord.step c).error = some (.here .incompleteString ⟨6, 2⟩) ∧
      ∀ i, ConditionWord.step.answer i c = some (.error (.here .incompleteString ⟨6, 2⟩)) := by
  intro c
  have herror : (readAll ConditionWord.step c).error = some (.here .incompleteString ⟨6, 2⟩) := rfl
  exact ⟨herror, fun i => (endsAfterErrors_iff c).2.2.2 _ herror nofun i (Nat.zero_le i)⟩

/-- So a condition need not end after errors. -/
theorem not_endsAfterErrors_unclosed :
    ¬ ConditionWord.step.EndsAfterErrors (Cursor.ofSpan "\x7b% if \"a %\x7d".toList ⟨6, 2⟩) := by
  intro h
  have hnone := h.silent 0 1 (.here .incompleteString ⟨6, 2⟩) rfl (Nat.zero_lt_one)
  cases hnone

end Galley
