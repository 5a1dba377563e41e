import Galley.Proofs.Cursor

/-!
# Reading word by word

A list of words is read in steps, each of which answers a word and the cursor to go on from. If
every step takes a character the number of steps is bounded by the number of characters.

* `Step.Sound`: a step whose words have a property and whose errors are proper.
* `Step.sound_ofRead`: the step that reads one word.
* `Step.Sound.readAll`: all words have the property, and what ends them early is proper.
* `Step.Sound.readUpTo_eq`: no word is lost to the limit.
* `Step.Sound.pairwise_readUpTo`: the words stand in order.
-/

namespace Galley

variable {α : Type} {source : List Char} {c : Cursor}

/-- A word and the blanks behind it. -/
theorem Cursor.passed_word (hne : c.rest ≠ []) :
    c.Passed (c.advance (Text.wordLength c.rest +
      Text.blankLength (c.rest.drop (Text.wordLength c.rest)))) := by
  have hword := Text.wordLength_le c.rest
  have hblank := Text.blankLength_le (c.rest.drop (Text.wordLength c.rest))
  rw [List.length_drop] at hblank
  refine ⟨_, ?_, by omega, rfl⟩
  rcases Nat.eq_zero_or_pos (Text.wordLength c.rest) with hzero | hpos
  · -- a word without characters stands before a blank
    have := Text.blankLength_pos hne hzero
    rw [hzero, List.drop_zero]
    omega
  · omega

namespace Cursor

/-- A step through words is **sound** for a text: its words have a property and its errors are
proper, it takes a character with every word, and it ends where nothing is left. -/
structure Step.Sound (step : Step α) (source : List Char) (P : α → Prop) : Prop where
  each : ∀ c x next, c.Reads source → step c = some (x, next) →
    Settles source P x ∧ ∀ word, x = .ok word → c.Passed next
  ended : ∀ c, c.rest = [] → step c = none

/-- **A step that reads a word** is sound if what reads the word is. -/
theorem Step.sound_ofRead {P : α → Prop} {read : Cursor → Except TemplateError (α × Cursor)}
    (h : ∀ c, c.Reads source → c.rest ≠ [] →
      Settles source (fun r => P r.1 ∧ c.Passed r.2) (read c)) :
    (Step.ofRead read).Sound source P := by
  refine ⟨fun c x next hc hx => ?_, fun c hc => by simp [Step.ofRead, hc]⟩
  unfold Step.ofRead at hx
  split at hx
  · cases hx
  · next hne =>
    have hread := h c hc (by simpa using hne)
    split at hx
    · next word behind hw =>
      cases hx
      have hword := hread.of_ok hw
      exact ⟨hword.1, fun _ _ => hword.2⟩
    · next e he =>
      cases hx
      exact ⟨hread.proper he, nofun⟩

/-- What a step that reads a word has read. -/
theorem Step.read_of_ofRead {read : Cursor → Except TemplateError (α × Cursor)} {word : α}
    {next : Cursor} (h : Step.ofRead read c = some (.ok word, next)) :
    c.rest ≠ [] ∧ read c = .ok (word, next) := by
  unfold Step.ofRead at h
  split at h
  · cases h
  · next hne =>
    refine ⟨by simpa using hne, ?_⟩
    split at h
    · next hread =>
      cases h
      exact hread
    · cases h

/-- What is known of the words that were read from a text. -/
structure Words.Sound (w : Words α) (source : List Char) (P : α → Prop) : Prop where
  words : ∀ word ∈ w.words, P word
  error : ∀ e, w.error = some e → e.Proper source

variable {step : Step α} {P : α → Prop}

/-- **Words that are read from a text** have the property, and what ends them early is proper. -/
theorem Step.Sound.readUpTo (hs : step.Sound source P) (limit : Nat) (h : c.Reads source) :
    (Cursor.readUpTo step limit c).Sound source P := by
  -- nothing is known of a cursor behind an error, but nothing is read there either
  induction limit generalizing c with
  | zero => exact ⟨nofun, nofun⟩
  | succ limit ih =>
    simp only [Cursor.readUpTo]
    split
    · exact ⟨nofun, nofun⟩
    · next e next he =>
      refine ⟨nofun, fun e' h' => ?_⟩
      cases h'
      exact (hs.each c _ next h he).1
    · next word next hw =>
      obtain ⟨hword, hpassed⟩ := hs.each c _ next h hw
      obtain ⟨hwords, herror⟩ := ih (h.passed (hpassed word rfl))
      exact ⟨List.forall_mem_cons.2 ⟨hword, hwords⟩, herror⟩

theorem Step.Sound.readAll (hs : step.Sound source P) (h : c.Reads source) :
    (Cursor.readAll step c).Sound source P := hs.readUpTo _ h

/-- **No word is lost to the limit**: with more steps than characters nothing more is read. -/
theorem Step.Sound.readUpTo_eq (hs : step.Sound source P) {limit limit' : Nat} (h : c.Reads source)
    (hl : c.rest.length ≤ limit) (hl' : c.rest.length ≤ limit') :
    Cursor.readUpTo step limit c = Cursor.readUpTo step limit' c := by
  induction limit generalizing c limit' with
  | zero =>
    have hnone := hs.ended c (List.length_eq_zero_iff.1 (by omega))
    cases limit' with
    | zero => rfl
    | succ limit' => simp [Cursor.readUpTo, hnone]
  | succ limit ih =>
    cases limit' with
    | zero =>
      have hnone := hs.ended c (List.length_eq_zero_iff.1 (by omega))
      simp [Cursor.readUpTo, hnone]
    | succ limit' =>
      simp only [Cursor.readUpTo]
      split
      · rfl
      · rfl
      · next word next hw =>
        have hpassed := (hs.each c _ next h hw).2 word rfl
        have := hpassed.shorter
        rw [ih (h.passed hpassed) (by omega) (by omega : next.rest.length ≤ limit')]

/-- **Words stand in the order** they are read in if each stands between the cursor of its step and
the next one. -/
theorem Step.Sound.pairwise_readUpTo (hs : step.Sound source P) (place : α → Span)
    (hplace : ∀ c word next, c.Reads source → step c = some (.ok word, next) →
      c.start ≤ (place word).start ∧ (place word).Before next.start)
    (limit : Nat) (h : c.Reads source) :
    (∀ word ∈ (Cursor.readUpTo step limit c).words, c.start ≤ (place word).start) ∧
      (Cursor.readUpTo step limit c).words.Pairwise
        fun a b => (place a).Before (place b).start := by
  induction limit generalizing c with
  | zero => exact ⟨nofun, .nil⟩
  | succ limit ih =>
    simp only [Cursor.readUpTo]
    split
    · exact ⟨nofun, .nil⟩
    · exact ⟨nofun, .nil⟩
    · next word next hw =>
      obtain ⟨hstart, hbefore⟩ := hplace c word next h hw
      have hpassed := (hs.each c _ next h hw).2 word rfl
      have hlt := hpassed.start_lt
      obtain ⟨hbehind, hpairwise⟩ := ih (h.passed hpassed)
      refine ⟨List.forall_mem_cons.2 ⟨hstart, fun word' hword' => ?_⟩,
        List.pairwise_cons.2 ⟨fun word' hword' => ?_, hpairwise⟩⟩
      · have := hbehind word' hword'
        omega
      · exact hbefore.mono (hbehind word' hword')

variable {β : Type} {Q : β → Prop} {w : Words α}

/-- Words that are made into something one by one. -/
theorem Words.Sound.mapM (hw : w.Sound source P) {f : α → Except TemplateError β}
    (hf : ∀ word, P word → Settles source Q (f word)) :
    Settles source (fun made => ∀ b ∈ made, Q b) (w.mapM f) := by
  refine (settles_mapM fun word hword => hf word (hw.words word hword)).bind fun made hmade => ?_
  split
  · next e he => exact hw.error e he
  · exact settles_pure hmade

theorem Words.mapM_words {f : α → Except TemplateError β} {made : List β} (h : w.mapM f = .ok made) :
    w.words.mapM f = .ok made := by
  unfold Words.mapM at h
  rw [bind_eq_ok] at h
  obtain ⟨made', hmade, h⟩ := h
  split at h
  · cases h
  · cases h
    exact hmade

theorem Words.error_of_mapM {f : α → Except TemplateError β} {made : List β} (h : w.mapM f = .ok made) :
    w.error = none := by
  unfold Words.mapM at h
  rw [bind_eq_ok] at h
  obtain ⟨_, -, h⟩ := h
  split at h
  · cases h
  · assumption

theorem Words.eq_of_toExcept {words : List α} (h : w.toExcept = .ok words) : w = ⟨words, none⟩ := by
  unfold Words.toExcept at h
  split at h
  · cases h
  · next herror =>
    cases h
    rw [← herror]

theorem Words.Sound.toExcept (hw : w.Sound source P) :
    Settles source (fun words => ∀ word ∈ words, P word) w.toExcept := by
  unfold Words.toExcept
  split
  · next e he => exact hw.error e he
  · exact hw.words

end Cursor

end Galley
