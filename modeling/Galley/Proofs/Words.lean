import Galley.Proofs.Coverage
import Galley.Proofs.Steps
import Galley.Words.Call
import Galley.Words.Condition
import Galley.Words.Load
import Galley.Words.Loop
import Galley.Words.Switch
import Galley.Words.TagName

/-!
# The words of tags stand in the text

Each reader of the inside of a tag or variable answers spans of the template text, and what it
refuses it refuses at a place in the text.

* `Token.reads_content`: the content of a token.
* `CallWord.sound_step`, `ConditionWord.sound_step`, `LoadWord.sound_step`: lists of words.
* `CallWord.settles_all`, `LoadWord.pairwise_all`: the words stand in their order.
* `LoopReader.sound_names` and the readers behind it: the header of a loop.
* `LoopReader.before_names`: its names lie before what follows them.
* `TagWords.settles_read`: the name and the parts of a tag.
-/

namespace Galley

open Cursor Text

variable {source content : List Char} {c : Cursor} {start n : Nat} {parts : Span}

/-- **The content of a token** that is not text is read from the text between its delimiters. -/
theorem Token.reads_content {t : Token} (h : t ∈ Token.scan source) (hk : t.kind ≠ .text) :
    (⟨t.span.start + 2, t.content source⟩ : Cursor).Reads source := by
  have hwithin := Token.scan_within source t h
  obtain ⟨hlen, hcontent⟩ := Token.scan_content source h hk
  have hinner : (⟨t.span.start + 2, t.span.length - 4⟩ : Span).Within source := by
    simp only [Span.Within, Span.stop] at hwithin ⊢
    omega
  rw [hcontent]
  exact reads_ofSpan hinner

/-! ## Lists of words -/

/-- The place of an argument: from its name to its value. -/
def CallWord.span (w : CallWord) : Span :=
  match w.keyword with
  | some name => name.through w.operand.span
  | none => w.operand.span

/-- An argument stands in a text with its value and with the name in front of it. -/
structure CallWord.StandsIn (w : CallWord) (source : List Char) : Prop where
  operand : w.operand.StandsIn source
  keyword : ∀ k, w.keyword = some k → k.Within source
  ordered : ∀ k, w.keyword = some k → k.start ≤ w.operand.span.start

namespace CallWord

theorem keywordLength?_spec {text : List Char} (h : keywordLength? text = some n) :
    ∃ name rest, text = name ++ '=' :: rest ∧ name.length = n ∧ name ≠ [] ∧
      ∀ d ∈ name, isNameChar d := by
  unfold keywordLength? at h
  dsimp only at h
  split at h
  · next hc =>
    cases h
    simp only [Bool.and_eq_true, decide_eq_true_eq] at hc
    obtain ⟨hpos, hsign⟩ := hc
    rw [drop_length_takeWhile] at hsign
    obtain ⟨rest, hrest⟩ := List.head?_eq_some_iff.1 hsign
    refine ⟨text.takeWhile isNameChar, rest, ?_, rfl, List.length_pos_iff.1 hpos, fun d hd =>
      of_mem_takeWhile hd⟩
    rw [← hrest, List.takeWhile_append_dropWhile]
  · cases h

theorem keywordLength?_lt {text : List Char} (h : keywordLength? text = some n) :
    n < text.length := by
  obtain ⟨name, rest, rfl, rfl, -⟩ := keywordLength?_spec h
  simp

theorem settles_readKeyword (h : c.Reads source) (hne : c.rest ≠ []) :
    Settles source
      (fun r => (∀ k, r.1 = some k → k.Within source ∧ k.start = c.start) ∧
        (r.1 = none → r.2 = c) ∧ c.Follows r.2 ∧ r.2.rest ≠ [])
      (readKeyword c) := by
  unfold readKeyword
  split
  · exact settles_pure ⟨nofun, fun _ => rfl, ⟨0, Nat.zero_le _, rfl⟩, hne⟩
  · next m hm =>
    have hlt := keywordLength?_lt hm
    dsimp only
    split
    · exact settles_lexical (h.within hlt) rfl
    · next hvalue =>
      refine settles_pure ⟨fun k hk => ?_, nofun, ⟨m + 1, hlt, rfl⟩, fun hnil => ?_⟩
      · cases hk
        exact ⟨h.within (Nat.le_of_lt hlt), rfl⟩
      · rw [hnil] at hvalue
        exact hvalue rfl

theorem settles_read (h : c.Reads source) (hne : c.rest ≠ []) :
    Settles source (fun r => r.1.StandsIn source ∧ c.Passed r.2 ∧ r.1.span.start = c.start ∧
      r.1.span.stop ≤ r.2.start) (read c) := by
  unfold read
  refine (settles_readKeyword h hne).bind fun r ⟨hkeyword, hbare, hf, hvalue⟩ => ?_
  have hreads := h.follows hf
  refine (settles_operand hreads hvalue).bind fun r' htook => ?_
  have hbehind := hreads.took htook.2.choose_spec
  refine settles_bind_of_eq (settles_separated hbehind.2) fun next hblanks hnext => ?_
  have hstart := htook.start_eq
  have hordered : ∀ k, r.1 = some k → k.start ≤ r'.1.span.start := by
    intro k hk
    rw [hstart, (hkeyword k hk).2]
    exact hf.start_le
  have hstop : r'.1.span.stop ≤ next.start := by
    obtain ⟨n, -, heq⟩ := htook.2
    obtain ⟨hspan, hlast⟩ := Prod.mk.inj heq
    rw [hblanks.1, hlast, hspan]
    exact Nat.le_add_right _ _
  refine settles_pure ⟨⟨htook.1, fun k hk => (hkeyword k hk).1, hordered⟩,
    hf.passed (htook.passed hreads hvalue hnext), ?_⟩
  -- the argument starts at its name if it has one, and at its value otherwise
  cases hk : r.1 with
  | none =>
    simp only [span]
    exact ⟨by rw [hstart, hbare hk], hstop⟩
  | some k =>
    simp only [span]
    rw [Span.stop_through (hordered k hk)]
    exact ⟨(hkeyword k hk).2, hstop⟩

theorem sound_step : step.Sound source (·.StandsIn source) :=
  Step.sound_ofRead fun _ hc hne => (settles_read hc hne).mono fun _ hr => ⟨hr.1, hr.2.1⟩

/-- They stand behind the cursor that they are read from, in their order. -/
theorem ordered_readAll (h : c.Reads source) :
    (∀ w ∈ (readAll step c).words, c.start ≤ w.span.start) ∧
      (readAll step c).words.Pairwise fun v w => v.span.Before w.span.start := by
  refine sound_step.pairwise_readUpTo span (fun c word next hc hstep => ?_) _ h
  obtain ⟨hne, hread⟩ := Step.read_of_ofRead hstep
  obtain ⟨-, hpassed, hstart, hstop⟩ := (settles_read hc hne).of_ok hread
  have hlt := hpassed.start_lt
  exact ⟨Nat.le_of_eq hstart.symm, hstart ▸ hlt, hstop⟩

/-- **The arguments of a tag** stand in the text. -/
theorem settles_all (h : parts.Within source) :
    Settles source (fun words => (∀ w ∈ words, w.StandsIn source) ∧
      words.Pairwise fun v w => v.span.Before w.span.start) (all source parts) := by
  have hreads := reads_ofSpan h
  have hwords := sound_step.readAll hreads
  unfold all Words.toExcept
  split
  · next e he => exact hwords.error e he
  · exact ⟨hwords.words, (ordered_readAll hreads).2⟩

end CallWord

namespace ConditionWord

/-- A word of a condition stands in a text. -/
def StandsIn (source : List Char) : ConditionWord → Prop
  | comparison _ span => span.Within source
  | operand o => o.StandsIn source

/-- The place of a word. -/
def span : ConditionWord → Span
  | comparison _ span => span
  | operand o => o.span

theorem sound_step : step.Sound source (StandsIn source) := by
  refine ⟨fun c x next hc hx => ?_, fun c hc => by simp [step, hc]⟩
  unfold step at hx
  dsimp only at hx
  split at hx
  · cases hx
  · next hne =>
    have hne : c.rest ≠ [] := by simpa using hne
    have hoperand := settles_operand hc hne
    split at hx
    · -- a comparison sign
      cases hx
      exact ⟨hc.within (wordLength_le c.rest), fun _ _ => passed_word hne⟩
    · split at hx
      · next e he =>
        cases hx
        exact ⟨hoperand.proper he, nofun⟩
      · next value behind hv =>
        have htook := hoperand.of_ok hv
        have hbehind := hc.took htook.2.choose_spec
        split at hx
        · next e he =>
          cases hx
          exact ⟨(settles_separated hbehind.2).proper he, nofun⟩
        · next next hnext =>
          cases hx
          exact ⟨htook.1, fun _ _ => htook.passed hc hne hnext⟩

/-- A word starts where its step does, and lies before the next one. -/
theorem before_of_step {word : ConditionWord} {next : Cursor} (h : c.Reads source)
    (hstep : step c = some (.ok word, next)) :
    word.span.start = c.start ∧ word.span.Before next.start := by
  have hlt := ((sound_step.each c _ next h hstep).2 word rfl).start_lt
  unfold step at hstep
  dsimp only at hstep
  split at hstep
  · cases hstep
  · next hne =>
    split at hstep
    · cases hstep
      refine ⟨rfl, hlt, ?_⟩
      simp only [span, Span.stop, ahead, Cursor.advance]
      omega
    · split at hstep
      · cases hstep
      · next value behind hv =>
        have htook := (settles_operand h (by simpa using hne)).of_ok hv
        have hbehind := h.took htook.2.choose_spec
        split at hstep
        · cases hstep
        · next next' hnext =>
          cases hstep
          have hstart : value.span.start = c.start := htook.start_eq
          obtain ⟨hblanks, -⟩ := (settles_separated hbehind.2).of_ok hnext
          refine ⟨hstart, hstart ▸ hlt, ?_⟩
          obtain ⟨n, -, heq⟩ := htook.2
          obtain ⟨hspan, hlast⟩ := Prod.mk.inj heq
          rw [span, hblanks, hlast, hspan]
          exact Nat.le_add_right _ _

/-- **The words of a condition** stand in the text. -/
theorem sound_all (h : parts.Within source) : (all source parts).Sound source (StandsIn source) :=
  sound_step.readAll (reads_ofSpan h)

/-- They stand there behind the start of the parts, in their order. -/
theorem ordered_all (h : parts.Within source) :
    (∀ word ∈ (all source parts).words, parts.start ≤ word.span.start) ∧
      (all source parts).words.Pairwise fun v w => v.span.Before w.span.start := by
  refine sound_step.pairwise_readUpTo span (fun c word next hc hstep => ?_) _ (reads_ofSpan h)
  obtain ⟨hstart, hbefore⟩ := before_of_step hc hstep
  exact ⟨Nat.le_of_eq hstart.symm, hbefore⟩

end ConditionWord

namespace LoadWord

theorem sound_step : step.Sound source (·.Within source) := by
  refine ⟨fun c x next hc hx => ?_, fun c hc => by simp [step, hc]⟩
  unfold step at hx
  split at hx
  · cases hx
  · next hne =>
    cases hx
    exact ⟨hc.within (wordLength_le c.rest), fun _ _ => passed_word (by simpa using hne)⟩

/-- **The words of a `load` tag** stand in the text. -/
theorem within_all (h : parts.Within source) : ∀ s ∈ all source parts, s.Within source :=
  (sound_step.readAll (reads_ofSpan h)).words

/-- They stand there in their order. -/
theorem pairwise_all (h : parts.Within source) :
    (all source parts).Pairwise fun s t => s.Before t.start := by
  refine (sound_step.pairwise_readUpTo id (fun c word next hc hstep => ?_) _ (reads_ofSpan h)).2
  have hlt := ((sound_step.each c _ next hc hstep).2 word rfl).start_lt
  unfold step at hstep
  split at hstep
  · cases hstep
  · cases hstep
    refine ⟨Nat.le_refl _, hlt, ?_⟩
    simp only [id, Span.stop, ahead, Cursor.advance]
    omega

end LoadWord

/-! ## Loop headers -/

namespace LoopReader

variable {r : LoopReader}

/-- A loop header is read from a text, and the word read last stands there. -/
structure Sound (r : LoopReader) (source : List Char) : Prop where
  reads : r.cursor.Reads source
  previous : ∀ s, r.previous = some s → s.Within source

theorem sound_ofParts (h : parts.Within source) : (ofParts source parts).Sound source :=
  ⟨reads_ofSpan h, nofun⟩

/-- The place of a word that is missing is that of the word before it. -/
theorem Sound.settles_missing {α : Type} {P : α → Prop} (h : r.Sound source) {cause : Cause}
    (hf : cause.family = .lexical) (ho : cause.otherSpans = []) :
    Settles source P (.error ⟨r.previous, cause⟩) :=
  ⟨.inl hf, located_of_span (by rw [ho]; nofun) h.previous⟩

theorem settles_named {skip : Nat} (last : Bool) (h : r.Sound source)
    (hn : n ≤ r.cursor.rest.length) (hskip : skip ≤ r.cursor.rest.length) :
    Settles source (fun name? => ∀ s, name? = some s → s.Within source) (r.named n skip last).1 ∧
      (r.named n skip last).2.Sound source := by
  have hname : ∀ s, some (r.cursor.ahead n) = some s → s.Within source := by
    intro s hs
    cases hs
    exact h.reads.within hn
  have hblank := blankLength_le (r.cursor.rest.drop skip)
  rw [List.length_drop] at hblank
  unfold named
  dsimp only
  split
  -- a name that is refused ends the header
  · exact ⟨settles_lexical (h.reads.within hn) rfl, h.reads.finish, hname⟩
  · exact ⟨hname, h.reads.advance (by omega), hname⟩

/-- **The next name** stands in the text. -/
theorem settles_name (h : r.Sound source) :
    Settles source (fun name? => ∀ s, name? = some s → s.Within source) r.name.1 ∧
      r.name.2.Sound source := by
  have hword := wordLength_le r.cursor.rest
  unfold name
  dsimp only
  repeat' split
  · exact ⟨settles_pure nofun, h⟩
  · exact ⟨settles_pure nofun, h.reads, h.previous⟩
  · exact settles_named _ h (by omega) (by omega)
  · exact settles_named _ h hword hword

/-- **All names** stand in the text. -/
theorem sound_namesUpTo (limit : Nat) (h : r.Sound source) :
    (namesUpTo limit r).1.Sound source (·.Within source) ∧ (namesUpTo limit r).2.Sound source := by
  induction limit generalizing r with
  | zero => exact ⟨⟨nofun, nofun⟩, h⟩
  | succ limit ih =>
    have hname := settles_name h
    unfold namesUpTo
    split
    · next next hn =>
      rw [hn] at hname
      exact ⟨⟨nofun, nofun⟩, hname.2⟩
    · next e next hn =>
      rw [hn] at hname
      refine ⟨⟨nofun, fun e' he => ?_⟩, hname.2⟩
      cases he
      exact hname.1
    · next span next hn =>
      rw [hn] at hname
      obtain ⟨⟨hwords, herror⟩, hlast⟩ := ih hname.2
      exact ⟨⟨List.forall_mem_cons.2 ⟨hname.1 span rfl, hwords⟩, herror⟩, hlast⟩

theorem sound_names (h : r.Sound source) :
    r.names.1.Sound source (·.Within source) ∧ r.names.2.Sound source := sound_namesUpTo _ h

/-- A name starts at the cursor, and lies before the next one. -/
theorem start_named {skip : Nat} (last : Bool) (hn : n ≤ skip)
    (hpos : 0 < skip + blankLength (r.cursor.rest.drop skip)) :
    r.cursor.start ≤ (r.named n skip last).2.cursor.start ∧
      ∀ s, (r.named n skip last).1 = .ok (some s) →
        s.start = r.cursor.start ∧ s.Before (r.named n skip last).2.cursor.start := by
  unfold named
  dsimp only
  split
  · exact ⟨Nat.le_refl _, nofun⟩
  · refine ⟨Nat.le_add_right _ _, fun s hs => ?_⟩
    cases hs
    refine ⟨rfl, ?_, ?_⟩
    · exact Nat.lt_add_of_pos_right hpos
    · simp only [ahead, Span.stop, Cursor.advance]
      omega

theorem start_name : r.cursor.start ≤ r.name.2.cursor.start ∧
    ∀ s, r.name.1 = .ok (some s) →
      s.start = r.cursor.start ∧ s.Before r.name.2.cursor.start := by
  unfold name
  dsimp only
  split
  · exact ⟨Nat.le_refl _, nofun⟩
  · split
    · exact ⟨Nat.le_refl _, nofun⟩
    · next hne =>
      split
      · exact start_named _ (Nat.le_succ _) (by omega)
      · -- a name without characters stands before a blank
        obtain ⟨m, hpos, -, hm⟩ := passed_word (c := r.cursor) (by simpa using hne)
        have hlt := congrArg Cursor.start hm
        simp only [Cursor.advance] at hlt
        exact start_named _ (Nat.le_refl _) (by omega)

/-- **All names** lie before the cursor behind them, in their order. -/
theorem start_namesUpTo (limit : Nat) : r.cursor.start ≤ (namesUpTo limit r).2.cursor.start ∧
    (∀ s ∈ (namesUpTo limit r).1.words,
      r.cursor.start ≤ s.start ∧ s.Before (namesUpTo limit r).2.cursor.start) ∧
    (namesUpTo limit r).1.words.Pairwise (·.start ≤ ·.start) := by
  -- every name starts where the reader stands, and the reader only goes on
  induction limit generalizing r with
  | zero => exact ⟨Nat.le_refl _, nofun, .nil⟩
  | succ limit ih =>
    have hname := start_name (r := r)
    unfold namesUpTo
    split
    · next next hn =>
      rw [hn] at hname
      exact ⟨hname.1, nofun, .nil⟩
    · next e next hn =>
      rw [hn] at hname
      exact ⟨hname.1, nofun, .nil⟩
    · next span next hn =>
      rw [hn] at hname
      obtain ⟨hnext, hspan⟩ := hname
      obtain ⟨hstart, hbefore⟩ := hspan span rfl
      obtain ⟨hlast, hwords, hpairwise⟩ := ih (r := next)
      dsimp only at hnext hbefore ⊢
      refine ⟨Nat.le_trans hnext hlast, List.forall_mem_cons.2 ⟨?_, fun s hs => ?_⟩,
        List.pairwise_cons.2 ⟨fun s hs => ?_, hpairwise⟩⟩
      · exact ⟨Nat.le_of_eq hstart.symm, hbefore.mono hlast⟩
      · exact ⟨Nat.le_trans hnext (hwords s hs).1, (hwords s hs).2⟩
      · rw [hstart]
        exact Nat.le_trans hnext (hwords s hs).1

/-- The place of all names lies before the cursor behind them, too. -/
theorem before_names {first : Span} {others : List Span}
    (h : r.names.1.words = first :: others) (hwithin : ∀ s ∈ first :: others, s.Within source) :
    (first.through (others.getLast?.getD first)).Within source ∧
      (first.through (others.getLast?.getD first)).Before r.names.2.cursor.start := by
  obtain ⟨-, hbefore, hordered⟩ := start_namesUpTo (r := r) (r.cursor.rest.length + 1)
  change ∀ s ∈ r.names.1.words, _ ∧ s.Before r.names.2.cursor.start at hbefore
  change r.names.1.words.Pairwise _ at hordered
  rw [h] at hbefore hordered
  have hlast : others.getLast?.getD first ∈ first :: others :=
    List.mem_of_getLast? List.getLast?_cons
  -- the joined place is that from the first name to the last one, which starts no earlier
  have hle : first.start ≤ (others.getLast?.getD first).start := by
    rcases List.mem_cons.1 hlast with heq | hothers
    · exact Nat.le_of_eq (congrArg Span.start heq.symm)
    · exact (List.pairwise_cons.1 hordered).1 _ hothers
  refine ⟨Span.within_through hle (hwithin _ hlast), (hbefore first List.mem_cons_self).2.1, ?_⟩
  rw [Span.stop_through hle]
  exact (hbefore _ hlast).2.2

theorem start_le_keyword : r.cursor.start ≤ r.keyword.2.cursor.start := by
  unfold keyword
  dsimp only
  split
  · exact Nat.le_refl _
  · split
    · exact Nat.le_refl _
    · exact Nat.le_add_right _ _

theorem settles_keyword (h : r.Sound source) :
    Settles source (fun _ => True) r.keyword.1 ∧ r.keyword.2.Sound source := by
  have hword := h.reads.within (wordLength_le r.cursor.rest)
  unfold keyword
  dsimp only
  split
  · exact ⟨h.settles_missing rfl rfl, h⟩
  · next hne =>
    split
    · exact ⟨settles_lexical hword rfl, h⟩
    · refine ⟨settles_pure trivial, h.reads.passed (passed_word (by simpa using hne)), ?_⟩
      intro s hs
      cases hs
      exact hword

theorem settles_iterable (h : r.Sound source) :
    Settles source (fun o => o.StandsIn source ∧ o.span.start = r.cursor.start) r.iterable.1 ∧
      r.iterable.2.Sound source := by
  unfold iterable
  split
  · exact ⟨h.settles_missing rfl rfl, h⟩
  · next hne =>
    have hne : r.cursor.rest ≠ [] := by simpa using hne
    have hoperand := settles_operand h.reads hne
    split
    · next e he => exact ⟨hoperand.proper he, h⟩
    · next o behind ho =>
      have htook := hoperand.of_ok ho
      have hbehind := h.reads.took htook.2.choose_spec
      split
      · next e he => exact ⟨(settles_separated hbehind.2).proper he, hbehind.2, h.previous⟩
      · next next hnext =>
        exact ⟨⟨htook.1, htook.start_eq⟩, h.reads.passed (htook.passed h.reads hne hnext),
          h.previous⟩

theorem settles_direction (h : r.Sound source) : Settles source (fun _ => True) r.direction := by
  have hword := wordLength_le r.cursor.rest
  have hblank := blankLength_le (r.cursor.rest.drop (wordLength r.cursor.rest))
  have hlen := h.reads.add_length_le
  rw [List.length_drop] at hblank
  unfold direction
  dsimp only
  split
  · trivial
  · split
    · split
      · trivial
      · -- what stands behind `reversed` is refused, and the blanks between them are not part of it
        refine settles_lexical ?_ rfl
        simp only [Span.Within, Span.stop]
        omega
    · exact settles_lexical (h.reads.within hword) rfl

end LoopReader

/-! ## Switches and names of tags -/

theorem SwitchWord.settles_read (h : parts.Within source) :
    Settles source (fun _ => True) (SwitchWord.read source parts) := by
  unfold SwitchWord.read
  dsimp only
  repeat' split
  · trivial
  · trivial
  · exact settles_lexical h rfl
  · exact settles_lexical h rfl
  · exact settles_lexical h rfl

namespace TagWords

/-- **A tag** has its name and its parts in the text. -/
theorem settles_read (h : (⟨start, content⟩ : Cursor).Reads source) :
    Settles source (fun words? => ∀ words, words? = some words →
      words.name.Within source ∧ words.parts.Within source) (read? content start) := by
  have htrim := blankLength_add_length_trim_le content
  have hstart := blankLength_add_length_trimStart content
  have hlen := h.add_length_le
  have hword := wordLength_le (trim content)
  have hname := (List.takeWhile_sublist (l := trim content) isNameChar).length_le
  have hparts := blankLength_add_length_trim_le
    ((trim content).drop ((trim content).takeWhile isNameChar).length)
  rw [List.length_drop] at hparts
  dsimp only at hlen
  unfold read?
  dsimp only
  split
  · exact settles_pure nofun
  · split
    · refine settles_lexical ?_ rfl
      simp only [Span.Within, Span.stop]
      omega
    · refine settles_pure fun words hwords => ?_
      cases hwords
      simp only [Span.Within, Span.stop]
      omega

end TagWords

end Galley
