import Galley.Words.Chain

/-!
# Plain expressions

Where a word of a tag ends is told without reading it: outside of quotes it goes on with the
characters of names, dots, bars and colons, and a quote lasts until the next one of its kind. A text
is plain if it ends outside of quotes when it is told like this.

* `Plain`: the texts.
* `Quoting`, `Quoting.run`: where a text leaves off.
* `Cursor.expressionLength_of_plain`, `Cursor.plain_of_expressionLength`: a plain text is taken as a
  whole, whatever follows it, and no other text is.
-/

namespace Galley

open Text Cursor

variable {c quote : Char} {text rest : List Char}

/-- Whether an expression may have a character outside of quotes. -/
def isPlain (c : Char) : Bool := isNameChar c || c = '.' || c = '|' || c = ':'

/-- **A plain text:** from a quote to the next one of its kind anything may stand, and otherwise the
characters of names, dots, bars and colons. -/
inductive Plain : List Char → Prop
  | nil : Plain []
  | char {c : Char} {rest : List Char} (hc : isPlain c) (h : Plain rest) : Plain (c :: rest)
  | quoted {quote : Char} {inner rest : List Char} (hq : isQuote quote) (hinner : quote ∉ inner)
    (h : Plain rest) : Plain (quote :: (inner ++ quote :: rest))

/-! ## Classes of characters -/

theorem not_isQuote_of_isPlain (h : isPlain c) : isQuote c = false := by
  cases hq : isQuote c with
  | false => rfl
  | true =>
    simp only [isQuote, Bool.or_eq_true, decide_eq_true_eq] at hq
    rcases hq with rfl | rfl <;> exact absurd h (by decide +kernel)

theorem isPlain_of_isNameChar (h : isNameChar c) : isPlain c := by
  rw [isPlain, h]
  rfl

/-- The codes of the blank characters. -/
def blankCodes : List Nat :=
  [9, 10, 11, 12, 13, 28, 29, 30, 31, 32, 0x85, 0xA0, 0x1680, 0x2000, 0x2001, 0x2002, 0x2003,
    0x2004, 0x2005, 0x2006, 0x2007, 0x2008, 0x2009, 0x200A, 0x2028, 0x2029, 0x202F, 0x205F, 0x3000]

theorem mem_blankCodes (h : isBlank c) : c.toNat ∈ blankCodes := by
  simp only [isBlank, Bool.or_eq_true, Bool.and_eq_true, decide_eq_true_eq, beq_iff_eq] at h
  simp only [blankCodes, List.mem_cons, List.not_mem_nil, or_false]
  omega

/-- **A blank** is part of no expression and opens no literal. -/
theorem of_isBlank (h : isBlank c) :
    isPlain c = false ∧ isQuote c = false ∧ startsNumber c = false := by
  have hall : ∀ code ∈ blankCodes, isPlain (Char.ofNat code) = false ∧
      isQuote (Char.ofNat code) = false ∧ startsNumber (Char.ofNat code) = false := by
    decide +kernel
  have := hall c.toNat (mem_blankCodes h)
  rwa [Char.ofNat_toNat] at this

theorem not_isBlank_of_isPlain (h : isPlain c) : isBlank c = false := by
  cases hblank : isBlank c with
  | false => rfl
  | true =>
    rw [(of_isBlank hblank).1] at h
    cases h

/-! ## Where a text leaves off -/

/-- Where a text leaves off: outside of quotes, inside of them, or behind a character that no
expression has there. -/
inductive Quoting where
  | outside
  | inside (quote : Char)
  | lost
deriving DecidableEq

namespace Quoting

variable {s : Quoting}

/-- One more character. -/
def step : Quoting → Char → Quoting
  | outside, c => if isQuote c then inside c else if isPlain c then outside else lost
  | inside quote, c => if c = quote then outside else inside quote
  | lost, _ => lost

/-- **Where a text leaves off** that begins in a given state. -/
def run (s : Quoting) (text : List Char) : Quoting := text.foldl step s

@[simp] theorem run_nil (s : Quoting) : s.run [] = s := rfl

@[simp] theorem run_cons (s : Quoting) (c : Char) (rest : List Char) :
    s.run (c :: rest) = (s.step c).run rest := rfl

@[simp] theorem run_append (s : Quoting) (first second : List Char) :
    s.run (first ++ second) = (s.run first).run second := List.foldl_append

@[simp] theorem run_lost (text : List Char) : lost.run text = lost := by
  induction text with
  | nil => rfl
  | cons c rest ih => exact ih

theorem step_outside_quote (h : isQuote c) : outside.step c = inside c := if_pos h

theorem step_outside_plain (h : isPlain c) : outside.step c = outside := by
  rw [step, if_neg (by simp [not_isQuote_of_isPlain h]), if_pos h]

theorem run_outside_plain (h : ∀ c ∈ text, isPlain c) : outside.run text = outside := by
  induction text with
  | nil => rfl
  | cons c rest ih =>
    obtain ⟨hc, hrest⟩ := List.forall_mem_cons.1 h
    rw [run_cons, step_outside_plain hc, ih hrest]

/-- A quote lasts while there is no other of its kind. -/
theorem run_inside (h : quote ∉ text) : (inside quote).run text = inside quote := by
  induction text with
  | nil => rfl
  | cons c rest ih =>
    obtain ⟨hc, hrest⟩ := not_or.1 (fun hor => h (List.mem_cons.2 hor))
    rw [run_cons, step, if_neg (Ne.symm hc), ih hrest]

theorem run_outside_of_plain (h : Plain text) : outside.run text = outside := by
  induction h with
  | nil => rfl
  | char hc _ ih => rw [run_cons, step_outside_plain hc, ih]
  | quoted hq hinner _ ih =>
    rw [run_cons, step_outside_quote hq, run_append, run_inside hinner, run_cons, step,
      if_pos rfl, ih]

theorem plain_of_run {limit : Nat} (hl : text.length ≤ limit) (h : outside.run text = outside) :
    Plain text := by
  induction limit generalizing text with
  | zero =>
    rw [List.length_eq_zero_iff.1 (Nat.le_zero.1 hl)]
    exact .nil
  | succ limit ih =>
    cases text with
    | nil => exact .nil
    | cons c rest =>
      rw [run_cons] at h
      by_cases hq : isQuote c
      · -- the quote has to be closed
        rw [step_outside_quote hq] at h
        have hmem : c ∈ rest := by
          refine Classical.byContradiction fun hnot => ?_
          rw [run_inside hnot] at h
          cases h
        obtain ⟨inner, later, rfl, hinner⟩ := List.eq_append_cons_of_mem hmem
        rw [run_append, run_inside hinner, run_cons, step, if_pos rfl] at h
        refine .quoted hq hinner (ih ?_ h)
        simp only [List.length_cons, List.length_append] at hl
        omega
      · rw [step, if_neg hq] at h
        by_cases hc : isPlain c
        · rw [if_pos hc] at h
          exact .char hc (ih (Nat.le_of_succ_le_succ hl) h)
        · rw [if_neg hc, run_lost] at h
          cases h

/-- **A text is plain** if it leaves off outside of quotes. -/
theorem plain_iff_run : Plain text ↔ outside.run text = outside :=
  ⟨run_outside_of_plain, plain_of_run (Nat.le_refl _)⟩

/-! ## How far an expression goes -/

/-- The state in which a quote is open, if there is one. -/
def ofQuote : Option Char → Quoting
  | none => outside
  | some quote => inside quote

/-- **One character** either ends an expression, or the expression goes on in the next state. -/
theorem step_ofQuote (q : Option Char) (c : Char) :
    ((ofQuote q).step c = lost ∧ ∀ rest, expressionLength q (c :: rest) = 0) ∨
      ∃ next, (ofQuote q).step c = ofQuote next ∧
        ∀ rest, expressionLength q (c :: rest) = expressionLength next rest + 1 := by
  cases q with
  | some quote =>
    refine .inr ⟨if c = quote then none else some quote, ?_, fun rest => rfl⟩
    rw [apply_ite ofQuote]
    rfl
  | none =>
    by_cases hq : isQuote c
    · exact .inr ⟨some c, step_outside_quote hq, fun rest => by rw [expressionLength, if_pos hq]⟩
    · by_cases hc : isPlain c
      · refine .inr ⟨none, step_outside_plain hc, fun rest => ?_⟩
        rw [expressionLength, if_neg hq]
        exact if_pos hc
      · refine .inl ⟨?_, fun rest => ?_⟩
        · rw [ofQuote, step, if_neg hq, if_neg hc]
        · rw [expressionLength, if_neg hq]
          exact if_neg hc

theorem ofQuote_ne_lost (q : Option Char) : ofQuote q ≠ lost := by cases q <;> nofun

theorem expressionLength_append {q q' : Option Char} (tail : List Char)
    (h : (ofQuote q).run text = ofQuote q') :
    expressionLength q (text ++ tail) = text.length + expressionLength q' tail := by
  induction text generalizing q with
  | nil =>
    have : q = q' := by cases q <;> cases q' <;> cases h <;> rfl
    rw [this, List.nil_append, List.length_nil, Nat.zero_add]
  | cons c rest ih =>
    rw [run_cons] at h
    rcases step_ofQuote q c with ⟨hlost, -⟩ | ⟨next, hnext, hlen⟩
    · rw [hlost, run_lost] at h
      exact absurd h.symm (ofQuote_ne_lost q')
    · rw [hnext] at h
      rw [List.cons_append, hlen, ih h, List.length_cons]
      omega

theorem expressionLength_lt {q : Option Char} (tail : List Char) (h : (ofQuote q).run text = lost) :
    expressionLength q (text ++ tail) < text.length := by
  induction text generalizing q with
  | nil => exact absurd h (ofQuote_ne_lost q)
  | cons c rest ih =>
    rw [run_cons] at h
    rcases step_ofQuote q c with ⟨-, hlen⟩ | ⟨next, hnext, hlen⟩
    · rw [List.cons_append, hlen]
      exact Nat.succ_pos _
    · rw [hnext] at h
      rw [List.cons_append, hlen]
      exact Nat.succ_lt_succ (ih h)

end Quoting

namespace Cursor

/-- Behind an expression the text ends, or a blank stands. -/
theorem expressionLength_of_wordLength {tail : List Char} (h : wordLength tail = 0) :
    expressionLength none tail = 0 := by
  cases tail with
  | nil => rfl
  | cons d rest =>
    obtain ⟨hplain, hquote, -⟩ := of_isBlank (isBlank_of_wordLength h)
    rw [expressionLength, if_neg (by simp [hquote])]
    exact if_neg (by simpa [isPlain] using hplain)

/-- **A plain text is taken as a whole** if nothing or a blank follows it. -/
theorem expressionLength_of_plain (h : Plain text) {tail : List Char} (ht : wordLength tail = 0) :
    expressionLength none (text ++ tail) = text.length := by
  have hrun : (Quoting.ofQuote none).run text = Quoting.ofQuote none :=
    Quoting.run_outside_of_plain h
  rw [Quoting.expressionLength_append tail hrun, expressionLength_of_wordLength ht, Nat.add_zero]

/-- **Only a plain text** is taken as a whole if a blank follows it. -/
theorem plain_of_expressionLength (h : expressionLength none (text ++ [' ']) = text.length) :
    Plain text := by
  rw [Quoting.plain_iff_run]
  cases hrun : Quoting.outside.run text with
  | outside => rfl
  | inside quote =>
    -- the blank would belong to the literal
    have hopen : (Quoting.ofQuote none).run text = Quoting.ofQuote (some quote) := hrun
    rw [Quoting.expressionLength_append [' '] hopen] at h
    exact absurd h (by simp [expressionLength])
  | lost =>
    have hlost : (Quoting.ofQuote none).run text = Quoting.lost := hrun
    exact absurd h (Nat.ne_of_lt (Quoting.expressionLength_lt [' '] hlost))

end Cursor

end Galley
