import Galley.Proofs.Tiling
import Galley.Words.Reading

/-!
# What is read lies ahead

Whatever is read at a cursor, be it answered or refused, lies in what the cursor has left to read. The
cursor behind it has a part of the same text left.

* `Cursor.Narrows`: a cursor that has a part of what another one has left to read.
* `StaysIn`: an outcome inside of parts.
* `Cursor.Confines`: the places that are answered or refused, and the cursor behind them.
* `Cursor.confines_operand`, `CallWord.confines_readKeyword`, `Chain.confines_argument`,
  `Chain.confines_separator`: **the pieces of words.**
* `Chain.narrows_of_read`: the filters behind the value of a chain.
-/

namespace Galley

open Cursor Text

variable {α β : Type} {c later : Cursor} {parts : Span} {n : Nat}

/-! ## Narrower cursors -/

namespace Cursor

/-- The place of all that is left to read. -/
def range (c : Cursor) : Span := ⟨c.start, c.rest.length⟩

/-- A cursor **narrows** to one that has a part of the same text left to read. -/
def Narrows (c later : Cursor) : Prop :=
  ∃ n, n ≤ c.rest.length ∧ later.start = c.start + n ∧ later.rest <+: c.rest.drop n

theorem narrows_refl (c : Cursor) : c.Narrows c :=
  ⟨0, Nat.zero_le _, rfl, List.prefix_rfl⟩

theorem narrows_advance (h : n ≤ c.rest.length) : c.Narrows (c.advance n) :=
  ⟨n, h, rfl, List.prefix_rfl⟩

theorem narrows_finish (c : Cursor) : c.Narrows c.finish :=
  ⟨0, Nat.zero_le _, rfl, List.nil_prefix⟩

theorem Narrows.start_le (h : c.Narrows later) : c.start ≤ later.start := by
  obtain ⟨n, -, hstart, -⟩ := h
  omega

theorem Narrows.range_inside (h : c.Narrows later) : later.range.Inside c.range := by
  refine ⟨h.start_le, ?_⟩
  obtain ⟨n, hn, hstart, hrest⟩ := h
  have hlength := hrest.length_le
  rw [List.length_drop] at hlength
  simp only [range, Span.stop]
  omega

theorem Narrows.trans {behind : Cursor} (h : c.Narrows behind) (h' : behind.Narrows later) :
    c.Narrows later := by
  obtain ⟨m, hm, hstart, hrest⟩ := h
  obtain ⟨n, hn, hstart', hrest'⟩ := h'
  have hlength := hrest.length_le
  rw [List.length_drop] at hlength
  refine ⟨m + n, by omega, by omega, ?_⟩
  obtain ⟨tail, htail⟩ := hrest
  rw [← List.drop_drop, ← htail, List.drop_append_of_le_length hn]
  exact hrest'.trans (List.prefix_append _ _)

/-- The next characters lie in what is left to read. -/
theorem inside_ahead (h : n ≤ c.rest.length) : (c.ahead n).Inside c.range :=
  ⟨Nat.le_refl _, Nat.add_le_add_left h _⟩

end Cursor

/-! ## Outcomes inside of parts -/

/-- An outcome **stays in** parts if its result has a property, or all places of its error lie there. -/
def StaysIn (parts : Span) (P : α → Prop) : Except TemplateError α → Prop
  | .ok a => P a
  | .error e => ∀ label ∈ e.labels, label.span.Inside parts

theorem staysIn_error_of {P : α → Prop} {cause : Cause} {place : Option Span}
    (h : ∀ s, place = some s → s.Inside parts) (ho : cause.otherSpans = []) :
    StaysIn parts P (.error ⟨place, cause⟩) := by
  intro label hlabel
  rcases mem_labels hlabel with hspan | hother
  · exact h label.span hspan
  · rw [ho] at hother
    cases hother

theorem staysIn_error {P : α → Prop} {cause : Cause} {span : Span} (h : span.Inside parts)
    (ho : cause.otherSpans = []) : StaysIn parts P (.error (.here cause span)) :=
  staysIn_error_of (fun _ hs => Option.some.inj hs ▸ h) ho

namespace StaysIn

variable {P : α → Prop} {Q : β → Prop} {x : Except TemplateError α}

theorem mono {outer : Span} {P' : α → Prop} (h : StaysIn parts P x) (hin : parts.Inside outer)
    (hp : ∀ a, P a → P' a) : StaysIn outer P' x := by
  cases x with
  | ok a => exact hp a h
  | error e => exact fun label hlabel => (h label hlabel).trans hin

theorem bind {f : α → Except TemplateError β} (h : StaysIn parts P x)
    (hf : ∀ a, P a → StaysIn parts Q (f a)) : StaysIn parts Q (x >>= f) := by
  cases x with
  | ok a => exact hf a h
  | error e => exact h

theorem map {f : α → β} (h : StaysIn parts P x) (hf : ∀ a, P a → Q (f a)) :
    StaysIn parts Q (x.map f) := by
  cases x with
  | ok a => exact hf a h
  | error e => exact h

end StaysIn

namespace Cursor

/-- What is read at a cursor is **confined** to what is left to read there: the places that are
answered or refused lie in it, and the cursor behind them narrows it. -/
def Confines (c : Cursor) (spans : α → List Span) (x : Except TemplateError (α × Cursor)) : Prop :=
  StaysIn c.range (fun r => (∀ s ∈ spans r.1, s.Inside c.range) ∧ c.Narrows r.2) x

theorem confines_take (h : n ≤ c.rest.length) : c.Confines (fun s => [s]) (.ok (c.take n)) :=
  ⟨List.forall_mem_singleton.2 (inside_ahead h), narrows_advance h⟩

theorem Confines.map {spans : α → List Span} {spans' : β → List Span}
    {x : Except TemplateError (α × Cursor)} (h : c.Confines spans x) (f : α → β)
    (hf : ∀ a, spans' (f a) = spans a) :
    c.Confines spans' (x.map fun r => (f r.1, r.2)) :=
  StaysIn.map h fun (a, _) ⟨hspans, hnarrows⟩ => ⟨(hf a).symm ▸ hspans, hnarrows⟩

/-- What is confined to a part of what is left to read is confined to all of it. -/
theorem Narrows.confines {spans : α → List Span} {x : Except TemplateError (α × Cursor)}
    (h : c.Narrows later) (hx : later.Confines spans x) : c.Confines spans x :=
  StaysIn.mono hx h.range_inside fun _ ⟨hspans, hnarrows⟩ =>
    ⟨fun s hs => (hspans s hs).trans h.range_inside, h.trans hnarrows⟩

/-! ## Literals and names -/

/-- A string literal is the next characters. -/
theorem took_of_quotedText {quote : Char} {r : Span × Cursor} (h : c.quotedText quote = .ok r) :
    ∃ n, n ≤ c.rest.length ∧ r = c.take n := by
  unfold quotedText at h
  split at h
  · next n hn =>
    cases h
    have hle := (closingQuote?_spec hn).1
    rw [List.length_drop] at hle
    have hpos : 0 < c.rest.length := by
      refine List.length_pos_iff.2 fun hnil => ?_
      rw [hnil] at hn
      cases hn
    exact ⟨n + 1, by omega, rfl⟩
  · cases h

theorem confines_quotedText (c : Cursor) (quote : Char) :
    c.Confines (fun s => [s]) (c.quotedText quote) := by
  cases h : c.quotedText quote with
  | ok r =>
    obtain ⟨n, hn, rfl⟩ := took_of_quotedText h
    exact confines_take hn
  | error e =>
    unfold quotedText at h
    split at h
    · cases h
    · cases h
      exact staysIn_error (inside_ahead (Nat.le_refl _)) rfl

theorem confines_translated {rest : List Char} (hr : c.rest = '_' :: '(' :: rest) :
    c.Confines (fun s => [s]) c.translated := by
  have hlength : c.rest.length = rest.length + 2 := by rw [hr]; rfl
  have hinner : c.Narrows (c.advance 2) := narrows_advance (by omega)
  have hrest : (c.advance 2).rest = rest := by simp [advance, hr]
  unfold translated
  dsimp only
  rw [hrest]
  cases rest with
  | nil => exact staysIn_error (inside_ahead (by omega)) rfl
  | cons quote rest =>
    dsimp only
    split
    · exact staysIn_error (inside_ahead (by omega)) rfl
    · have hquoted := hinner.confines (confines_quotedText (c.advance 2) quote)
      cases hq : (c.advance 2).quotedText quote with
      | error e =>
        rw [hq] at hquoted
        exact hquoted
      | ok r =>
        obtain ⟨m, hm, hr'⟩ := took_of_quotedText hq
        rw [hrest] at hm
        simp only [bind, Except.bind]
        split
        · -- the parenthesis is one more character
          next hclose =>
          have hlt := congrArg List.length hclose
          rw [hr', take, length_advance, hrest, List.length_cons, List.length_cons] at hlt
          have hle : m + 3 ≤ c.rest.length := by
            rw [hlength, List.length_cons]
            omega
          rw [hr']
          exact confines_take hle
        · have hle : m + 2 ≤ c.rest.length := by omega
          rw [hr']
          exact staysIn_error (inside_ahead hle) rfl

theorem start_le_of_badSegment? {start : Nat} {segments : List (List Char)} {span : Span}
    (h : badSegment? start segments = some span) : start ≤ span.start := by
  induction segments generalizing start with
  | nil => cases h
  | cons segment others ih =>
    simp only [badSegment?] at h
    split at h
    · cases h
      exact Nat.le_refl _
    · cases h
      exact Nat.le_refl _
    · have hle := ih h
      omega

/-- A path is refused inside of it. -/
theorem staysIn_checkPath (path : List Char) (start : Nat) :
    StaysIn ⟨start, path.length⟩ (fun _ => True) (checkPath path start) := by
  unfold checkPath
  split
  · next span hspan =>
    have hstop := badSegment?_le '.' hspan
    rw [length_flatMap_splitOn] at hstop
    exact staysIn_error ⟨start_le_of_badSegment? hspan, Nat.le_of_succ_le_succ hstop⟩ rfl
  · trivial

theorem confines_path (c : Cursor) : c.Confines (fun s => [s]) c.path := by
  have hle := pathLength_le c.rest
  have hlength : (c.rest.take (pathLength c.rest)).length = pathLength c.rest :=
    List.length_take_of_le hle
  have hcheck := staysIn_checkPath (c.rest.take (pathLength c.rest)) c.start
  rw [hlength] at hcheck
  unfold path
  exact (hcheck.mono (inside_ahead hle) fun _ h => h).bind fun _ _ => confines_take hle

theorem confines_separated (c : Cursor) :
    c.Confines (fun _ => []) (c.separated.map fun behind => ((), behind)) := by
  unfold separated
  split
  · exact ⟨List.forall_mem_nil _, narrows_advance (blankLength_le c.rest)⟩
  · exact staysIn_error (inside_ahead (wordLength_le c.rest)) rfl

theorem confines_operand (c : Cursor) : c.Confines (fun o => [o.span]) c.operand := by
  unfold operand
  split
  · next hr => exact (confines_translated hr).map (Operand.mk .translated) fun _ => rfl
  · split
    · exact (confines_quotedText c _).map (Operand.mk .text) fun _ => rfl
    · split
      · exact (confines_take (numeralLength_le c.rest) :)
      · exact (confines_take (expressionLength_le none c.rest) :)
  · exact nofun

end Cursor

/-! ## Arguments and filters -/

theorem CallWord.confines_readKeyword (c : Cursor) :
    c.Confines Option.toList (CallWord.readKeyword c) := by
  unfold CallWord.readKeyword
  split
  · exact ⟨List.forall_mem_nil _, narrows_refl c⟩
  · next n hn =>
    have hlt := CallWord.keywordLength?_lt hn
    dsimp only
    split
    · exact staysIn_error (inside_ahead hlt) rfl
    · exact ⟨List.forall_mem_singleton.2 (inside_ahead (Nat.le_of_lt hlt)), narrows_advance hlt⟩

namespace Chain

theorem confines_filterName (c : Cursor) :
    c.Confines (fun s => [s]) (readFilterName c) := by
  unfold readFilterName
  dsimp only
  split
  · exact staysIn_error (inside_ahead (lengthBefore_le _ _)) rfl
  · exact confines_take (List.takeWhile_sublist _).length_le

theorem confines_argument (c : Cursor) : c.Confines argumentSpans (argument c) := by
  unfold argument
  dsimp only
  split
  · exact ⟨List.forall_mem_nil _, narrows_refl c⟩
  · next hno =>
    simp only [Bool.or_eq_true, decide_eq_true_eq, not_or] at hno
    have hle := lengthBefore_le ':' c.rest
    have hcolon : lengthBefore ':' c.rest + 1 ≤ c.rest.length := by omega
    have hbehind : c.Narrows (c.advance (lengthBefore ':' c.rest + 1)) := narrows_advance hcolon
    split
    · -- nothing stands behind the colon
      refine staysIn_error ?_ rfl
      simp only [Span.Inside, Span.stop, range, advance]
      omega
    · next hr => exact hbehind.confines ((confines_translated hr).map (some ∘ Operand.mk .translated) fun _ => rfl)
    · exact hbehind.confines (staysIn_error (inside_ahead (wordLength_le _)) rfl)
    · split
      · exact hbehind.confines ((confines_quotedText _ _).map (some ∘ Operand.mk .text) fun _ => rfl)
      · split
        · exact hbehind.confines (confines_take (numeralLength_le _) :)
        · exact hbehind.confines ((confines_path _).map (some ∘ Operand.mk .path) fun _ => rfl)

/-- An argument is refused behind its colon. -/
theorem colon_lt_of_error {e : TemplateError} (h : argument c = .error e) :
    lengthBefore ':' c.rest < c.rest.length := by
  unfold argument at h
  dsimp only at h
  split at h
  · cases h
  · next hno =>
    simp only [Bool.or_eq_true, decide_eq_true_eq, not_or] at hno
    exact Nat.lt_of_le_of_ne (lengthBefore_le ':' c.rest) hno.1

theorem confines_separator (c : Cursor) :
    c.Confines (fun _ => []) ((separator c).map fun behind => ((), behind)) := by
  unfold separator
  dsimp only
  split
  · exact ⟨List.forall_mem_nil _, narrows_advance (Nat.min_le_right _ _)⟩
  · -- the gap is a part of what is left to read
    have hgap := blankLength_add_length_trim_le
      (c.rest.take (min (lengthBefore '|' c.rest) (lengthBefore ':' c.rest)))
    rw [List.length_take] at hgap
    refine staysIn_error ?_ rfl
    simp only [Span.Inside, Span.stop, range]
    omega

/-- The filters of a chain are a part of what is left to read. -/
theorem narrows_filters (c : Cursor) : c.Narrows (filters c) := by
  have hle := lengthBefore_le '|' c.rest
  unfold filters
  dsimp only
  split
  · exact (narrows_advance hle).trans (narrows_finish _)
  · have hbar : c.Narrows (c.advance (lengthBefore '|' c.rest + 1)) := narrows_advance (by omega)
    exact hbar.trans ⟨_, blankLength_le _, rfl, trim_prefix_drop _⟩

/-- So are those behind the value of a chain. -/
theorem narrows_of_read {content : List Char} {start : Nat} {value : Operand} {behind : Cursor}
    (h : read? content start = .ok (some (value, behind))) :
    (⟨start, content⟩ : Cursor).Narrows behind := by
  have hblank := blankLength_add_length_trimStart content
  unfold read? at h
  dsimp only at h
  split at h
  · cases h
  · next hne =>
    obtain ⟨⟨value', last⟩, hhead, h⟩ := bind_eq_ok.1 h
    obtain ⟨_, -, h⟩ := bind_eq_ok.1 h
    cases h
    have hbare : (⟨start, content⟩ : Cursor).Narrows
        ⟨start + (content.length - (trimStart content).length), trimStart content⟩ := by
      refine ⟨blankLength content, blankLength_le content, ?_, ?_⟩
      · dsimp only
        omega
      · exact ⟨[], (List.append_nil _).trans (drop_blankLength content).symm⟩
    obtain ⟨text, hreads⟩ := Cursor.exists_reads
      ⟨start + (content.length - (trimStart content).length), trimStart content⟩
    obtain ⟨-, n, hn, heq⟩ := (settles_head hreads (by simpa using hne)).of_ok hhead
    obtain rfl : last = _ := (Prod.mk.inj heq).2
    exact (hbare.trans (narrows_advance hn)).trans (narrows_filters _)

end Chain

end Galley
