import Galley.Proofs.Rereading

/-!
# What stands around an argument

A literal says where it ends, and so does a literal that is to be translated. What is read around such an
argument of a filter does not depend on it: the value of the chain and the filters before it stand at
their places, and behind it the same filters follow.

* `Chain.Enclosed`: a value that says where it ends.
* `Piece.Leads.change`, `Piece.Leads.exchange`: a filter with something else behind it, and with another
  argument.
* `Chain.exists_readUpTo_around`: the filters around an argument.
* `Chain.HasArgument`, `Chain.exists_read_around`: **a chain around an argument.**
-/

namespace Galley

open Text

variable {c next : Cursor} {before behind text rest : List Char} {start n limit : Nat}
  {kind : OperandKind} {o : Operand} {w : FilterWord} {p : Piece}

/-- What stands in the middle of a text is read there. -/
theorem Cursor.reads_middle (before text behind : List Char) :
    (⟨before.length, text⟩ : Cursor).Reads (before ++ (text ++ behind)) := by
  refine ⟨by simp, behind, ?_⟩
  dsimp only
  rw [List.drop_left]

/-- What ends a text is read there. -/
theorem Cursor.reads_end (before text : List Char) :
    (⟨before.length, text⟩ : Cursor).Reads (before ++ text) := by
  have h := Cursor.reads_middle before text []
  rwa [List.append_nil] at h

/-! ## Values that say where they end -/

/-- **A value says where it ends** if it leads whatever stands behind it. -/
structure Chain.Enclosed (kind : OperandKind) (text : List Char) : Prop where
  written : kind.Written text
  leads : ∀ rest, Leads kind text rest
  trimmed : Trimmed text

namespace Chain

theorem not_isBlank_of_isQuote {quote : Char} (h : Cursor.isQuote quote) : isBlank quote = false := by
  refine Bool.eq_false_iff.2 fun hblank => ?_
  rw [(of_isBlank hblank).2.1] at h
  cases h

theorem enclosed_quoted (h : IsQuoted text) : Enclosed .text text := by
  refine ⟨h, leads_quoted h, ?_⟩
  obtain ⟨quote, body, hquote, -, rfl⟩ := h
  have hblank := not_isBlank_of_isQuote hquote
  refine ⟨fun d hd => ?_, fun d hd => ?_⟩
  · cases hd
    exact hblank
  · rw [← List.cons_append, List.getLast?_concat] at hd
    cases hd
    exact hblank

theorem enclosed_call (h : IsQuoted text) : Enclosed .translated (call text) := by
  refine ⟨⟨text, h, rfl⟩, leads_call h, fun d hd => ?_, fun d hd => ?_⟩
  · cases hd
    rfl
  · rw [call, ← List.cons_append, ← List.cons_append, List.getLast?_concat] at hd
    cases hd
    rfl

theorem Enclosed.ne_nil (h : Enclosed kind text) : text ≠ [] := by
  rintro rfl
  cases h.leads []

end Chain

/-! ## Filters -/

namespace Piece

/-- **A filter that something ends** is read in the same pieces whatever stands behind it. -/
theorem Leads.change (h : p.Leads rest) (hsep : p.separator ≠ []) (rest' : List Char) :
    p.Leads rest' := by
  refine ⟨h.valid, h.first, h.ended, fun a ha => ?_, h.bare, fun hnil => absurd hnil hsep⟩
  have hread := h.argument a ha
  rw [← List.append_assoc] at hread ⊢
  exact hread.append (List.append_ne_nil_of_right_ne_nil _ hsep) rest'

/-- The filter with another argument behind the colon. -/
def withArgument (p : Piece) (a : ArgumentPiece) (kind : OperandKind) (text : List Char) : Piece :=
  { p with argument := some { a with kind, text } }

/-- **Another argument that says where it ends** is read in the place of the first one. -/
theorem Leads.exchange {a : ArgumentPiece} (h : p.Leads rest) (ha : p.argument = some a)
    (hvalue : Chain.Enclosed kind text) : (p.withArgument a kind text).Leads rest := by
  refine ⟨⟨h.valid.blanks, h.valid.name, h.valid.name_ne, ?_, ?_, h.valid.spaces,
    h.valid.separator⟩, h.first, ?_, ?_, nofun, h.last⟩
  · rintro _ ⟨⟩
    exact h.valid.gap a ha
  · rintro _ ⟨⟩
    exact hvalue.written
  · rintro _ ⟨⟩
    exact h.ended a ha
  · rintro _ ⟨⟩
    exact hvalue.leads _

/-- A filter up to its argument. -/
def leading (p : Piece) (a : ArgumentPiece) : List Char := p.blanks ++ (p.name ++ (a.gap ++ [':']))

theorem length_leading (p : Piece) (a : ArgumentPiece) :
    (p.leading a).length = p.blanks.length + p.name.length + a.gap.length + 1 := by
  simp only [leading, List.length_append, List.length_singleton]
  omega

/-- A filter that has an argument. -/
theorem text_append_of_argument {a : ArgumentPiece} (ha : p.argument = some a) (rest : List Char) :
    p.text ++ rest = p.leading a ++ (a.text ++ (p.spaces ++ p.separator ++ rest)) := by
  simp [text, leading, argumentText, ha]

theorem word_of_argument {a : ArgumentPiece} (ha : p.argument = some a) (start : Nat) :
    p.word start = ⟨⟨start + p.blanks.length, p.name.length⟩,
      some ⟨a.kind, ⟨start + (p.leading a).length, a.text.length⟩⟩⟩ := by
  rw [word, ha, length_leading, ← Nat.add_assoc, ← Nat.add_assoc, ← Nat.add_assoc]
  rfl

end Piece

namespace Chain

theorem readUpTo_eq_readAll (h : c.rest.length ≤ limit) :
    Cursor.readUpTo filterStep limit c = Cursor.readAll filterStep c := by
  have hreads : c.Reads (List.replicate c.start ' ' ++ c.rest) := ⟨by simp, by simp⟩
  exact sound_filterStep.readUpTo_eq hreads h (Nat.le_refl _)

/-- The filters behind the first one are read after it. -/
theorem readUpTo_of_filterWord (h : filterWord c = .ok (w, next)) (hne : c.rest ≠ []) (limit : Nat) :
    Cursor.readUpTo filterStep (limit + 1) c =
      (Cursor.readUpTo filterStep limit next).after [w] := by
  have hempty : c.rest.isEmpty = false := by simpa using hne
  have hstep : filterStep c = some (.ok w, next) := by
    rw [filterStep, Cursor.Step.ofRead, hempty, h]
    rfl
  rw [Cursor.readUpTo, hstep]
  rfl

/-- Where one filter is read at least, the first one is, and then the others are. -/
theorem exists_first_of_mem (h : w ∈ (Cursor.readUpTo filterStep limit c).words) :
    ∃ limit' first next, limit = limit' + 1 ∧ c.rest ≠ [] ∧ filterWord c = .ok (first, next) ∧
      (w = first ∨ w ∈ (Cursor.readUpTo filterStep limit' next).words) := by
  cases limit with
  | zero => cases h
  | succ limit =>
    have hne : c.rest ≠ [] := by
      intro hnil
      rw [Cursor.readUpTo, filterStep, Cursor.Step.ofRead, hnil] at h
      cases h
    have hempty : c.rest.isEmpty = false := by simpa using hne
    rw [Cursor.readUpTo, filterStep, Cursor.Step.ofRead, hempty] at h
    cases hread : filterWord c with
    | error e =>
      simp only [hread] at h
      cases h
    | ok r =>
      simp only [hread] at h
      exact ⟨limit, r.1, r.2, rfl, hne, rfl, List.mem_cons.1 h⟩

/-- An argument stands behind the start of the filters. -/
theorem start_lt_argument (h : w ∈ (Cursor.readUpTo filterStep limit c).words)
    (ho : w.argument = some o) : c.start < o.span.start := by
  induction limit generalizing c with
  | zero => cases h
  | succ limit ih =>
    obtain ⟨limit', first, next, hlimit, -, hread, hw⟩ := exists_first_of_mem h
    obtain rfl := Nat.succ.inj hlimit
    obtain ⟨p, -, hbehind, rfl⟩ := exists_leads_piece hread
    rcases hw with rfl | hw
    · obtain ⟨a, -, rfl⟩ := Option.map_eq_some_iff.1 ho
      dsimp only
      omega
    · have := ih hw
      have := hbehind.2
      omega

end Chain

/-! ## Around an argument -/

/-- **What stands around an argument**: the filters before its own, the name of that one, the text up to
the next filter, and what is left there. -/
structure Surroundings where
  earlier : List FilterWord
  name : Span
  gap : List Char
  tail : List Char

namespace Surroundings

/-- The filters up to the argument. -/
def words (s : Surroundings) (o : Operand) : List FilterWord := s.earlier ++ [⟨s.name, some o⟩]

/-- All filters from a place on, with an argument that ends at a place. -/
def readWith (s : Surroundings) (o : Operand) : Cursor.Words FilterWord :=
  (Cursor.readAll Chain.filterStep ⟨o.span.stop + s.gap.length, s.tail⟩).after (s.words o)

/-- They **stand** between two texts. -/
structure Between (s : Surroundings) (before behind : List Char) : Prop where
  earlier : ∀ w ∈ s.earlier, w.StandsIn before
  name : s.name.Within before
  behind : s.gap ++ s.tail <+: behind

/-- They **surround** a place if the filters are read with whatever argument stands there, as long as it
says where it ends. -/
def Surrounds (s : Surroundings) (start : Nat) (lead behind : List Char) : Prop :=
  ∀ kind value limit, Chain.Enclosed kind value → (lead ++ (value ++ behind)).length ≤ limit →
    Cursor.readUpTo Chain.filterStep limit ⟨start, lead ++ (value ++ behind)⟩ =
      s.readWith ⟨kind, ⟨start + lead.length, value.length⟩⟩

end Surroundings

namespace Chain

/-- One filter is read, and then the others are. -/
theorem readUpTo_of_leads (h : p.Leads rest) (hlimit : (p.text ++ rest).length ≤ limit) (start : Nat) :
    ∃ limit', rest.length ≤ limit' ∧
      Cursor.readUpTo filterStep limit ⟨start, p.text ++ rest⟩ =
        (Cursor.readUpTo filterStep limit' ⟨start + p.text.length, rest⟩).after [p.word start] := by
  have hpos := Piece.length_text_pos h.valid
  rw [List.length_append] at hlimit
  obtain ⟨limit', rfl⟩ : ∃ limit', limit = limit' + 1 := ⟨limit - 1, by omega⟩
  have hne : p.text ++ rest ≠ [] :=
    List.append_ne_nil_of_left_ne_nil (List.ne_nil_of_length_pos hpos) _
  exact ⟨limit', by omega, readUpTo_of_filterWord (filterWord_of_leads h start) hne limit'⟩

/-- The argument is the one of the first filter. -/
theorem surrounds_argument {a : ArgumentPiece} (h : p.Leads rest) (ha : p.argument = some a)
    (start : Nat) :
    (⟨[], ⟨start + p.blanks.length, p.name.length⟩, p.spaces ++ p.separator, rest⟩ :
      Surroundings).Surrounds start (p.leading a) (p.spaces ++ p.separator ++ rest) := by
  intro kind value limit hkind hlimit
  have htext : (p.withArgument a kind value).text ++ rest =
      p.leading a ++ (value ++ (p.spaces ++ p.separator ++ rest)) :=
    Piece.text_append_of_argument (a := ⟨a.gap, kind, value⟩) rfl rest
  have hplace : start + (p.withArgument a kind value).text.length =
      start + (p.leading a).length + value.length + (p.spaces ++ p.separator).length := by
    have := congrArg List.length htext
    simp only [List.length_append] at this ⊢
    omega
  have hword : (p.withArgument a kind value).word start =
      ⟨⟨start + p.blanks.length, p.name.length⟩,
        some ⟨kind, ⟨start + (p.leading a).length, value.length⟩⟩⟩ :=
    Piece.word_of_argument (a := ⟨a.gap, kind, value⟩) rfl start
  rw [← htext] at hlimit
  obtain ⟨limit', hle, hread⟩ := readUpTo_of_leads (h.exchange ha hkind) hlimit start
  rw [htext, hplace, hword] at hread
  rw [hread, readUpTo_eq_readAll hle]
  rfl

/-- A filter before the others ends before their argument, and stays what it is. -/
theorem surrounds_behind {s : Surroundings} {lead : List Char} (h : p.Leads rest)
    (hsep : p.separator ≠ []) (hs : s.Surrounds (start + p.text.length) lead behind) :
    { s with earlier := p.word start :: s.earlier }.Surrounds start (p.text ++ lead) behind := by
  intro kind value limit hkind hlimit
  rw [List.append_assoc] at hlimit ⊢
  obtain ⟨limit', hle, hread⟩ :=
    readUpTo_of_leads (h.change hsep (lead ++ (value ++ behind))) hlimit start
  rw [hread, hs kind value limit' hkind hle, List.length_append, ← Nat.add_assoc]
  rfl

/-- **The filters around an argument** are read whatever the argument is, if it says where it ends. -/
theorem exists_readUpTo_around {value lead : List Char} (hreads : (⟨start, lead⟩ : Cursor).Reads before)
    (hw : w ∈ (Cursor.readUpTo filterStep limit ⟨start, lead ++ (value ++ behind)⟩).words)
    (ho : w.argument = some ⟨kind, ⟨start + lead.length, value.length⟩⟩) :
    ∃ s : Surroundings, s.Between before behind ∧ s.Surrounds start lead behind := by
  induction limit generalizing start lead with
  | zero => cases hw
  | succ limit ih =>
    obtain ⟨limit', first, next, hlimit, -, hread, hmem⟩ := exists_first_of_mem hw
    obtain rfl := Nat.succ.inj hlimit
    obtain ⟨p, hleads, ⟨hrest, hstart⟩, rfl⟩ := exists_leads_piece hread
    dsimp only at hrest hstart
    rcases hmem with rfl | hlater
    · -- the argument is the one of the first filter
      obtain ⟨a, ha, -⟩ := Option.map_eq_some_iff.1 ho
      rw [Piece.word_of_argument ha] at ho
      simp only [Option.some.injEq, Operand.mk.injEq, Span.mk.injEq, Nat.add_left_cancel_iff] at ho
      obtain ⟨-, hlead, hvalue⟩ := ho
      rw [Piece.text_append_of_argument ha] at hrest
      obtain ⟨rfl, hvalues⟩ := List.append_inj hrest hlead.symm
      obtain ⟨rfl, rfl⟩ := List.append_inj hvalues hvalue.symm
      refine ⟨_, ?_, surrounds_argument hleads ha start⟩
      refine ⟨nofun, ?_, List.prefix_rfl⟩
      have hlength := p.length_leading a
      have hle : start + (p.leading a).length ≤ before.length := hreads.add_length_le
      simp only [Span.Within, Span.stop]
      omega
    · -- the argument is behind the first filter
      have hbefore := start_lt_argument hlater ho
      have hsep : p.separator ≠ [] := by
        intro hnil
        obtain ⟨_, _, _, -, hne, -⟩ := exists_first_of_mem hlater
        exact hne (hleads.last hnil)
      dsimp only at hbefore
      obtain ⟨lead', rfl⟩ : ∃ lead', lead = p.text ++ lead' := by
        have hprefix := List.prefix_of_prefix_length_le (List.prefix_append p.text next.rest)
          (hrest ▸ List.prefix_append lead (value ++ behind)) (by omega)
        obtain ⟨lead', heq⟩ := hprefix
        exact ⟨lead', heq.symm⟩
      obtain ⟨hfirst, hothers⟩ := hreads.append
      rw [List.append_assoc] at hrest
      have hnext : next = ⟨start + p.text.length, lead' ++ (value ++ behind)⟩ := by
        cases next
        cases hstart
        cases List.append_cancel_left hrest
        rfl
      subst hnext
      rw [List.length_append, ← Nat.add_assoc] at ho
      obtain ⟨s, hs, haround⟩ := ih hothers hlater ho
      have hword : (p.word start).StandsIn before := by
        have hread := filterWord_of_leads (hleads.change hsep []) start
        rw [List.append_nil] at hread
        exact ((settles_filterWord hfirst).of_ok hread).1
      exact ⟨{ s with earlier := p.word start :: s.earlier },
        ⟨List.forall_mem_cons.2 ⟨hword, hs.earlier⟩, hs.name, hs.behind⟩,
        surrounds_behind hleads hsep haround⟩

/-! ## A chain behind its value -/

/-- Only blanks may stand before the first bar. -/
theorem checkGap_eq_ok_iff {u : Unit} : checkGap o c = .ok u ↔
    allBlank (c.rest.take (lengthBefore '|' c.rest)) := by
  refine ⟨allBlank_of_checkGap, fun h => ?_⟩
  rw [checkGap, if_pos h]

/-- **Behind a value that says where it ends** the filters are read as on their own. -/
theorem read?_enclosed {value : List Char} (hvalue : Enclosed kind value) (hbefore : allBlank before)
    (behind : List Char) :
    read? (before ++ (value ++ behind)) 0 =
      (checkGap ⟨kind, ⟨before.length, value.length⟩⟩ ⟨before.length + value.length, behind⟩).map
        fun _ => some (⟨kind, ⟨before.length, value.length⟩⟩,
          (filters ⟨0, behind⟩).shift (before.length + value.length)) := by
  have hfirst : ∀ d ∈ (value ++ behind).head?, isBlank d = false := by
    rw [List.head?_append_of_ne_nil _ hvalue.ne_nil]
    exact hvalue.trimmed.head
  have hempty : (value ++ behind).isEmpty = false := by simp [hvalue.ne_nil]
  have hlength : (before ++ (value ++ behind)).length - (value ++ behind).length = before.length := by
    rw [List.length_append, Nat.add_sub_cancel]
  have hfilters := filters_shift (before.length + value.length) ⟨0, behind⟩
  unfold read?
  simp only [trimStart_append hbefore hfirst, hempty, Bool.false_eq_true, if_false, hlength,
    Nat.zero_add, (hvalue.leads behind).head, ← hfilters]
  rfl

/-! ## A chain around an argument -/

/-- An operand is **an argument in a chain** if a filter of the chain is read with it. -/
def HasArgument (content : List Char) (o : Operand) : Prop :=
  ∃ value filters, read? content 0 = .ok (some (value, filters)) ∧
    ∃ w ∈ (Cursor.readAll filterStep filters).words, w.argument = some o

/-- The text before the filters of a chain: its value and the first bar, with blanks around them. -/
structure Opening where
  blanks : List Char
  value : List Char
  spaces : List Char
  gap : List Char

namespace Opening

/-- **The text of an opening.** -/
def written (p : Opening) : List Char := p.blanks ++ (p.value ++ (p.spaces ++ '|' :: p.gap))

theorem length_written (p : Opening) :
    p.written.length = p.blanks.length + p.value.length + p.spaces.length + 1 + p.gap.length := by
  simp only [written, List.length_append, List.length_cons]
  omega

end Opening

/-- **An opening leads filters**: its value is read in front of the bar, and all else is blank. -/
structure Opening.Leads (p : Opening) (kind : OperandKind) (rest : List Char) : Prop where
  blanks : allBlank p.blanks
  value : Chain.Leads kind p.value (p.spaces ++ '|' :: (p.gap ++ rest))
  first : ∀ d ∈ (p.value ++ (p.spaces ++ ['|'])).head?, isBlank d = false
  spaces : allBlank p.spaces
  gap : allBlank p.gap

/-- What stands behind the bar does not matter. -/
theorem Opening.Leads.change {p : Opening} (h : p.Leads kind rest) (rest' : List Char) :
    p.Leads kind rest' := by
  refine ⟨h.blanks, ?_, h.first, h.spaces, h.gap⟩
  have hsplit (rest : List Char) : p.spaces ++ '|' :: (p.gap ++ rest) =
      (p.spaces ++ ['|']) ++ (p.gap ++ rest) := by simp
  have hvalue := h.value
  rw [hsplit] at hvalue ⊢
  exact hvalue.append (by simp) _

/-- The value stands in the opening. -/
theorem Opening.Leads.standsIn {p : Opening} (h : p.Leads kind rest) (behind : List Char) :
    (⟨kind, ⟨p.blanks.length, p.value.length⟩⟩ : Operand).StandsIn (p.written ++ behind) := by
  have hread := ((h.change []).value).head p.blanks.length
  rw [List.append_nil] at hread
  have hreads := Cursor.reads_middle p.blanks (p.value ++ (p.spaces ++ '|' :: p.gap)) behind
  rw [written, List.append_assoc]
  exact ((settles_head hreads (by simp)).of_ok hread).1

theorem trimmed_filters (c : Cursor) : Trimmed (filters c).rest := by
  unfold filters
  dsimp only
  split
  · exact ⟨nofun, nofun⟩
  · exact trimmed_trim _

/-- **A chain is read** where its opening stands. -/
theorem Opening.Leads.read {p : Opening} {trailing : List Char} (h : p.Leads kind (text ++ trailing))
    (htrimmed : Trimmed text) (hne : text ≠ []) (htrailing : allBlank trailing) :
    read? (p.written ++ (text ++ trailing)) 0 =
      .ok (some (⟨kind, ⟨p.blanks.length, p.value.length⟩⟩, ⟨p.written.length, text⟩)) := by
  have htext : p.written ++ (text ++ trailing) =
      p.blanks ++ (p.value ++ (p.spaces ++ '|' :: (p.gap ++ (text ++ trailing)))) := by
    simp [Opening.written]
  have hnonempty : p.value ++ (p.spaces ++ ['|']) ≠ [] := by simp
  have hfirst : ∀ d ∈ (p.value ++ (p.spaces ++ '|' :: (p.gap ++ (text ++ trailing)))).head?,
      isBlank d = false := by
    have hsplit : p.value ++ (p.spaces ++ '|' :: (p.gap ++ (text ++ trailing))) =
        p.value ++ (p.spaces ++ ['|']) ++ (p.gap ++ (text ++ trailing)) := by simp
    rw [hsplit, List.head?_append_of_ne_nil _ hnonempty]
    exact h.first
  have hempty : (p.value ++ (p.spaces ++ '|' :: (p.gap ++ (text ++ trailing)))).isEmpty = false := by
    simp
  have hfilters := filters_bar h.spaces h.gap htrailing htrimmed.head htrimmed.last
    (fun hnil => absurd hnil hne) (p.blanks.length + p.value.length)
  rw [← p.length_written] at hfilters
  have hlength : (p.blanks ++ (p.value ++ (p.spaces ++ '|' :: (p.gap ++ (text ++ trailing))))).length -
      (p.value ++ (p.spaces ++ '|' :: (p.gap ++ (text ++ trailing)))).length = p.blanks.length := by
    rw [List.length_append, Nat.add_sub_cancel]
  unfold read?
  simp only [htext, trimStart_append h.blanks hfirst, hempty, Bool.false_eq_true, if_false, hlength,
    Nat.zero_add, h.value.head]
  simp only [bind, Except.bind, checkGap_of_ends (.bar h.spaces _), hfilters]
  rfl

/-- **Where a chain with filters is read** its opening stands. -/
theorem exists_opening {content : List Char} {filters : Cursor}
    (h : read? content 0 = .ok (some (o, filters))) (hne : filters.rest ≠ []) :
    ∃ (p : Opening) (trailing : List Char), p.Leads o.kind (filters.rest ++ trailing) ∧
      content = p.written ++ (filters.rest ++ trailing) ∧ filters.start = p.written.length ∧
      o.span = ⟨p.blanks.length, p.value.length⟩ ∧ Trimmed filters.rest ∧ allBlank trailing := by
  unfold read? at h
  dsimp only at h
  split at h
  · cases h
  · rw [bind_eq_ok] at h
    obtain ⟨⟨value, next⟩, hhead, h⟩ := h
    rw [bind_eq_ok] at h
    obtain ⟨_, hgap, h⟩ := h
    cases h
    obtain ⟨text, hleads, ⟨hrest, hstart⟩, hspan⟩ := exists_leads hhead
    obtain ⟨bar, trailing, heq, hfilters, hbar, htrailing⟩ := exists_filters next
    dsimp only at hrest hstart hspan
    rcases hbar with ⟨-, hnil⟩ | ⟨gap, hgap', rfl⟩
    · exact absurd hnil hne
    · have hspaces := allBlank_of_checkGap hgap
      generalize next.rest.take (lengthBefore '|' next.rest) = spaces at heq hfilters hspaces
      rw [List.cons_append] at heq
      have hblanks : (content.take (blankLength content)).length =
          content.length - (trimStart content).length := by
        have := blankLength_add_length_trimStart content
        rw [List.length_take]
        omega
      have hcontent : content = content.take (blankLength content) ++ (text ++
          (spaces ++ '|' :: (gap ++ ((filters next).rest ++ trailing)))) := by
        rw [← heq, ← hrest, ← drop_blankLength, List.take_append_drop]
      refine ⟨⟨content.take (blankLength content), text, spaces, gap⟩, trailing,
        ⟨allBlank_take_blankLength content, heq ▸ hleads, fun d hd => ?_, hspaces, hgap'⟩, ?_, ?_, ?_,
        trimmed_filters next, htrailing⟩
      · refine head?_trimStart content d (head?_of_isPrefix ?_ d hd)
        rw [hrest, heq]
        exact ⟨gap ++ ((filters next).rest ++ trailing), by simp⟩
      · rw [Opening.written]
        simpa using hcontent
      · rw [hfilters, hstart, Opening.length_written, hblanks, List.length_cons, Nat.zero_add]
        dsimp only
        omega
      · rw [hspan, hblanks, Nat.zero_add]
        rfl

/-- A value in the middle of a text does not bring blanks to its ends. -/
theorem trimmed_around {lead value value' : List Char} (h : Trimmed (lead ++ (value ++ behind)))
    (hlead : lead ≠ []) (hvalue : Trimmed value') (hne : value' ≠ []) :
    Trimmed (lead ++ (value' ++ behind)) := by
  refine ⟨fun d hd => h.head d ?_, fun d hd => ?_⟩
  · rw [List.head?_append_of_ne_nil _ hlead] at hd ⊢
    exact hd
  · rw [← List.append_assoc] at hd
    by_cases hbehind : behind = []
    · rw [hbehind, List.append_nil, List.getLast?_append_of_ne_nil _ hne] at hd
      exact hvalue.last d hd
    · rw [List.getLast?_append_of_ne_nil _ hbehind] at hd
      refine h.last d ?_
      rw [← List.append_assoc, List.getLast?_append_of_ne_nil _ hbehind]
      exact hd

/-- A value that begins behind one text and ends before another one stands between them. -/
theorem exists_between {first value trailing : List Char}
    (h : before ++ (value ++ behind) = first ++ (text ++ trailing)) (hstart : first.length < before.length)
    (hend : before.length + value.length ≤ first.length + text.length) :
    ∃ lead tail, lead ≠ [] ∧ before = first ++ lead ∧ text = lead ++ (value ++ tail) ∧
      behind = tail ++ trailing := by
  obtain ⟨lead, rfl⟩ : ∃ lead, before = first ++ lead := by
    have hprefix := List.prefix_of_prefix_length_le (List.prefix_append first (text ++ trailing))
      (h ▸ List.prefix_append before (value ++ behind)) (Nat.le_of_lt hstart)
    exact hprefix.imp fun _ heq => heq.symm
  rw [List.append_assoc] at h
  have htext := List.append_cancel_left h
  obtain ⟨tail, rfl⟩ : ∃ tail, text = lead ++ (value ++ tail) := by
    have hlength : (lead ++ value).length ≤ text.length := by
      simp only [List.length_append] at hend ⊢
      omega
    have hbehind : lead ++ value ++ behind = text ++ trailing := by rw [List.append_assoc, htext]
    have hprefix := List.prefix_of_prefix_length_le (List.prefix_append (lead ++ value) behind)
      (hbehind ▸ List.prefix_append text trailing) hlength
    obtain ⟨tail, heq⟩ := hprefix
    exact ⟨tail, by rw [← heq, List.append_assoc]⟩
  refine ⟨lead, tail, ?_, rfl, rfl, by simpa using htext⟩
  rintro rfl
  simp at hstart

/-- **A chain around an argument** is read whatever the argument is, if it says where it ends. -/
theorem exists_read_around {value : List Char}
    (h : HasArgument (before ++ (value ++ behind)) ⟨kind, ⟨before.length, value.length⟩⟩) :
    ∃ (o : Operand) (s : Surroundings), o.StandsIn before ∧ s.Between before behind ∧
      ∀ kind value, Enclosed kind value →
        ∃ filters, read? (before ++ (value ++ behind)) 0 = .ok (some (o, filters)) ∧
          Cursor.readAll filterStep filters = s.readWith ⟨kind, ⟨before.length, value.length⟩⟩ := by
  obtain ⟨o, filters, hread, w, hw, hargument⟩ := h
  obtain ⟨_, _, _, -, hne, -⟩ := exists_first_of_mem hw
  obtain ⟨p, trailing, hopening, hcontent, hstart, hspan, htrimmed, htrailing⟩ :=
    exists_opening hread hne
  obtain ⟨start, text⟩ := filters
  dsimp only at hne hopening hcontent hstart htrimmed
  subst hstart
  have hbefore : p.written.length < before.length := start_lt_argument hw hargument
  have hend : before.length + value.length ≤ p.written.length + text.length := by
    have hsound := sound_filterStep.readAll (Cursor.reads_end p.written text)
    have hwithin : before.length + value.length ≤ (p.written ++ text).length :=
      ((hsound.words w hw).argument _ hargument).within
    rwa [List.length_append] at hwithin
  obtain ⟨lead, behind', hlead, rfl, rfl, rfl⟩ := exists_between hcontent hbefore hend
  have hplace : p.written.length + lead.length = (p.written ++ lead).length := by simp
  rw [← hplace] at hargument
  obtain ⟨s, hs, haround⟩ := exists_readUpTo_around (Cursor.reads_end p.written lead) hw hargument
  have ho : o = ⟨o.kind, ⟨p.blanks.length, p.value.length⟩⟩ := by rw [← hspan]
  refine ⟨o, s, ho ▸ hopening.standsIn lead, ⟨hs.earlier, hs.name, ?_⟩, fun kind value hkind => ?_⟩
  · exact hs.behind.trans (List.prefix_append behind' trailing)
  · have hread := (hopening.change _).read (trimmed_around htrimmed hlead hkind.trimmed hkind.ne_nil)
      (List.append_ne_nil_of_left_ne_nil hlead _) htrailing
    have htext : p.written ++ (lead ++ (value ++ behind') ++ trailing) =
        p.written ++ lead ++ (value ++ (behind' ++ trailing)) := by simp
    rw [htext, ← ho] at hread
    refine ⟨_, hread, ?_⟩
    rw [← hplace]
    exact haround kind value _ hkind (Nat.le_refl _)

/-- **An argument stays one** if another value that says where it ends takes its place. -/
theorem HasArgument.exchange {value value' : List Char} {kind' : OperandKind}
    (h : HasArgument (before ++ (value ++ behind)) ⟨kind, ⟨before.length, value.length⟩⟩)
    (hvalue : Enclosed kind' value') :
    HasArgument (before ++ (value' ++ behind)) ⟨kind', ⟨before.length, value'.length⟩⟩ := by
  obtain ⟨o, s, -, -, haround⟩ := exists_read_around h
  obtain ⟨filters, hread, hwords⟩ := haround kind' value' hvalue
  refine ⟨o, filters, hread, ⟨s.name, some ⟨kind', ⟨before.length, value'.length⟩⟩⟩, ?_, rfl⟩
  rw [hwords]
  exact List.mem_append_left _ (List.mem_append_right _ (List.mem_singleton.2 rfl))

end Chain

end Galley
