import Galley.Proofs.Literals

/-!
# Chains as they are written

A value with filters behind it is read back from its text: every filter has its own argument,
whatever bars, colons, quotes and blanks stand in the texts among the arguments.

* `Link`, `Link.written`, `Link.use`: a filter with its argument, its text, and what is made of it.
* `Link.filterWord_bare`, `Link.readAll_append`: one filter is read, and all of them are, whatever
  stands behind them.
* `Pipeline`, `Pipeline.written`, `Pipeline.expression`: a whole chain.
* `Reader.chain_append`: a chain and what stands behind it.
* `Reader.chain_written`: **the expression that is read** from the text of a chain.
-/

namespace Galley

open Text

variable {blanks text rest behind trailing : List Char} {start : Nat} {r : Reader}

/-! ## Filters -/

/-- The filter with a name: the one loaded last, else the one that is always there. -/
def Reader.known? (r : Reader) (name : String) : Option Filter :=
  match r.filters.lookup name with
  | some function => some (.loaded name function)
  | none => (BuiltinFilter.ofWord? name).map .builtin

/-- **A filter as it is meant,** with the blanks before and behind its bar. -/
structure Link where
  before : List Char
  behind : List Char
  name : String
  filter : Filter
  argument : Option Literal

namespace Link

/-- The text of an argument with its colon. -/
def argumentText (l : Link) : List Char :=
  match l.argument with
  | none => []
  | some a => ':' :: a.written

/-- The text of a filter from its name on. -/
def bare (l : Link) : List Char := l.name.toList ++ l.argumentText

/-- **The text of a filter.** -/
def written (l : Link) : List Char := l.before ++ '|' :: (l.behind ++ l.bare)

/-- The offset of the name of a filter whose text begins at an offset. -/
def nameStart (start : Nat) (l : Link) : Nat := start + l.before.length + 1 + l.behind.length

/-- The offset of an argument behind a name. -/
def argumentStart (place : Nat) (l : Link) : Nat := place + l.name.toList.length + 1

/-- The word for a filter whose name stands at a place. -/
def word (place : Nat) (l : Link) : FilterWord where
  name := ⟨place, l.name.toList.length⟩
  argument := l.argument.map (Literal.operand (l.argumentStart place))

/-- The words for filters one behind the other. -/
def words : Nat → List Link → List FilterWord
  | _, [] => []
  | start, l :: rest => l.word (l.nameStart start) :: words (start + l.written.length) rest

/-- **What is made of a filter** whose name stands at a place. -/
def use (r : Reader) (place : Nat) (l : Link) : FilterUse where
  span := ⟨place, l.name.toList.length⟩
  filter := l.filter
  argument := l.argument.map (Literal.atom r (l.argumentStart place))

/-- What is made of filters one behind the other. -/
def uses (r : Reader) : Nat → List Link → List FilterUse
  | _, [] => []
  | start, l :: rest => l.use r (l.nameStart start) :: uses r (start + l.written.length) rest

/-- **A filter whose text can be read,** whatever filters are known. -/
structure Spelled (l : Link) : Prop where
  before : allBlank l.before
  behind : allBlank l.behind
  name : isIdentifier l.name.toList
  unmarked : l.name.toList.head? ≠ some '_'
  argument : ∀ a ∈ l.argument, a.Proper

theorem words_append (start : Nat) (links more : List Link) :
    words start (links ++ more) =
      words start links ++ words (start + (links.flatMap written).length) more := by
  induction links generalizing start with
  | nil => rfl
  | cons l links ih =>
    rw [List.cons_append, words, ih, words, List.flatMap_cons, List.length_append, Nat.add_assoc,
      List.cons_append]

theorem uses_append (r : Reader) (start : Nat) (links more : List Link) :
    uses r start (links ++ more) =
      uses r start links ++ uses r (start + (links.flatMap written).length) more := by
  induction links generalizing start with
  | nil => rfl
  | cons l links ih =>
    rw [List.cons_append, uses, ih, uses, List.flatMap_cons, List.length_append, Nat.add_assoc,
      List.cons_append]

/-- **A filter that can be written:** it is known under its name, and has an argument if it takes
one. -/
structure Proper (r : Reader) (l : Link) : Prop where
  before : allBlank l.before
  behind : allBlank l.behind
  name : isIdentifier l.name.toList
  unmarked : l.name.toList.head? ≠ some '_'
  known : r.known? l.name = some l.filter
  argument : ∀ a ∈ l.argument, a.Proper
  required : l.filter.arity = .required → l.argument ≠ none
  forbidden : l.filter.arity = .forbidden → l.argument = none

theorem Proper.spelled {l : Link} (h : l.Proper r) : l.Spelled :=
  ⟨h.before, h.behind, h.name, h.unmarked, h.argument⟩

namespace Spelled

variable {l : Link}

theorem exists_name (h : l.Spelled) : ∃ first tail, l.name.toList = first :: tail ∧
    isNameStart first ∧ ∀ d ∈ l.name.toList, isNameChar d := by
  obtain ⟨hne, hall⟩ := of_isIdentifier h.name
  obtain ⟨first, tail, heq⟩ := List.exists_cons_of_ne_nil hne
  have hname := h.name
  have hmark := h.unmarked
  rw [heq] at hname hmark
  simp only [isIdentifier, Bool.and_eq_true, Bool.or_eq_true, beq_iff_eq] at hname
  refine ⟨first, tail, heq, hname.1.resolve_left fun hunderscore => hmark ?_, hall⟩
  rw [hunderscore]
  rfl

theorem bare_ne_nil (h : l.Spelled) : l.bare ≠ [] := by
  obtain ⟨first, tail, heq, -⟩ := h.exists_name
  rw [bare, heq]
  exact List.cons_ne_nil _ _

theorem head?_bare (h : l.Spelled) (rest : List Char) :
    ∀ d ∈ (l.bare ++ rest).head?, isBlank d = false := by
  obtain ⟨first, tail, heq, hstart, -⟩ := h.exists_name
  intro d hd
  rw [bare, heq] at hd
  cases hd
  exact not_isBlank_of_isNameChar (isNameChar_of_isNameStart hstart)

theorem getLast?_bare (h : l.Spelled) : ∀ d ∈ l.bare.getLast?, isBlank d = false := by
  obtain ⟨-, -, -, -, hall⟩ := h.exists_name
  intro d hd
  unfold bare argumentText at hd
  cases ha : l.argument with
  | none =>
    rw [ha, List.append_nil] at hd
    exact not_isBlank_of_isNameChar (hall d (List.mem_of_getLast? hd))
  | some a =>
    have hproper := h.argument a ha
    rw [ha, List.getLast?_append, List.getLast?_cons_of_ne_nil (Literal.written_ne_nil hproper),
      List.getLast?_eq_some_getLast (Literal.written_ne_nil hproper)] at hd
    refine (Literal.not_isBlank_written hproper).2 d ?_
    rwa [List.getLast?_eq_some_getLast (Literal.written_ne_nil hproper)]

end Spelled

/-- Behind a value, and behind a filter, the next bar or the end comes. -/
theorem ends_append {links : List Link} (h : ∀ l ∈ links, l.Spelled) (hends : Ends rest) :
    Ends (links.flatMap written ++ rest) := by
  cases links with
  | nil => exact hends
  | cons l links =>
    have hbar := Ends.bar (h l List.mem_cons_self).before
      (l.behind ++ l.bare ++ (links.flatMap written ++ rest))
    simpa [written] using hbar

end Link

/-- A known filter is found under its name. -/
theorem Reader.filter_of_known? {span : Span} {f : Filter} (h : r.known? (r.textAt span) = some f) :
    r.filter span = .ok f := by
  unfold known? at h
  unfold filter
  cases hloaded : r.filters.lookup (r.textAt span) with
  | some function =>
    rw [hloaded] at h
    cases h
    simp only [hloaded]
  | none =>
    rw [hloaded] at h
    obtain ⟨f, hword, rfl⟩ := Option.map_eq_some_iff.1 h
    simp only [hloaded, hword]

theorem Reader.checkArity_of {f : Filter} {name : Span} {argument : Option Atom}
    (hrequired : f.arity = .required → argument ≠ none)
    (hforbidden : f.arity = .forbidden → argument = none) :
    checkArity f name argument = .ok () := by
  unfold checkArity
  split
  · next harity => exact absurd rfl (hrequired harity)
  · next harity => cases hforbidden harity
  · rfl

/-- A filter is made, unless it has an argument too few or too many. -/
theorem Reader.filterUse_eq {word : FilterWord} {f : Filter} {argument : Option Atom}
    (hargument : word.argument.mapM r.atom = .ok argument) (hfilter : r.filter word.name = .ok f) :
    r.filterUse word = (do
      checkArity f word.name argument
      return ⟨word.name, f, argument⟩) := by
  unfold filterUse
  cases hword : word.argument with
  | none =>
    rw [hword] at hargument
    cases hargument
    simp only [bind, Except.bind, pure, Except.pure, hfilter]
  | some o =>
    rw [hword] at hargument
    obtain ⟨a, ha, rfl⟩ := map_eq_ok hargument
    simp only [Functor.map, Except.map, bind, Except.bind, ha, hfilter]

/-! ## Reading filters -/

theorem lengthBefore_bar (h : allBlank blanks) (behind : List Char) :
    lengthBefore '|' (blanks ++ '|' :: behind) = blanks.length :=
  lengthBefore_append_cons (not_mem_of_allBlank h (by decide)) behind

theorem length_lt_lengthBefore_colon (h : allBlank blanks) (behind : List Char) :
    blanks.length < lengthBefore ':' (blanks ++ '|' :: behind) := by
  have hpos : ∀ d ∈ blanks, (d != ':') = true := by
    intro d hd
    have : d ≠ ':' := fun heq => not_mem_of_allBlank h (by decide) (heq ▸ hd)
    simpa using this
  rw [lengthBefore, List.takeWhile_append_of_pos hpos, List.takeWhile_cons_of_pos (by decide)]
  simp

namespace Chain

/-- **No argument** is found where a filter ends, whatever comes behind the bar. -/
theorem argument_of_ends (h : Ends rest) (start : Nat) :
    argument ⟨start, rest⟩ = .ok (none, ⟨start, rest⟩) := by
  unfold argument
  cases h with
  | blank h =>
    rw [if_pos]
    simp [lengthBefore_of_not_mem (not_mem_of_allBlank h (by decide : isBlank ':' = false))]
  | bar h behind =>
    rw [if_pos]
    have hlt := length_lt_lengthBefore_colon h behind
    simp only [lengthBefore_bar h, Bool.or_eq_true, decide_eq_true_eq]
    exact .inr hlt

theorem separator_bar (h : allBlank blanks) (start : Nat) (behind : List Char) :
    separator ⟨start, blanks ++ '|' :: behind⟩ = .ok ⟨start + blanks.length + 1, behind⟩ := by
  have hmin : min (lengthBefore '|' (blanks ++ '|' :: behind))
      (lengthBefore ':' (blanks ++ '|' :: behind)) = blanks.length := by
    rw [lengthBefore_bar h]
    exact Nat.min_eq_left (Nat.le_of_lt (length_lt_lengthBefore_colon h behind))
  have hlength : min (blanks.length + 1) (blanks ++ '|' :: behind).length = blanks.length + 1 := by
    simp
  unfold separator
  simp only [hmin, hlength, List.take_left, h, if_true, Cursor.advance]
  rw [← List.drop_drop, List.drop_left, Nat.add_assoc]
  rfl

end Chain

namespace Link

variable {l : Link}

/-- **One filter is read** with its argument, if nothing else stands before its end. -/
theorem filterWord_bare (h : l.Spelled) (hblanks : allBlank blanks) (hends : Ends rest)
    (start : Nat) {next : Cursor}
    (hnext : Chain.separator ⟨start + blanks.length + l.bare.length, rest⟩ = .ok next) :
    Chain.filterWord ⟨start, blanks ++ (l.bare ++ rest)⟩ =
      .ok (l.word (start + blanks.length), next) := by
  obtain ⟨first, tail, hname, hstart, hall⟩ := h.exists_name
  have hblank : blankLength (blanks ++ (l.bare ++ rest)) = blanks.length := by
    rw [blankLength, takeWhile_ended (List.all_eq_true.1 hblanks)]
    exact h.head?_bare rest
  have hargument : ∀ d ∈ (l.argumentText ++ rest).head?, isNameChar d = false := by
    intro d hd
    unfold argumentText at hd
    cases ha : l.argument with
    | none =>
      rw [ha] at hd
      exact (of_isEnd (hends.isEnd_head? d hd)).1
    | some a =>
      rw [ha] at hd
      cases hd
      decide +kernel
  have htake : (l.bare ++ rest).takeWhile isNameChar = l.name.toList := by
    rw [bare, List.append_assoc, takeWhile_ended hall hargument]
  have hhead : (l.bare ++ rest).head?.any isNameStart := by
    rw [bare, hname]
    simpa using hstart
  have hdrop : (l.bare ++ rest).drop l.name.toList.length = l.argumentText ++ rest := by
    rw [bare, List.append_assoc, List.drop_left]
  have hread : Chain.argument
      ⟨start + blanks.length + l.name.toList.length, l.argumentText ++ rest⟩ =
        .ok ((l.word (start + blanks.length)).argument,
          ⟨start + blanks.length + l.bare.length, rest⟩) := by
    unfold argumentText word bare argumentText
    cases ha : l.argument with
    | none =>
      simp only [List.nil_append, List.append_nil, Chain.argument_of_ends hends]
      rfl
    | some a =>
      have hplace : start + blanks.length + l.name.toList.length + 1 + a.written.length =
          start + blanks.length + (l.name.toList ++ ':' :: a.written).length := by
        simp only [List.length_append, List.length_cons]
        omega
      have hread := Literal.argument_written (h.argument a ha) hends.isEnd_head?
        (start + blanks.length + l.name.toList.length)
      rw [hplace] at hread
      exact hread
  have hpos : l.name.toList.length ≠ 0 := by
    rw [hname]
    exact Nat.succ_ne_zero _
  unfold Chain.filterWord
  simp only [hblank, Cursor.advance, List.drop_left, htake, hpos, hhead, decide_false,
    Bool.not_true, Bool.or_self, Bool.false_eq_true, if_false, hdrop, hread]
  simp only [bind, Except.bind, hnext]
  rfl

theorem filterStep_bare (h : l.Spelled) (hblanks : allBlank blanks) (hends : Ends rest)
    (start : Nat) {next : Cursor}
    (hnext : Chain.separator ⟨start + blanks.length + l.bare.length, rest⟩ = .ok next) :
    Chain.filterStep ⟨start, blanks ++ (l.bare ++ rest)⟩ =
      some (.ok (l.word (start + blanks.length)), next) := by
  have hne : (blanks ++ (l.bare ++ rest)).isEmpty = false := by
    simp [h.bare_ne_nil]
  unfold Chain.filterStep Cursor.Step.ofRead
  rw [hne, if_neg Bool.false_ne_true, filterWord_bare h hblanks hends start hnext]

theorem length_written (l : Link) :
    l.written.length = l.before.length + 1 + l.behind.length + l.bare.length := by
  simp only [written, List.length_append, List.length_cons]
  omega

/-- The argument of a filter is made where it is written. -/
theorem mapM_atom_word (h : l.Spelled) (hreads : (⟨start, l.bare⟩ : Cursor).Reads r.source) :
    (l.word start).argument.mapM r.atom = .ok (l.use r start).argument := by
  obtain ⟨-, hargument⟩ := hreads.append
  unfold word use
  unfold argumentText at hargument
  cases ha : l.argument with
  | none => rfl
  | some a =>
    rw [ha] at hargument
    have hcolon : (⟨start + l.name.toList.length, [':'] ++ a.written⟩ : Cursor).Reads r.source :=
      hargument
    have hatom : r.atom (a.operand (l.argumentStart start)) =
        .ok (a.atom r (l.argumentStart start)) :=
      Reader.atom_written (h.argument a ha) hcolon.append.2
    simp [hatom]

/-- **What is made of a filter** where it is written. -/
theorem filterUse_word (h : l.Proper r) (hreads : (⟨start, l.bare⟩ : Cursor).Reads r.source) :
    r.filterUse (l.word start) = .ok (l.use r start) := by
  have htext : r.textAt ⟨start, l.name.toList.length⟩ = l.name := by
    rw [Reader.textAt, hreads.append.1.slice_eq, String.ofList_toList]
  have hfilter : r.filter (l.word start).name = .ok l.filter :=
    Reader.filter_of_known? (by rw [word, htext, h.known])
  have harity : Reader.checkArity l.filter (l.word start).name (l.use r start).argument = .ok () := by
    refine Reader.checkArity_of (fun hrequired => ?_) fun hforbidden => ?_
    · have := h.required hrequired
      simpa [use] using this
    · simp [use, h.forbidden hforbidden]
  rw [Reader.filterUse_eq (mapM_atom_word h.spelled hreads) hfilter, harity]
  rfl

theorem reads_bare {source : List Char} (hreads : (⟨start, l.written⟩ : Cursor).Reads source) :
    (⟨l.nameStart start, l.bare⟩ : Cursor).Reads source := by
  have hbar : (⟨start + l.before.length, ['|'] ++ (l.behind ++ l.bare)⟩ : Cursor).Reads source :=
    hreads.append.2
  exact hbar.append.2.append.2

theorem mapM_words {links : List Link} (h : ∀ l ∈ links, l.Proper r)
    (hreads : (⟨start, links.flatMap written⟩ : Cursor).Reads r.source) :
    (words start links).mapM r.filterUse = .ok (uses r start links) := by
  induction links generalizing start with
  | nil => rfl
  | cons l links ih =>
    obtain ⟨hl, hlinks⟩ := List.forall_mem_cons.1 h
    rw [List.flatMap_cons] at hreads
    obtain ⟨hfirst, hlater⟩ := hreads.append
    rw [words, List.mapM_cons, filterUse_word hl (reads_bare hfirst), ih hlinks hlater]
    rfl

end Link

/-! ## Whole chains -/

theorem trimStart_append (hblanks : allBlank blanks) (htext : ∀ d ∈ text.head?, isBlank d = false) :
    trimStart (blanks ++ text) = text := by
  rw [trimStart, List.dropWhile_append_of_pos (List.all_eq_true.1 hblanks)]
  cases text with
  | nil => rfl
  | cons d text => rw [List.dropWhile_cons_of_neg (by simp [htext d rfl])]

theorem trimEnd_append (htrailing : allBlank trailing)
    (htext : ∀ d ∈ text.getLast?, isBlank d = false) : trimEnd (text ++ trailing) = text := by
  have hreverse : trimStart (trailing.reverse ++ text.reverse) = text.reverse :=
    trimStart_append (by rwa [allBlank, List.all_reverse]) (by rwa [List.head?_reverse])
  rw [trimEnd, List.reverse_append]
  exact (congrArg List.reverse hreverse).trans (List.reverse_reverse text)

theorem head?_of_isPrefix (h : text <+: rest) : ∀ d ∈ text.head?, d ∈ rest.head? := by
  obtain ⟨more, rfl⟩ := h
  intro d hd
  rw [List.head?_append, Option.mem_def.1 hd]
  rfl

theorem head?_trimStart (text : List Char) : ∀ d ∈ (trimStart text).head?, isBlank d = false := by
  intro d hd
  have hnot := List.head?_dropWhile_not isBlank text
  rw [trimStart] at hd
  rw [Option.mem_def.1 hd] at hnot
  exact hnot

theorem getLast?_trimEnd (text : List Char) : ∀ d ∈ (trimEnd text).getLast?, isBlank d = false := by
  intro d hd
  rw [trimEnd, List.getLast?_reverse] at hd
  exact head?_trimStart text.reverse d hd

/-- A text falls into blanks at either end and what is left between them. -/
theorem exists_blanks (text : List Char) : ∃ leading core trailing, allBlank leading ∧
    allBlank trailing ∧ text = leading ++ (core ++ trailing) ∧
    (∀ d ∈ core.head?, isBlank d = false) ∧ (∀ d ∈ core.getLast?, isBlank d = false) ∧
    (core = [] → trailing = []) := by
  obtain ⟨trailing, htrailing, hstart⟩ := exists_trimEnd_append (trimStart text)
  have htext : text = text.take (blankLength text) ++ (trim text ++ trailing) := by
    rw [trim, ← hstart, ← drop_blankLength, List.take_append_drop]
  refine ⟨text.take (blankLength text), trim text, trailing, allBlank_take_blankLength text,
    htrailing, htext, fun d hd => ?_, getLast?_trimEnd _, fun hnil => ?_⟩
  · exact head?_trimStart text d (head?_of_isPrefix (trimEnd_prefix_self _) d hd)
  · rw [show trimEnd (trimStart text) = [] from hnil, List.nil_append] at hstart
    cases htext : trailing with
    | nil => rfl
    | cons c trailing =>
      have hfirst := head?_trimStart text c (by rw [hstart, htext]; rfl)
      rw [List.all_eq_true.1 htrailing c (by rw [htext]; exact List.mem_cons_self)] at hfirst
      cases hfirst

/-! ## The filters of a chain -/

/-- Words with others in front of them. -/
def Cursor.Words.after {α : Type} (earlier : List α) (w : Words α) : Words α :=
  { w with words := earlier ++ w.words }

theorem Cursor.Words.mapM_after {α β : Type} (earlier : List α) (w : Words α)
    (f : α → Except TemplateError β) :
    (w.after earlier).mapM f = (do
      let made ← earlier.mapM f
      (made ++ ·) <$> w.mapM f) := by
  simp only [mapM, after, List.mapM_append]
  cases earlier.mapM f with
  | error e => rfl
  | ok made =>
    cases w.words.mapM f with
    | error e => rfl
    | ok more => cases herror : w.error <;> rfl

namespace Chain

theorem filters_blank (h : allBlank rest) (start : Nat) :
    Cursor.readAll filterStep (filters ⟨start, rest⟩) = ⟨[], none⟩ := by
  have hnone := lengthBefore_of_not_mem (not_mem_of_allBlank h (by decide : isBlank '|' = false))
  simp only [filters, hnone, if_true]
  rfl

/-- Behind the first bar and the blanks behind it the filters are read. -/
theorem filters_bar (hblanks : allBlank blanks) (hbehind : allBlank behind)
    (htrailing : allBlank trailing) (hfirst : ∀ d ∈ text.head?, isBlank d = false)
    (hlast : ∀ d ∈ text.getLast?, isBlank d = false) (hnil : text = [] → trailing = [])
    (start : Nat) :
    filters ⟨start, blanks ++ '|' :: (behind ++ (text ++ trailing))⟩ =
      ⟨start + blanks.length + 1 + behind.length, text⟩ := by
  have hhead : ∀ d ∈ (text ++ trailing).head?, isBlank d = false := by
    cases text with
    | nil => rw [hnil rfl]; nofun
    | cons c text => exact hfirst
  have htrim : trim (behind ++ (text ++ trailing)) = text := by
    rw [trim, trimStart_append hbehind hhead, trimEnd_append htrailing hlast]
  have hblank : blankLength (behind ++ (text ++ trailing)) = behind.length := by
    rw [blankLength, takeWhile_ended (List.all_eq_true.1 hbehind) hhead]
  have hdrop : (blanks ++ '|' :: (behind ++ (text ++ trailing))).drop (blanks.length + 1) =
      behind ++ (text ++ trailing) := by
    rw [← List.drop_drop, List.drop_left]
    rfl
  have hne : blanks.length ≠ (blanks ++ '|' :: (behind ++ (text ++ trailing))).length := by
    rw [List.length_append, List.length_cons]
    omega
  simp only [filters, lengthBefore_bar hblanks, hne, if_false, Cursor.advance, hdrop, hblank, htrim,
    Nat.add_assoc]

/-- Blanks before a filter are passed over. -/
theorem filterWord_blanks (hblanks : allBlank blanks) (htext : ∀ d ∈ text.head?, isBlank d = false)
    (start : Nat) :
    filterWord ⟨start, blanks ++ text⟩ = filterWord ⟨start + blanks.length, text⟩ := by
  have hfirst : blankLength (blanks ++ text) = blanks.length := by
    rw [blankLength, takeWhile_ended (List.all_eq_true.1 hblanks) htext]
  have hnone : blankLength text = 0 := by
    rw [blankLength, ← List.nil_append text, takeWhile_ended (List.forall_mem_nil _) htext]
    rfl
  unfold filterWord
  simp only [hfirst, hnone, Cursor.advance, List.drop_left, List.drop_zero, Nat.add_zero]

theorem readUpTo_blanks {limit : Nat} (hblanks : allBlank blanks)
    (htext : ∀ d ∈ text.head?, isBlank d = false) (hne : text ≠ []) (start : Nat)
    (hlimit : (blanks ++ text).length ≤ limit) :
    Cursor.readUpTo filterStep limit ⟨start, blanks ++ text⟩ =
      Cursor.readAll filterStep ⟨start + blanks.length, text⟩ := by
  have hreads : (⟨start + blanks.length, text⟩ : Cursor).Reads
      (List.replicate (start + blanks.length) ' ' ++ text) :=
    ⟨by simp, by simp⟩
  rw [List.length_append] at hlimit
  have hpos := List.length_pos_iff.2 hne
  have hroom : text.length ≤ limit := by omega
  rw [Cursor.readAll, sound_filterStep.readUpTo_eq hreads (Nat.le_refl _) hroom]
  obtain ⟨limit, rfl⟩ : ∃ k, limit = k + 1 := ⟨limit - 1, by omega⟩
  have hfirst : (blanks ++ text).isEmpty = false := by simp [hne]
  have hsecond : text.isEmpty = false := by simp [hne]
  simp only [Cursor.readUpTo, filterStep, Cursor.Step.ofRead, filterWord_blanks hblanks htext, hfirst,
    hsecond, Bool.false_eq_true, if_false]
  cases filterWord ⟨start + blanks.length, text⟩ <;> rfl

end Chain

namespace Link

variable {links : List Link}

theorem readAll_bare {l : Link} {next : Cursor} (h : l.Spelled) (hends : Ends rest) (start : Nat)
    (hnext : Chain.separator ⟨start + l.bare.length, rest⟩ = .ok next) :
    Cursor.readAll Chain.filterStep ⟨start, l.bare ++ rest⟩ =
      (Cursor.readUpTo Chain.filterStep ((l.bare ++ rest).length - 1) next).after
        [l.word start] := by
  have hpos := List.length_pos_iff.2 h.bare_ne_nil
  obtain ⟨limit, hlimit⟩ : ∃ k, (l.bare ++ rest).length = k + 1 :=
    ⟨(l.bare ++ rest).length - 1, by rw [List.length_append]; omega⟩
  have hstep := filterStep_bare h (show allBlank [] from rfl) hends start hnext
  rw [List.nil_append] at hstep
  rw [Cursor.readAll, hlimit, Cursor.readUpTo, hstep]
  rfl

/-- **A filter and what stands behind it** are read one after the other. -/
theorem readAll_cons {l : Link} (h : l.Spelled) (hends : Ends rest) (start : Nat) :
    Cursor.readAll Chain.filterStep (Chain.filters ⟨start, l.written ++ rest⟩) =
      (Cursor.readAll Chain.filterStep
        (Chain.filters ⟨start + l.written.length, rest⟩)).after [l.word (l.nameStart start)] := by
  have hplace : l.nameStart start + l.bare.length = start + l.written.length := by
    rw [l.length_written, nameStart]
    omega
  have hne : ∀ more, l.bare ++ more ≠ [] := fun more hnil =>
    h.bare_ne_nil (List.append_eq_nil_iff.1 hnil).1
  cases hends with
  | blank hblank =>
    have hsplit : l.written ++ rest = l.before ++ '|' :: (l.behind ++ (l.bare ++ rest)) := by
      simp [written]
    have hfirst := h.head?_bare []
    rw [List.append_nil] at hfirst
    have hend : Chain.separator ⟨l.nameStart start + l.bare.length, []⟩ =
        .ok ⟨l.nameStart start + l.bare.length, []⟩ := rfl
    have hread := readAll_bare h (.blank rfl) (l.nameStart start) hend
    rw [List.append_nil] at hread
    rw [hsplit, Chain.filters_bar h.before h.behind hblank hfirst h.getLast?_bare
      (fun hnil => absurd hnil h.bare_ne_nil), Chain.filters_blank hblank]
    refine hread.trans ?_
    cases l.bare.length - 1 <;> rfl
  | @bar blanks hblanks behind =>
    obtain ⟨leading, core, trailing, hleading, htrailing, rfl, hhead, hlast, hnil⟩ :=
      exists_blanks behind
    rw [Chain.filters_bar hblanks hleading htrailing hhead hlast hnil, ← hplace]
    by_cases hcore : core = []
    · -- only blanks stand behind the bar, and nothing is left to read there
      have hsplit : l.written ++ (blanks ++ '|' :: (leading ++ (core ++ trailing))) =
          l.before ++ '|' :: (l.behind ++ (l.bare ++ (blanks ++ '|' :: []) ++ leading)) := by
        simp [written, hcore, hnil hcore]
      have hbar : ∀ d ∈ (l.bare ++ (blanks ++ '|' :: [])).getLast?, isBlank d = false := by
        rw [← List.append_assoc, List.getLast?_concat]
        rintro _ ⟨⟩
        decide
      have hread := readAll_bare h (.bar hblanks []) (l.nameStart start)
        (Chain.separator_bar hblanks _ [])
      rw [hsplit, Chain.filters_bar h.before h.behind hleading (h.head?_bare _) hbar
        (fun hempty => absurd hempty (hne _)), hcore]
      refine hread.trans ?_
      cases (l.bare ++ (blanks ++ '|' :: [])).length - 1 <;> rfl
    · have hsplit : l.written ++ (blanks ++ '|' :: (leading ++ (core ++ trailing))) =
          l.before ++ '|' :: (l.behind ++ (l.bare ++ (blanks ++ '|' :: (leading ++ core)) ++
            trailing)) := by
        simp [written]
      have hlast' : ∀ d ∈ (l.bare ++ (blanks ++ '|' :: (leading ++ core))).getLast?,
          isBlank d = false := by
        rw [← List.append_assoc, ← List.singleton_append, ← List.append_assoc, ← List.append_assoc,
          List.getLast?_append_of_ne_nil _ hcore]
        exact hlast
      have hread := readAll_bare h (.bar hblanks (leading ++ core)) (l.nameStart start)
        (Chain.separator_bar hblanks _ _)
      rw [hsplit, Chain.filters_bar h.before h.behind htrailing (h.head?_bare _) hlast'
        (fun hempty => absurd hempty (hne _))]
      refine hread.trans ?_
      rw [Chain.readUpTo_blanks hleading hhead hcore]
      simp only [List.length_append, List.length_cons]
      have := List.length_pos_iff.2 h.bare_ne_nil
      omega

theorem readAll_append (h : ∀ l ∈ links, l.Spelled) (hends : Ends rest) (start : Nat) :
    Cursor.readAll Chain.filterStep (Chain.filters ⟨start, links.flatMap written ++ rest⟩) =
      (Cursor.readAll Chain.filterStep (Chain.filters
        ⟨start + (links.flatMap written).length, rest⟩)).after (words start links) := by
  induction links generalizing start with
  | nil => rfl
  | cons l links ih =>
    obtain ⟨hl, hlinks⟩ := List.forall_mem_cons.1 h
    rw [List.flatMap_cons, List.append_assoc, readAll_cons hl, ih hlinks, List.length_append,
      Nat.add_assoc]
    · rfl
    · exact ends_append hlinks hends

/-- The filters are read from behind the first bar. -/
theorem readAll_spelled (h : ∀ l ∈ links, l.Spelled) (htrailing : allBlank trailing)
    (start : Nat) :
    Cursor.readAll Chain.filterStep (Chain.filters ⟨start, links.flatMap written ++ trailing⟩) =
      ⟨words start links, none⟩ := by
  rw [readAll_append h (.blank htrailing), Chain.filters_blank htrailing, Cursor.Words.after,
    List.append_nil]

theorem readAll_filters (h : ∀ l ∈ links, l.Proper r) (htrailing : allBlank trailing)
    (start : Nat) :
    Cursor.readAll Chain.filterStep (Chain.filters ⟨start, links.flatMap written ++ trailing⟩) =
      ⟨words start links, none⟩ :=
  readAll_spelled (fun l hl => (h l hl).spelled) htrailing start

end Link

/-- **A chain as it is meant:** a value and filters, with the blanks around them. -/
structure Pipeline where
  leading : List Char
  head : Literal
  links : List Link
  trailing : List Char

namespace Pipeline

/-- **The text of a chain.** -/
def written (p : Pipeline) : List Char :=
  p.leading ++ (p.head.written ++ (p.links.flatMap Link.written ++ p.trailing))

/-- The offset of the first filter of a chain whose text begins at an offset. -/
def linksStart (start : Nat) (p : Pipeline) : Nat :=
  start + p.leading.length + p.head.written.length

/-- **The expression that a chain is,** written at an offset. -/
def expression (r : Reader) (start : Nat) (p : Pipeline) : Expression where
  head := p.head.atom r (start + p.leading.length)
  filters := Link.uses r (p.linksStart start) p.links

/-- A chain whose text can be read. -/
structure Spelled (p : Pipeline) : Prop where
  leading : allBlank p.leading
  head : p.head.Proper
  links : ∀ l ∈ p.links, l.Spelled
  trailing : allBlank p.trailing

/-- A chain that can be written. -/
structure Proper (r : Reader) (p : Pipeline) : Prop where
  leading : allBlank p.leading
  head : p.head.Proper
  links : ∀ l ∈ p.links, l.Proper r
  trailing : allBlank p.trailing

theorem Proper.spelled {p : Pipeline} (h : p.Proper r) : p.Spelled :=
  ⟨h.leading, h.head, fun l hl => (h.links l hl).spelled, h.trailing⟩

end Pipeline

theorem Chain.checkGap_of_ends (h : Ends rest) (o : Operand) (start : Nat) :
    checkGap o ⟨start, rest⟩ = .ok () := by
  have hblank : allBlank (rest.take (lengthBefore '|' rest)) := by
    cases h with
    | blank h =>
      rw [lengthBefore_of_not_mem (not_mem_of_allBlank h (by decide)), List.take_length]
      exact h
    | bar h behind =>
      rw [lengthBefore_bar h, List.take_left]
      exact h
  rw [checkGap, if_pos hblank]

/-- **A value is read** in front of the filters. -/
theorem Chain.read?_literal {leading : List Char} {l : Literal} (hleading : allBlank leading)
    (hl : l.Proper) (hends : Ends rest) (start : Nat) :
    read? (leading ++ (l.written ++ rest)) start =
      .ok (some (l.operand (start + leading.length),
        filters ⟨start + leading.length + l.written.length, rest⟩)) := by
  have hne := Literal.written_ne_nil hl
  have htrim : trimStart (leading ++ (l.written ++ rest)) = l.written ++ rest := by
    refine trimStart_append hleading ?_
    rw [List.head?_append, List.head?_eq_some_head hne, Option.some_or, ← List.head?_eq_some_head hne]
    exact (Literal.not_isBlank_written hl).1
  have hempty : (l.written ++ rest).isEmpty = false := by simp [hne]
  have hlength : (leading ++ (l.written ++ rest)).length - (l.written ++ rest).length =
      leading.length := by
    rw [List.length_append, Nat.add_sub_cancel]
  have hhead := Literal.head_written hl hends.isEnd_head? (start + leading.length)
  unfold read?
  simp only [htrim, hempty, Bool.false_eq_true, if_false, hlength, hhead]
  simp only [bind, Except.bind, checkGap_of_ends hends]
  rfl

theorem Pipeline.read?_spelled {p : Pipeline} (h : p.Spelled) (start : Nat) :
    Chain.read? p.written start = .ok (some (p.head.operand (start + p.leading.length),
      Chain.filters ⟨p.linksStart start, p.links.flatMap Link.written ++ p.trailing⟩)) :=
  Chain.read?_literal h.leading h.head (Link.ends_append h.links (.blank h.trailing)) start

theorem Pipeline.read?_written {p : Pipeline} (h : p.Proper r) (start : Nat) :
    Chain.read? p.written start = .ok (some (p.head.operand (start + p.leading.length),
      Chain.filters ⟨p.linksStart start, p.links.flatMap Link.written ++ p.trailing⟩)) :=
  read?_spelled h.spelled start

/-- A chain is made of its value and of its filters. -/
theorem Reader.chain_of_read {content : List Char} {o : Operand} {c : Cursor} {a : Atom}
    (hread : Chain.read? content start = .ok (some (o, c))) (hatom : r.atom o = .ok a)
    (whole : Span) :
    r.chain content whole start =
      (⟨a, ·⟩) <$> (Cursor.readAll Chain.filterStep c).mapM r.filterUse := by
  unfold chain
  rw [hread]
  simp only [bind, Except.bind, hatom]
  rfl

/-- **A chain and what stands behind it:** the filters that are read there follow its own. -/
theorem Reader.chain_append {p : Pipeline} (h : p.Proper r) (htrailing : p.trailing = [])
    (hends : Ends rest) (whole : Span) (hreads : (⟨start, p.written⟩ : Cursor).Reads r.source) :
    r.chain (p.written ++ rest) whole start =
      (fun later => ⟨(p.expression r start).head, (p.expression r start).filters ++ later⟩) <$>
        (Cursor.readAll Chain.filterStep
          (Chain.filters ⟨start + p.written.length, rest⟩)).mapM r.filterUse := by
  have hspelled : ∀ l ∈ p.links, l.Spelled := fun l hl => (h.links l hl).spelled
  obtain ⟨hfirst, hlater⟩ := hreads.append.2.append
  have hwritten : p.written ++ rest =
      p.leading ++ (p.head.written ++ (p.links.flatMap Link.written ++ rest)) := by
    simp [Pipeline.written, htrailing]
  have hlength : start + p.written.length =
      p.linksStart start + (p.links.flatMap Link.written).length := by
    simp only [Pipeline.written, htrailing, List.append_nil, List.length_append, Pipeline.linksStart]
    omega
  have hread := Chain.read?_literal h.leading h.head (Link.ends_append hspelled hends) start
  rw [hwritten, hlength, Reader.chain_of_read hread (Reader.atom_written h.head hfirst),
    Link.readAll_append hspelled hends, Cursor.Words.mapM_after,
    Link.mapM_words h.links hlater.append.1]
  simp only [bind, Except.bind]
  rw [← comp_map]
  rfl

/-- **A chain is read back** from its text. -/
theorem Reader.chain_written {p : Pipeline} (h : p.Proper r) (whole : Span)
    (hreads : (⟨start, p.written⟩ : Cursor).Reads r.source) :
    r.chain p.written whole start = .ok (p.expression r start) := by
  obtain ⟨hhead, hlinks⟩ := hreads.append.2.append
  have hatom := Reader.atom_written h.head hhead
  have hwords := Link.mapM_words h.links hlinks.append.1
  have huses : (Cursor.readAll Chain.filterStep (Chain.filters
      ⟨p.linksStart start, p.links.flatMap Link.written ++ p.trailing⟩)).mapM r.filterUse =
        .ok (Link.uses r (p.linksStart start) p.links) := by
    rw [Link.readAll_filters h.links h.trailing, Cursor.Words.mapM]
    simp only [bind, Except.bind]
    rw [Pipeline.linksStart, hwords]
    rfl
  unfold chain
  rw [Pipeline.read?_written h]
  simp only [bind, Except.bind, hatom, huses]
  rfl

/-- A path with two filters, and a bar, a colon and a quote in the argument of the first. -/
def greeting : Pipeline where
  leading := [' ']
  head := .path "user" ["name"]
  links :=
    [⟨[' '], [' '], "default", .builtin .default, some (.text '"' "a|b:\"c\" ")⟩,
      ⟨[], [], "add", .builtin .add, some (.integer (-7))⟩,
      ⟨[' '], [], "upper", .builtin .upper, none⟩]
  trailing := [' ']

example : greeting.written =
    " user.name | default:\"a|b:\\\"c\\\" \"|add:-7 |upper ".toList := by
  decide +kernel

theorem chain_written_greeting :
    greeting.Proper ⟨greeting.written, [], 0⟩ ∧
      (⟨0, greeting.written⟩ : Cursor).Reads greeting.written ∧
      Reader.chain ⟨greeting.written, [], 0⟩ greeting.written ⟨0, 0⟩ 0 =
        .ok (greeting.expression ⟨greeting.written, [], 0⟩ 0) := by
  have hdefault : Link.Proper ⟨greeting.written, [], 0⟩
      ⟨[' '], [' '], "default", .builtin .default, some (.text '"' "a|b:\"c\" ")⟩ :=
    ⟨rfl, rfl, by decide +kernel, by decide, rfl, by rintro _ ⟨⟩; rfl, nofun, nofun⟩
  have hadd : Link.Proper ⟨greeting.written, [], 0⟩
      ⟨[], [], "add", .builtin .add, some (.integer (-7))⟩ := by
    refine ⟨rfl, rfl, by decide +kernel, by decide, rfl, ?_, nofun, nofun⟩
    rintro _ ⟨⟩
    exact (by decide +kernel : Integer.hasText (-7))
  have hupper : Link.Proper ⟨greeting.written, [], 0⟩
      ⟨[' '], [], "upper", .builtin .upper, none⟩ :=
    ⟨rfl, rfl, by decide +kernel, by decide, rfl, nofun, nofun, fun _ => rfl⟩
  have hproper : greeting.Proper ⟨greeting.written, [], 0⟩ := by
    refine ⟨rfl, ⟨by decide +kernel, ?_, ?_⟩, ?_, rfl⟩
    · decide +kernel
    · rintro _ ⟨⟩
      rfl
    · exact List.forall_mem_cons.2 ⟨hdefault, List.forall_mem_cons.2 ⟨hadd,
        List.forall_mem_cons.2 ⟨hupper, List.forall_mem_nil _⟩⟩⟩
  have hreads : (⟨0, greeting.written⟩ : Cursor).Reads greeting.written :=
    ⟨Nat.zero_le _, List.prefix_rfl⟩
  exact ⟨hproper, hreads, Reader.chain_written hproper ⟨0, 0⟩ hreads⟩

end Galley
