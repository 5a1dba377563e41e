import Galley.Proofs.Placeless
import Galley.Proofs.Surroundings
import Galley.Template
import Mathlib

/-!
# Literals that are to be translated

Where the catalogue changes no message, a literal that is to be translated is the literal: as the value
of a chain and as the argument of a filter. That holds of every text without a percent sign, which a
message has twice, and without a carriage return, which a message does not have.

* `translate_eq_self_iff`: **the texts that are their own translation.**
* `Alike`: two outcomes that are errors both, or related values.
* `Reader.alike_chain_head`, `Reader.alike_chain_argument`: a chain with either literal as its value, and
  with either one as an argument.
* `Compiler.rendersAlike_translated`: **what is rendered.**
-/

namespace Galley

open Text

variable {α β γ δ : Type} {content content' before behind : List Char} {n n' : Nat} {o : Operand}

/-! ## Texts that are their own translation -/

section Messages

variable {text : List Char}

/-- Behind its carriage returns a text has line feeds only. -/
theorem not_mem_plainLineEnds (text : List Char) : '\r' ∉ plainLineEnds text := by
  fun_induction plainLineEnds text with
  | case1 => nofun
  | case2 => decide
  | case3 c rest ih ih' =>
    rw [List.mem_cons, not_or]
    refine ⟨by decide, ?_⟩
    split
    · exact ih
    · exact ih'
  | case4 c rest hlast hpair ih =>
    rw [List.mem_cons, not_or]
    refine ⟨?_, ih⟩
    rintro rfl
    cases rest with
    | nil => exact hlast rfl rfl
    | cons d rest => exact hpair d rest rfl rfl

theorem plainLineEnds_of_not_mem (h : '\r' ∉ text) : plainLineEnds text = text := by
  induction text with
  | nil => rfl
  | cons c text ih =>
    obtain ⟨hc, htext⟩ := not_or.1 (mt List.mem_cons.2 h)
    rw [plainLineEnds, ih htext]
    · rintro rfl
      exact absurd rfl hc
    · rintro d rest rfl
      exact absurd rfl hc

/-- A message with every percent sign twice. -/
def doubled (text : List Char) : List Char := text.flatMap fun c => if c = '%' then [c, c] else [c]

theorem length_doubled (text : List Char) :
    (doubled text).length = text.length + text.count '%' := by
  induction text with
  | nil => rfl
  | cons c text ih =>
    rw [doubled, List.flatMap_cons, List.length_append, ← doubled, ih, List.count_cons]
    by_cases hc : c = '%' <;> simp [hc] <;> omega

theorem doubled_of_not_mem (h : '%' ∉ text) : doubled text = text := by
  induction text with
  | nil => rfl
  | cons c text ih =>
    obtain ⟨hc, htext⟩ := not_or.1 (mt List.mem_cons.2 h)
    rw [doubled, List.flatMap_cons, if_neg (Ne.symm hc), ← doubled, ih htext]
    rfl

theorem mem_doubled (c : Char) (text : List Char) : c ∈ doubled text ↔ c ∈ text := by
  rw [doubled, List.mem_flatMap]
  constructor
  · rintro ⟨d, hd, hc⟩
    split at hc <;> simp_all
  · intro hc
    refine ⟨c, hc, ?_⟩
    split <;> simp

/-- **The texts that are their own translation** have neither a percent sign nor a carriage return. -/
theorem translate_eq_self_iff (s : String) :
    translate s = s ↔ '%' ∉ s.toList ∧ '\r' ∉ s.toList := by
  have htranslate : translate s = String.ofList (plainLineEnds (doubled s.toList)) := rfl
  rw [htranslate]
  constructor
  · intro h
    have hlist : plainLineEnds (doubled s.toList) = s.toList := by
      rw [← String.toList_ofList (l := plainLineEnds (doubled s.toList)), h]
    have hreturn : '\r' ∉ s.toList := hlist ▸ not_mem_plainLineEnds _
    rw [plainLineEnds_of_not_mem (mt (mem_doubled _ _).1 hreturn)] at hlist
    have hlength := congrArg List.length hlist
    rw [length_doubled] at hlength
    exact ⟨List.count_eq_zero.1 (by omega), hreturn⟩
  · rintro ⟨hpercent, hreturn⟩
    rw [doubled_of_not_mem hpercent, plainLineEnds_of_not_mem hreturn, String.ofList_toList]

end Messages

/-! ## Outcomes -/

/-- **Two outcomes that are alike**: errors both, or related values. -/
inductive Alike (R : α → β → Prop) : Except TemplateError α → Except TemplateError β → Prop
  | ok {a : α} {b : β} (h : R a b) : Alike R (.ok a) (.ok b)
  | error (e e' : TemplateError) : Alike R (.error e) (.error e')

namespace Alike

variable {R : α → β → Prop} {S : γ → δ → Prop} {x : Except TemplateError α} {y : Except TemplateError β}

theorem bind {f : α → Except TemplateError γ} {g : β → Except TemplateError δ} (h : Alike R x y)
    (hnext : ∀ a b, R a b → Alike S (f a) (g b)) : Alike S (x >>= f) (y >>= g) := by
  cases h with
  | ok h => exact hnext _ _ h
  | error e e' => exact .error e e'

theorem map {f : α → γ} {g : β → δ} (h : Alike R x y) (hmap : ∀ a b, R a b → S (f a) (g b)) :
    Alike S (x.map f) (y.map g) := h.bind fun a b hab => .ok (hmap a b hab)

/-- What is alike is alike where it moves to. -/
theorem moves {move : α → γ} {move' : β → δ} {x' : Except TemplateError γ} {y' : Except TemplateError δ}
    (h : Alike R x y) (hx : Moves move x x') (hy : Moves move' y y')
    (hmove : ∀ a b, R a b → S (move a) (move' b)) : Alike S x' y' := by
  cases h with
  | @ok a b h =>
    rw [hx.of_ok rfl, hy.of_ok rfl]
    exact .ok (hmove a b h)
  | error e e' =>
    cases x' with
    | ok a => cases hx
    | error e =>
      cases y' with
      | ok b => cases hy
      | error e' => exact .error e e'

theorem refl (z : Except TemplateError γ) : Alike Eq z z := by
  cases z with
  | ok c => exact .ok rfl
  | error e => exact .error e e

/-- What moves to two places is alike there. -/
theorem of_moves {move : γ → α} {move' : γ → β} {z : Except TemplateError γ} (h : Moves move z x)
    (h' : Moves move' z y) (hmove : ∀ c, R (move c) (move' c)) : Alike R x y :=
  (refl z).moves h h' fun c _ heq => heq ▸ hmove c

end Alike

/-! ## Places -/

theorem Atom.unplaced_shift (n : Nat) (a : Atom) : (a.shift n).unplaced = a.unplaced := by
  cases a <;> rfl

theorem Atom.likewise_shift (n n' : Nat) (a : Atom) : (a.shift n).Likewise (a.shift n') :=
  .same (by rw [unplaced_shift, unplaced_shift])

theorem Atom.Likewise.shift {a b : Atom} (h : a.Likewise b) (n n' : Nat) :
    (a.shift n).Likewise (b.shift n') := by
  cases h with
  | same h => exact .same (by rw [unplaced_shift, unplaced_shift, h])
  | translated span span' h => exact .translated _ _ h

theorem FilterUse.Likewise.shift {u w : FilterUse} (h : u.Likewise w) (n n' : Nat) :
    (u.shift n).Likewise (w.shift n') := by
  refine ⟨h.filter, ?_⟩
  obtain ⟨span, filter, argument⟩ := u
  obtain ⟨span', filter', argument'⟩ := w
  have hargument : Option.Rel Atom.Likewise argument argument' := h.argument
  cases hargument with
  | none => exact .none
  | some hatom => exact .some (hatom.shift n n')

theorem FilterUse.likewise_shift (n n' : Nat) (u : FilterUse) : (u.shift n).Likewise (u.shift n') := by
  obtain ⟨span, filter, argument⟩ := u
  refine ⟨rfl, ?_⟩
  cases argument with
  | none => exact .none
  | some a => exact .some (a.likewise_shift n n')

theorem FilterUse.forall₂_shift (n n' : Nat) (uses : List FilterUse) :
    List.Forall₂ FilterUse.Likewise (uses.map (FilterUse.shift n)) (uses.map (FilterUse.shift n')) := by
  rw [List.forall₂_map_left_iff, List.forall₂_map_right_iff, List.forall₂_same]
  exact fun u _ => u.likewise_shift n n'

theorem Expression.Likewise.shift {e e' : Expression} (h : e.Likewise e') (n n' : Nat) :
    (e.shift n).Likewise (e'.shift n') := by
  refine ⟨h.head.shift n n', ?_⟩
  rw [Expression.shift, Expression.shift, List.forall₂_map_left_iff, List.forall₂_map_right_iff]
  exact h.filters.imp fun _ _ hu => hu.shift n n'

@[simp] theorem Span.shift_zero (s : Span) : s.shift 0 = s := by
  simp only [shift, Nat.zero_add]

@[simp] theorem Operand.shift_zero (o : Operand) : o.shift 0 = o := by
  simp only [shift, Span.shift_zero]

@[simp] theorem FilterWord.shift_zero (w : FilterWord) : w.shift 0 = w := by
  obtain ⟨name, argument⟩ := w
  cases argument <;> simp [shift]

theorem standsAt_middle (before text behind : List Char) :
    StandsAt text before.length (before ++ (text ++ behind)) :=
  (Cursor.reads_middle before text behind).slice_eq

theorem standsAt_start (before behind : List Char) : StandsAt before 0 (before ++ behind) :=
  standsAt_middle [] before behind

namespace Reader

variable (r : Reader)

/-- **An atom** does not depend on what stands behind it. -/
theorem alike_atom (ho : o.StandsIn before) (behind behind' : List Char) :
    Alike Atom.Likewise ((r.on (before ++ behind)).atom o) ((r.on (before ++ behind')).atom o) := by
  have h := r.moves_atom (standsAt_start before behind) ho
  have h' := r.moves_atom (standsAt_start before behind') ho
  rw [Operand.shift_zero] at h h'
  exact .of_moves h h' fun a => a.likewise_shift 0 0

/-- **Filters** do not depend on what stands behind them. -/
theorem alike_filterUses {words : List FilterWord} (hw : ∀ w ∈ words, w.StandsIn before)
    (behind behind' : List Char) :
    Alike (List.Forall₂ FilterUse.Likewise) (words.mapM (r.on (before ++ behind)).filterUse)
      (words.mapM (r.on (before ++ behind')).filterUse) := by
  have hmoves (behind : List Char) : Moves (List.map (FilterUse.shift 0))
      (words.mapM (r.on before).filterUse) (words.mapM (r.on (before ++ behind)).filterUse) := by
    have h := Moves.mapM fun w hmem => r.moves_filterUse (standsAt_start before behind) (hw w hmem)
    rwa [List.map_id'' FilterWord.shift_zero] at h
  exact .of_moves (hmoves behind) (hmoves behind') fun uses => FilterUse.forall₂_shift 0 0 uses

/-- **Filters behind all else** do not depend on where they stand. -/
theorem alike_readAll {text : List Char} {c : Cursor} (hc : c.Reads text) (h : StandsAt text n content)
    (h' : StandsAt text n' content') :
    Alike (List.Forall₂ FilterUse.Likewise)
      ((Cursor.readAll Chain.filterStep (c.shift n)).mapM (r.on content).filterUse)
      ((Cursor.readAll Chain.filterStep (c.shift n')).mapM (r.on content').filterUse) := by
  have hwords := Chain.sound_filterStep.readAll hc
  have hmoves {n : Nat} {content : List Char} (h : StandsAt text n content) :
      Moves (List.map (FilterUse.shift n))
        ((Cursor.readAll Chain.filterStep c).mapM (r.on text).filterUse)
        ((Cursor.readAll Chain.filterStep (c.shift n)).mapM (r.on content).filterUse) := by
    obtain ⟨hshift, herror⟩ := Chain.readAll_shift n c
    exact moves_mapM_words hshift herror fun w hw => r.moves_filterUse h (hwords.words w hw)
  exact .of_moves (hmoves h) (hmoves h') fun uses => FilterUse.forall₂_shift n n' uses

/-- Chains whose values and whose filters are alike. -/
theorem alike_chain {r r' : Reader} {c c' : Cursor} {o o' : Operand} {start start' : Nat}
    (hread : Chain.read? content start = .ok (some (o, c)))
    (hread' : Chain.read? content' start' = .ok (some (o', c')))
    (hhead : Alike Atom.Likewise (r.atom o) (r'.atom o'))
    (huses : Alike (List.Forall₂ FilterUse.Likewise)
      ((Cursor.readAll Chain.filterStep c).mapM r.filterUse)
      ((Cursor.readAll Chain.filterStep c').mapM r'.filterUse)) (whole whole' : Span) :
    Alike Expression.Likewise (r.chain content whole start) (r'.chain content' whole' start') := by
  unfold chain
  rw [hread, hread']
  exact hhead.bind fun a b hab => huses.bind fun uses uses' h => .ok ⟨hab, h⟩

end Reader

/-! ## String literals -/

/-- **A string literal**, with either kind of quote. -/
structure StringLiteral where
  quote : Char
  body : List Char
  isQuote : Cursor.isQuote quote
  encloses : Encloses quote body

namespace StringLiteral

variable (l : StringLiteral) {r : Reader} {start : Nat}

/-- The literal as it stands in a template. -/
def written : List Char := l.quote :: (l.body ++ [l.quote])

/-- The text that it is read as. -/
def text : String := String.ofList (decoded l.quote l.body)

/-- The word for the literal at a place. -/
def operand (start : Nat) : Operand := ⟨.text, ⟨start, l.written.length⟩⟩

/-- The word for the literal at a place if it is to be translated. -/
def called (start : Nat) : Operand := ⟨.translated, ⟨start, (call l.written).length⟩⟩

theorem isQuoted : IsQuoted l.written :=
  ⟨l.quote, l.body, l.isQuote,
    literalBody_of_encloses (ne_backslash_of_isQuote l.isQuote) l.encloses, rfl⟩

theorem literalText_written : literalText l.written = .ok l.text :=
  literalText_literalBody l.isQuote
    (literalBody_of_encloses (ne_backslash_of_isQuote l.isQuote) l.encloses)

variable {l}

theorem atom_operand (h : (⟨start, l.written⟩ : Cursor).Reads r.source) :
    r.atom (l.operand start) = .ok (.text (l.operand start).inner l.text) := by
  have hslice := h.slice_eq
  simp only [Reader.atom, operand, hslice, literalText_written]
  rfl

theorem atom_called (h : (⟨start, call l.written⟩ : Cursor).Reads r.source) :
    r.atom (l.called start) = .ok (.translated (l.called start).inner l.text) := by
  have hlength : (call l.written).length = l.written.length + 3 := by simp [call]
  have hsplit : (⟨start, ['_', '('] ++ (l.written ++ [')'])⟩ : Cursor).Reads r.source := h
  have hslice : Span.slice ⟨start + 2, l.written.length⟩ r.source = l.written :=
    hsplit.append.2.append.1.slice_eq
  simp only [Reader.atom, called, hlength, Nat.add_sub_cancel, hslice, literalText_written]
  rfl

end StringLiteral

/-- What is made of the filters around an argument. -/
theorem Surroundings.mapM_readWith (s : Surroundings) (o : Operand)
    (f : FilterWord → Except TemplateError FilterUse) :
    (s.readWith o).mapM f = (do
      let earlier ← s.earlier.mapM f
      let use ← f ⟨s.name, some o⟩
      (earlier ++ use :: ·) <$> (Cursor.readAll Chain.filterStep
        ((⟨0, s.tail⟩ : Cursor).shift (o.span.stop + s.gap.length))).mapM f) := by
  rw [readWith, Cursor.Words.mapM_after, words, List.mapM_append]
  cases s.earlier.mapM f with
  | error e => rfl
  | ok earlier =>
    rw [List.mapM_cons, List.mapM_nil]
    cases f ⟨s.name, some o⟩ with
    | error e => rfl
    | ok use =>
      simp only [bind, Except.bind, pure, Except.pure, List.append_assoc, List.singleton_append]
      rfl

namespace Reader

variable (r : Reader) {l : StringLiteral}

/-- **The value of either literal.** -/
theorem alike_literal (htext : translate l.text = l.text) (before behind : List Char) :
    Alike Atom.Likewise
      ((r.on (before ++ (l.written ++ behind))).atom (l.operand before.length))
      ((r.on (before ++ (call l.written ++ behind))).atom (l.called before.length)) := by
  have hatom : (r.on (before ++ (l.written ++ behind))).atom (l.operand before.length) = _ :=
    StringLiteral.atom_operand (Cursor.reads_middle before l.written behind)
  have hcalled : (r.on (before ++ (call l.written ++ behind))).atom (l.called before.length) = _ :=
    StringLiteral.atom_called (Cursor.reads_middle before (call l.written) behind)
  rw [hatom, hcalled]
  exact .ok (.translated _ _ htext)

/-- **A literal as the value of a chain**, with whatever filters behind it. -/
theorem alike_chain_head (htext : translate l.text = l.text) (hbefore : allBlank before)
    (behind : List Char) (whole whole' : Span) :
    Alike Expression.Likewise
      ((r.on (before ++ (l.written ++ behind))).chain (before ++ (l.written ++ behind)) whole 0)
      ((r.on (before ++ (call l.written ++ behind))).chain (before ++ (call l.written ++ behind))
        whole' 0) := by
  have hread := Chain.read?_enclosed (Chain.enclosed_quoted l.isQuoted) hbefore behind
  have hread' := Chain.read?_enclosed (Chain.enclosed_call l.isQuoted) hbefore behind
  by_cases hblank : allBlank (behind.take (lengthBefore '|' behind))
  · rw [Chain.checkGap_eq_ok_iff (u := ()).2 hblank] at hread hread'
    have hreads : (Chain.filters ⟨0, behind⟩).Reads behind :=
      Chain.reads_filters ⟨Nat.zero_le _, List.prefix_rfl⟩
    have hstands (value : List Char) : StandsAt behind (before.length + value.length)
        (before ++ (value ++ behind)) := by
      have h := standsAt_middle (before ++ value) behind []
      rwa [List.append_nil, List.append_assoc, List.length_append] at h
    exact alike_chain hread hread' (r.alike_literal htext before behind)
      (r.alike_readAll hreads (hstands _) (hstands _)) whole whole'
  · have hrefused (o : Operand) (start : Nat) : ∃ e, Chain.checkGap o ⟨start, behind⟩ = .error e := by
      cases hgap : Chain.checkGap o ⟨start, behind⟩ with
      | error e => exact ⟨e, rfl⟩
      | ok u => exact absurd (Chain.checkGap_eq_ok_iff.1 hgap) hblank
    obtain ⟨e, he⟩ := hrefused ⟨.text, ⟨before.length, l.written.length⟩⟩
      (before.length + l.written.length)
    obtain ⟨e', he'⟩ := hrefused ⟨.translated, ⟨before.length, (call l.written).length⟩⟩
      (before.length + (call l.written).length)
    rw [he] at hread
    rw [he'] at hread'
    unfold chain
    rw [hread, hread']
    exact .error e e'

/-- **A filter with either argument**, and with its name before the argument. -/
theorem alike_filterUse {name : Span} (hname : name.Within before) {behind behind' : List Char}
    {o o' : Operand} (hatom : Alike Atom.Likewise ((r.on (before ++ behind)).atom o)
      ((r.on (before ++ behind')).atom o')) :
    Alike FilterUse.Likewise ((r.on (before ++ behind)).filterUse ⟨name, some o⟩)
      ((r.on (before ++ behind')).filterUse ⟨name, some o'⟩) := by
  have hfilter : Alike Eq ((r.on (before ++ behind)).filter name)
      ((r.on (before ++ behind')).filter name) := by
    have h := r.moves_filter (standsAt_start before behind) hname
    have h' := r.moves_filter (standsAt_start before behind') hname
    rw [Span.shift_zero] at h h'
    exact .of_moves h h' fun _ => rfl
  have hsome : Alike (Option.Rel Atom.Likewise)
      (some <$> (r.on (before ++ behind)).atom o) (some <$> (r.on (before ++ behind')).atom o') :=
    hatom.map fun _ _ => .some
  unfold filterUse
  refine hsome.bind fun a b hab => hfilter.bind ?_
  rintro filter _ rfl
  have harity : Alike Eq (checkArity filter name a) (checkArity filter name b) := by
    unfold checkArity
    cases filter.arity <;> cases hab <;> constructor <;> rfl
  exact harity.bind fun _ _ _ => .ok ⟨rfl, hab⟩

/-- **A literal as the argument of a filter.** -/
theorem alike_chain_argument (htext : translate l.text = l.text)
    (h : Chain.HasArgument (before ++ (l.written ++ behind)) (l.operand before.length))
    (whole whole' : Span) :
    Alike Expression.Likewise
      ((r.on (before ++ (l.written ++ behind))).chain (before ++ (l.written ++ behind)) whole 0)
      ((r.on (before ++ (call l.written ++ behind))).chain (before ++ (call l.written ++ behind))
        whole' 0) := by
  obtain ⟨o, s, ho, hs, haround⟩ := Chain.exists_read_around h
  obtain ⟨c, hread, hwords⟩ := haround _ _ (Chain.enclosed_quoted l.isQuoted)
  obtain ⟨c', hread', hwords'⟩ := haround _ _ (Chain.enclosed_call l.isQuoted)
  refine alike_chain hread hread' (r.alike_atom ho _ _) ?_ whole whole'
  obtain ⟨more, rfl⟩ := hs.behind
  have hstands (value : List Char) : StandsAt s.tail (before.length + value.length + s.gap.length)
      (before ++ (value ++ (s.gap ++ s.tail ++ more))) := by
    have h := standsAt_middle (before ++ (value ++ s.gap)) s.tail more
    rw [List.length_append, List.length_append, ← Nat.add_assoc] at h
    simpa using h
  have hlater := r.alike_readAll (⟨Nat.zero_le _, List.prefix_rfl⟩ : (⟨0, s.tail⟩ : Cursor).Reads _)
    (hstands l.written) (hstands (call l.written))
  have hearlier := r.alike_filterUses hs.earlier (l.written ++ (s.gap ++ s.tail ++ more))
    (call l.written ++ (s.gap ++ s.tail ++ more))
  have hfilter := r.alike_filterUse hs.name (r.alike_literal htext before (s.gap ++ s.tail ++ more))
  rw [hwords, hwords', s.mapM_readWith, s.mapM_readWith]
  refine hearlier.bind fun earlier earlier' h1 => hfilter.bind fun use use' h2 => ?_
  exact hlater.map fun later later' h3 => List.rel_append h1 (.cons h2 h3)

end Reader

/-! ## Between braces -/

namespace Compiler

/-- What stands between the braces of a token. -/
structure Shows (c : Compiler) (t : Token) (content : List Char) : Prop where
  scanned : t ∈ Token.scan c.source
  kind : t.kind = .interpolation
  content : t.content c.source = content

/-- **Two tokens are rendered alike**: either both are refused, or both become nodes that write the same,
or fail in the same way, and leave the same scope behind, whatever the scope is. -/
def RendersAlike (c c' : Compiler) (t t' : Token) : Prop :=
  Alike (fun d d' => ∃ node node', d = c.add node ∧ d' = c'.add node' ∧
    ∀ routes, (node.render routes).Likewise (node'.render routes)) (c.output t) (c'.output t')

variable {c c' : Compiler} {t t' : Token}

/-- Tokens whose chains are alike, read on their own with the same filters and loops. -/
theorem rendersAlike_of_chain (hreader : c'.reader = c.reader.on c'.source) (ht : c.Shows t content)
    (ht' : c'.Shows t' content')
    (h : Alike Expression.Likewise ((c.reader.on content).chain content t.span 0)
      ((c.reader.on content').chain content' t'.span 0)) : c.RendersAlike c' t t' := by
  have hreads := Token.reads_content ht.scanned (by simp [ht.kind])
  have hreads' := Token.reads_content ht'.scanned (by simp [ht'.kind])
  have hmoves := c.reader.moves_chain t.span t.span hreads.slice_eq
  have hmoves' := c.reader.moves_chain t'.span t'.span hreads'.slice_eq
  rw [ht.content] at hmoves
  rw [ht'.content] at hmoves'
  have hchain : Alike Expression.Likewise (c.reader.chain content t.span (t.span.start + 2))
      (c'.reader.chain content' t'.span (t'.span.start + 2)) := by
    rw [hreader]
    exact h.moves hmoves hmoves' fun _ _ h => h.shift _ _
  rw [RendersAlike, output_eq, output_eq, ht.content, ht'.content]
  exact hchain.map fun e e' h =>
    ⟨_, _, rfl, rfl, fun routes => Expression.likewise_node h t.span t'.span⟩

/-- **A literal that is to be translated is rendered like the literal**, if its text is its own
translation: as the value of what stands between braces, whatever filters are behind it, and as the
argument of any filter there. -/
theorem rendersAlike_translated {l : StringLiteral} (hreader : c'.reader = c.reader.on c'.source)
    (ht : c.Shows t (before ++ (l.written ++ behind)))
    (ht' : c'.Shows t' (before ++ (call l.written ++ behind)))
    (hplace : allBlank before ∨
      Chain.HasArgument (before ++ (l.written ++ behind)) (l.operand before.length))
    (hpercent : '%' ∉ l.text.toList) (hreturn : '\r' ∉ l.text.toList) :
    c.RendersAlike c' t t' := by
  have htext := (translate_eq_self_iff l.text).2 ⟨hpercent, hreturn⟩
  refine rendersAlike_of_chain hreader ht ht' ?_
  rcases hplace with hblank | hargument
  · exact c.reader.alike_chain_head htext hblank behind t.span t'.span
  · exact c.reader.alike_chain_argument htext hargument t.span t'.span

/-- A compiler at the start of a text. -/
def initial (source : String) : Compiler := { source := source.toList, libraries := [] }

/-- The argument of a filter, with the filter and without a refusal. -/
theorem rendersAlike_translated_default :
    (initial "\x7b\x7b x|default:'a' \x7d\x7d").RendersAlike (initial "\x7b\x7b x|default:_('a') \x7d\x7d")
        ⟨.interpolation, ⟨0, 19⟩⟩ ⟨.interpolation, ⟨0, 22⟩⟩ ∧
      ((initial "\x7b\x7b x|default:'a' \x7d\x7d").output ⟨.interpolation, ⟨0, 19⟩⟩).isOk := by
  have hbody : Encloses '\'' ['a'] :=
    encloses_of_literalBody (by decide) (.plain (by decide) (by decide) .nil)
  obtain ⟨l, hl⟩ : ∃ l : StringLiteral, l = ⟨'\'', ['a'], by decide, hbody⟩ := ⟨_, rfl⟩
  have hwritten : l.written = "'a'".toList := by rw [hl]; rfl
  have htext : l.text = "a" := by rw [hl]; rfl
  have ht : (initial "\x7b\x7b x|default:'a' \x7d\x7d").Shows ⟨.interpolation, ⟨0, 19⟩⟩
      (" x|default:".toList ++ (l.written ++ [' '])) := by
    rw [hwritten]
    exact ⟨by decide +kernel, rfl, by rfl⟩
  have ht' : (initial "\x7b\x7b x|default:_('a') \x7d\x7d").Shows ⟨.interpolation, ⟨0, 22⟩⟩
      (" x|default:".toList ++ (call l.written ++ [' '])) := by
    rw [hwritten]
    exact ⟨by decide +kernel, rfl, by rfl⟩
  have hargument : Chain.HasArgument (" x|default:".toList ++ (l.written ++ [' ']))
      (l.operand " x|default:".toList.length) := by
    rw [StringLiteral.operand, hwritten]
    exact ⟨⟨.path, ⟨1, 1⟩⟩, ⟨3, "default:'a'".toList⟩, by rfl,
      ⟨⟨3, 7⟩, some ⟨.text, ⟨11, 3⟩⟩⟩, by decide +kernel, by rfl⟩
  have hreader : (initial "\x7b\x7b x|default:_('a') \x7d\x7d").reader =
      (initial "\x7b\x7b x|default:'a' \x7d\x7d").reader.on
        (initial "\x7b\x7b x|default:_('a') \x7d\x7d").source := rfl
  have hpercent : '%' ∉ l.text.toList := by rw [htext]; decide +kernel
  have hreturn : '\r' ∉ l.text.toList := by rw [htext]; decide +kernel
  exact ⟨rendersAlike_translated hreader ht ht' (.inr hargument) hpercent hreturn, by cbv⟩

end Compiler

/-- A template alone, compiled and rendered without variables. -/
def Template.Writes (source output : String) : Prop :=
  ∃ nodes, Galley.compile source.toList [] = .ok nodes ∧
    (Template.mk source.toList none nodes).render {} (.dict 0 []) true none = (.ok output, [])

/-- **Not every literal is its own translation**: a percent sign is written twice, and a carriage return
becomes a line feed. -/
theorem Template.writes_translated :
    Writes "\x7b\x7b '100%' \x7d\x7d" "100%" ∧ Writes "\x7b\x7b _('100%') \x7d\x7d" "100%%" ∧
      Writes "\x7b\x7b 'a\rb' \x7d\x7d" "a\rb" ∧ Writes "\x7b\x7b _('a\rb') \x7d\x7d" "a\nb" := by
  have hpercent : Token.scan "\x7b\x7b '100%' \x7d\x7d".toList = [⟨.interpolation, ⟨0, 12⟩⟩] := by
    decide +kernel
  have hpercent' : Token.scan "\x7b\x7b _('100%') \x7d\x7d".toList = [⟨.interpolation, ⟨0, 15⟩⟩] := by
    decide +kernel
  have hreturn : Token.scan "\x7b\x7b 'a\rb' \x7d\x7d".toList = [⟨.interpolation, ⟨0, 11⟩⟩] := by
    decide +kernel
  have hreturn' : Token.scan "\x7b\x7b _('a\rb') \x7d\x7d".toList = [⟨.interpolation, ⟨0, 14⟩⟩] := by
    decide +kernel
  refine ⟨⟨[.output ⟨0, 12⟩ ⟨.text ⟨4, 4⟩ "100%", []⟩], ?_, by cbv⟩,
    ⟨[.translated ⟨0, 15⟩ "100%"], ?_, by cbv⟩,
    ⟨[.output ⟨0, 11⟩ ⟨.text ⟨4, 3⟩ "a\rb", []⟩], ?_, by cbv⟩,
    ⟨[.translated ⟨0, 14⟩ "a\rb"], ?_, by cbv⟩⟩
  · rw [Galley.compile, hpercent]
    cbv
  · rw [Galley.compile, hpercent']
    cbv
  · rw [Galley.compile, hreturn]
    cbv
  · rw [Galley.compile, hreturn']
    cbv

end Galley
