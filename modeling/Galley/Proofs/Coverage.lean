import Galley.Token

/-!
# The tokens of a template cover its text

Scanning a text cuts it into pieces. A token that is not text is closed: it begins with the
delimiter that opens its kind, ends with the one that closes it, and the content between them does
not hold the closing one.

* `first_le`: the first token ends inside the text.
* `closed_first`: a first token that is not text is closed.
* `scanFrom_contiguous`, `scanFrom_slices`: the tokens follow each other and add up to the text.
* `scan_partition`: all of this for the tokens of a template.
-/

namespace Galley.Token

variable {block : Option (List Char)} {text source : List Char} {start : Nat}

/-- A piece of text is **closed** if it is a content between the delimiters of a kind, and the
content does not hold the closing one. -/
def Closed (kind : TokenKind) (piece content : List Char) : Prop :=
  piece = kind.opening ++ content ++ kind.closing ∧ ¬ kind.closing <:+: content

/-- Spans that **follow each other** without a gap, none of them empty, from one offset to another. -/
def Contiguous : Nat → List Token → Nat → Prop
  | start, [], stop => start = stop
  | start, t :: rest, stop =>
    t.span.start = start ∧ 0 < t.span.length ∧ Contiguous t.span.stop rest stop

/-- Spans that follow each other lie between the two offsets. -/
theorem Contiguous.bounds {start stop : Nat} {tokens : List Token}
    (h : Contiguous start tokens stop) :
    start ≤ stop ∧ ∀ t ∈ tokens, start ≤ t.span.start ∧ t.span.stop ≤ stop := by
  induction tokens generalizing start with
  | nil => exact ⟨Nat.le_of_eq h, nofun⟩
  | cons t rest ih =>
    obtain ⟨rfl, hpos, hrest⟩ := h
    obtain ⟨hle, hbounds⟩ := ih hrest
    have : t.span.stop = t.span.start + t.span.length := rfl
    refine ⟨by omega, List.forall_mem_cons.2 ⟨⟨Nat.le_refl _, hle⟩, fun t' ht' => ?_⟩⟩
    have := hbounds t' ht'
    omega

/-- Those before a span follow each other up to it. -/
theorem Contiguous.before {start stop : Nat} {before after : List Token} {t : Token}
    (h : Contiguous start (before ++ t :: after) stop) : Contiguous start before t.span.start := by
  induction before generalizing start with
  | nil => exact h.1.symm
  | cons first rest ih => exact ⟨h.1, h.2.1, ih h.2.2⟩

/-! ## The first token -/

theorem length_opening {kind : TokenKind} (h : kind ≠ .text) : kind.opening.length = 2 := by
  cases kind <;> first | rfl | exact absurd rfl h

theorem length_closing {kind : TokenKind} (h : kind ≠ .text) : kind.closing.length = 2 := by
  cases kind <;> first | rfl | exact absurd rfl h

theorem delimiterLength_eq {kind : TokenKind} (h : kind ≠ .text) : kind.delimiterLength = 2 := by
  cases kind <;> first | rfl | exact absurd rfl h

theorem closing_ne_nil {kind : TokenKind} (h : kind ≠ .text) : kind.closing ≠ [] :=
  List.ne_nil_of_length_pos (by rw [length_closing h]; omega)

/-- What a text begins with, what follows at an offset behind it, and what stands between them. -/
theorem take_of_prefix {a b : List Char} {n : Nat} (ha : a <+: text)
    (hb : b <+: (text.drop a.length).drop n) (hn : a.length + n ≤ text.length) :
    text.take (a.length + n + b.length) = a ++ (text.drop a.length).take n ++ b := by
  obtain ⟨rest, rfl⟩ := ha
  simp only [List.drop_left, List.length_append] at hb hn ⊢
  rw [List.append_assoc, Nat.add_assoc, List.take_length_add_append, List.take_add,
    ← List.prefix_iff_eq_take.1 hb]

/-- What becomes of a delimiter whose closing one is found: a line end before that breaks it. -/
theorem delimited_of_find? {kind : TokenKind} {n : Nat} (hk : kind ≠ .text)
    (hn : Text.find? kind.closing (text.drop 2) = some n) :
    n + 4 ≤ text.length ∧ delimited kind text =
      if '\n' ∈ text.take (n + 2) then (.text, Text.lengthBefore '\n' (text.take (n + 2)) + 1)
      else (kind, n + 4) := by
  have hle := Text.find?_add_length_le hn
  rw [length_closing hk, List.length_drop] at hle
  have hlen : (text.take (n + 2)).length = n + 2 := by
    rw [List.length_take]
    omega
  refine ⟨by omega, ?_⟩
  -- the line end is searched only in front of the delimiter that was found
  have hiff := Text.lengthBefore_lt_iff '\n' (text.take (n + 2))
  rw [hlen] at hiff
  simp only [delimited, hn, hiff]

theorem delimited_le {kind : TokenKind} (hk : kind ≠ .text) (text : List Char) :
    (delimited kind text).2 ≤ text.length := by
  cases hn : Text.find? kind.closing (text.drop 2) with
  | none => simp [delimited, hn]
  | some n =>
    obtain ⟨hle, heq⟩ := delimited_of_find? hk hn
    rw [heq]
    split
    · have := Text.lengthBefore_le '\n' (text.take (n + 2))
      rw [List.length_take] at this
      dsimp only
      omega
    · exact hle

/-- **The first token ends inside the text.** -/
theorem first_le (block : Option (List Char)) (text : List Char) :
    (first block text).2 ≤ text.length := by
  cases block with
  | none =>
    unfold first next
    dsimp only
    split
    · exact plainLength_le text
    · next kind ho => exact delimited_le (TokenKind.opened_eq_some ho).1 text
  | some opening =>
    unfold first verbatim
    dsimp only
    split
    · exact Nat.le_refl _
    · next stop hv => exact (verbatimEnd?_bounds hv).2
    · next start stop _ hv =>
      have := verbatimEnd?_bounds hv
      dsimp only
      omega

theorem closed_delimited {kind : TokenKind} (ho : TokenKind.opened text = some kind)
    (h : (delimited kind text).1 ≠ .text) :
    (delimited kind text).1 = kind ∧
      Closed kind (text.take (delimited kind text).2)
        ((text.drop 2).take ((delimited kind text).2 - 4)) := by
  obtain ⟨hk, hopen⟩ := TokenKind.opened_eq_some ho
  cases hn : Text.find? kind.closing (text.drop 2) with
  | none => simp [delimited, hn] at h
  | some n =>
    obtain ⟨hle, heq⟩ := delimited_of_find? hk hn
    rw [heq] at h ⊢
    split at h
    · exact absurd rfl h
    · next hnl =>
      rw [if_neg hnl]
      refine ⟨rfl, ?_, Text.not_infix_take_of_find? (closing_ne_nil hk) hn⟩
      have hspec := (Text.find?_spec hn).1
      rw [← length_opening hk] at hspec
      have := take_of_prefix hopen hspec (by rw [length_opening hk]; omega)
      rw [length_opening hk, length_closing hk] at this
      dsimp only
      rw [Nat.add_sub_cancel, ← this, show n + 4 = 2 + n + 2 by omega]

/-- A tag that ends a verbatim block is closed: its content has at least three characters, so that
the delimiters do not overlap. -/
theorem closed_block {opening : List Char} {a b : Nat} (hb : block? text = some (a, b))
    (hends : endsVerbatim opening ((text.drop (a + 2)).take (b - a - 4))) :
    a + 4 ≤ b ∧
      Closed .tag ((text.drop a).take (b - a)) ((text.drop (a + 2)).take (b - a - 4)) := by
  obtain ⟨a, ha, hrest⟩ := Option.bind_eq_some_iff.1 hb
  obtain ⟨n, hn, he⟩ := Option.map_eq_some_iff.1 hrest
  cases he
  -- nothing but blanks ends no block
  have hpos : 0 < a + n + 2 - a - 4 := by
    refine Nat.pos_of_ne_zero fun h0 => ?_
    rw [h0, List.take_zero] at hends
    simp [endsVerbatim, Text.trim, Text.trimStart, Text.trimEnd] at hends
  obtain ⟨m, rfl⟩ : ∃ m, n = m + 2 := ⟨n - 2, by omega⟩
  have hle := Text.find?_add_length_le hn
  simp only [List.length_drop, List.length_cons, List.length_nil] at hle
  have hclose := (Text.find?_spec hn).1
  rw [Nat.add_comm m 2, ← List.drop_drop] at hclose
  have hpiece := take_of_prefix (n := m) (Text.find?_spec ha).1 hclose
    (by simp only [List.length_drop, List.length_cons, List.length_nil]; omega)
  simp only [List.length_cons, List.length_nil, List.drop_drop] at hpiece
  refine ⟨by omega, ?_, fun hin => ?_⟩
  · rw [show a + (m + 2) + 2 - a - 4 = m by omega, show a + (m + 2) + 2 - a = 2 + m + 2 by omega]
    exact hpiece
  · -- an occurrence in the content would come before the one that was found
    refine Text.not_infix_take_of_find? (by simp) hn (hin.trans ?_)
    rw [show a + (m + 2) + 2 - a - 4 = m by omega, ← List.drop_drop,
      show m = m + 2 - 2 by omega, ← List.drop_take, show m + 2 - 2 + 2 = m + 2 by omega]
    exact (List.drop_suffix _ _).isInfix

/-- Inside a block only the tag that ends it is no text. -/
theorem verbatim_of_ne_text {opening : List Char} (h : (verbatim opening text).1 ≠ .text) :
    ∃ stop, block? text = some (0, stop) ∧ verbatim opening text = (.tag, stop) ∧
      endsVerbatim opening ((text.drop 2).take (stop - 4)) := by
  unfold verbatim at h ⊢
  split at h
  · exact absurd rfl h
  · next stop hv =>
    obtain ⟨s, a, b, -, hs, rfl, hb, hends⟩ := exists_block?_of_verbatimEnd? hv
    obtain ⟨rfl, rfl⟩ : a = 0 ∧ s = 0 := by omega
    exact ⟨_, hb, rfl, hends⟩
  · exact absurd rfl h

/-- **A first token that is not text is closed.** -/
theorem closed_first (h : (first block text).1 ≠ .text) :
    Closed (first block text).1 (text.take (first block text).2)
      ((text.drop 2).take ((first block text).2 - 4)) := by
  cases block with
  | some opening =>
    obtain ⟨stop, hb, heq, hends⟩ := verbatim_of_ne_text h
    rw [first, heq]
    exact (closed_block hb hends).2
  | none =>
    unfold first next at h ⊢
    dsimp only at h ⊢
    split at h
    · exact absurd rfl h
    · next kind ho =>
      obtain ⟨hkind, hclosed⟩ := closed_delimited ho h
      rwa [hkind]

/-! ## All tokens -/

@[simp] theorem scanFrom_nil (block : Option (List Char)) (start : Nat) :
    scanFrom block start [] = [] := by rw [scanFrom]

theorem scanFrom_of_ne_nil (block : Option (List Char)) (start : Nat) (h : text ≠ []) :
    scanFrom block start text =
      ⟨(first block text).1, start, (first block text).2⟩ ::
        scanFrom (blockAfter block text) (start + (first block text).2)
          (text.drop (first block text).2) := by
  cases text with
  | nil => exact absurd rfl h
  | cons c rest => rw [scanFrom]

/-- **The tokens follow each other** from where the text starts to where it stops. -/
theorem scanFrom_contiguous (block : Option (List Char)) (start : Nat) (text : List Char) :
    Contiguous start (scanFrom block start text) (start + text.length) := by
  induction block, start, text using scanFrom.induct with
  | case1 block start => simp [Contiguous]
  | case2 block start c rest ih =>
    rw [scanFrom_of_ne_nil _ _ (List.cons_ne_nil c rest)]
    refine ⟨rfl, first_pos block (List.cons_ne_nil c rest), ?_⟩
    have hle := first_le block (c :: rest)
    rw [List.length_drop] at ih
    rwa [Nat.add_assoc, Nat.add_sub_cancel' hle] at ih

/-- **The pieces of the tokens add up to the text.** -/
theorem scanFrom_slices (block : Option (List Char)) (start : Nat) (text : List Char)
    (h : source.drop start = text) :
    (scanFrom block start text).flatMap (fun t => t.span.slice source) = text := by
  induction block, start, text using scanFrom.induct with
  | case1 block start => simp
  | case2 block start c rest ih =>
    rw [scanFrom_of_ne_nil _ _ (List.cons_ne_nil c rest), List.flatMap_cons,
      ih (by rw [← List.drop_drop, h]), Span.slice, h]
    exact List.take_append_drop _ _

/-- Every token that is not text is closed in the text it comes from. -/
theorem scanFrom_closed (block : Option (List Char)) (start : Nat) (text : List Char)
    (h : source.drop start = text) :
    ∀ t ∈ scanFrom block start text, t.kind ≠ .text →
      Closed t.kind (t.span.slice source) (t.content source) := by
  induction block, start, text using scanFrom.induct with
  | case1 block start => simp
  | case2 block start c rest ih =>
    rw [scanFrom_of_ne_nil _ _ (List.cons_ne_nil c rest)]
    intro t ht hkind
    rcases List.mem_cons.1 ht with rfl | ht
    · -- the first token is cut off a text that starts at its own offset
      have hclosed := closed_first hkind
      rw [← h, List.drop_drop] at hclosed
      have hmargin := delimiterLength_eq hkind
      dsimp only at hmargin
      simpa only [content, Span.slice, hmargin, h] using hclosed
    · exact ih (by rw [← List.drop_drop, h]) t ht hkind

theorem scan_within (source : List Char) : ∀ t ∈ scan source, t.span.Within source := by
  intro t ht
  have h := (scanFrom_contiguous none 0 source).bounds.2 t ht
  rw [Nat.zero_add] at h
  exact h.2

/-- A token that is not text has room for its delimiters, and its content stands between them. -/
theorem scan_content (source : List Char) {t : Token} (ht : t ∈ scan source) (hk : t.kind ≠ .text) :
    4 ≤ t.span.length ∧
      t.content source = Span.slice ⟨t.span.start + 2, t.span.length - 4⟩ source := by
  have hclosed := (scanFrom_closed none 0 source rfl t ht hk).1
  have hlen := congrArg List.length hclosed
  rw [Span.length_slice_of_within (scan_within source t ht)] at hlen
  simp only [List.length_append, length_opening hk, length_closing hk] at hlen
  refine ⟨by omega, ?_⟩
  rw [content, delimiterLength_eq hk]

theorem contiguous_scan (source : List Char) : Contiguous 0 (scan source) source.length := by
  have := scanFrom_contiguous none 0 source
  rwa [Nat.zero_add] at this

/-- **The tokens of a template are a partition of its text.** They are not empty, follow each other
from its start to its end and add up to it; and each token that is not text stands between its own
delimiters, with a content that does not hold the closing one. -/
theorem scan_partition (source : List Char) :
    Contiguous 0 (scan source) source.length ∧
      (scan source).flatMap (fun t => t.span.slice source) = source ∧
      ∀ t ∈ scan source, t.kind ≠ .text →
        t.span.slice source = t.kind.opening ++ t.content source ++ t.kind.closing ∧
          ¬ t.kind.closing <:+: t.content source :=
  ⟨contiguous_scan source, scanFrom_slices none 0 source rfl, scanFrom_closed none 0 source rfl⟩

end Galley.Token
