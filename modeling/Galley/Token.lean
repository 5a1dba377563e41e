import Galley.Span
import Galley.Text.Blank
import Galley.Text.Search

/-!
# Tokens

A template text is a sequence of tokens: plain text, variables `{{ }}`, tags `{% %}` and comments
`{# #}`. Their spans cover the text exactly once. A token that is not closed, or that is broken by
a line end, is plain text; and so is everything between a `verbatim` tag and the tag that ends it.

* `Token.scan`: the tokens of a text.
* `Token.content`: a token's text without its delimiters.
-/

namespace Galley

/-- The four kinds of token. -/
inductive TokenKind where
  | text
  | interpolation
  | tag
  | comment
deriving DecidableEq, Inhabited

/-- A token: its kind and its place. -/
structure Token where
  kind : TokenKind
  span : Span
deriving DecidableEq, Inhabited

namespace TokenKind

/-- The word for a kind. -/
def word : TokenKind → String
  | text => "text"
  | interpolation => "variable"
  | tag => "tag"
  | comment => "comment"

/-- The number of characters of the delimiter at either end of a token. -/
def delimiterLength : TokenKind → Nat
  | text => 0
  | _ => 2

/-- What opens a token of this kind; text is opened by nothing. -/
def opening : TokenKind → List Char
  | text => []
  | interpolation => ['{', '{']
  | tag => ['{', '%']
  | comment => ['{', '#']

/-- What closes a token of this kind; text is closed by nothing. -/
def closing : TokenKind → List Char
  | text => []
  | interpolation => ['}', '}']
  | tag => ['%', '}']
  | comment => ['#', '}']

/-- The kind of token that a text opens, if it begins with a delimiter. -/
def opened : List Char → Option TokenKind
  | '{' :: '{' :: _ => some interpolation
  | '{' :: '%' :: _ => some tag
  | '{' :: '#' :: _ => some comment
  | _ => none

/-- A text opens a token of a kind if it begins with what opens that kind. -/
theorem opened_eq_some {kind : TokenKind} {text : List Char} (h : opened text = some kind) :
    kind ≠ .text ∧ kind.opening <+: text := by
  unfold opened at h
  split at h <;> cases h <;> exact ⟨nofun, _, rfl⟩

end TokenKind

namespace Token

/-- **The content of a token** in its source: what stands between its delimiters. -/
def content (source : List Char) (t : Token) : List Char :=
  let margin := t.kind.delimiterLength
  Span.slice ⟨t.span.start + margin, t.span.length - 2 * margin⟩ source

/-- A short description for the programmer. -/
def describe (t : Token) : String :=
  let word := match t.kind with
    | .text => "Text"
    | .interpolation => "Variable"
    | .tag => "Tag"
    | .comment => "Comment"
  "<" ++ word ++ " token: (" ++ toString t.span.start ++ ", " ++ toString t.span.length ++ ")>"

/-- The number of characters before the first delimiter that opens a token. -/
def plainLength : List Char → Nat
  | [] => 0
  | c :: rest => if (TokenKind.opened (c :: rest)).isSome then 0 else plainLength rest + 1

theorem plainLength_le (text : List Char) : plainLength text ≤ text.length := by
  induction text with
  | nil => simp [plainLength]
  | cons c rest ih =>
    unfold plainLength
    split
    · simp
    · simpa using ih

/-- The kind and length of the token that a delimiter opens. Without its closing delimiter it is
text to the end; broken by a line end it is text up to there. -/
def delimited (kind : TokenKind) (text : List Char) : TokenKind × Nat :=
  match Text.find? kind.closing (text.drop 2) with
  | none => (.text, text.length)
  | some n =>
    let line := Text.lengthBefore '\n' (text.take (n + 2))
    if line < n + 2 then (.text, line + 1) else (kind, n + 4)

/-- The first tag in a text, by where it starts and stops; a line end does not break it here. -/
def block? (text : List Char) : Option (Nat × Nat) :=
  (Text.find? ['{', '%'] text).bind fun start =>
    (Text.find? ['%', '}'] (text.drop start)).map fun n => (start, start + n + 2)

theorem block?_bounds {text : List Char} {start stop : Nat} (h : block? text = some (start, stop)) :
    start < stop ∧ stop ≤ text.length := by
  obtain ⟨s, -, h⟩ := Option.bind_eq_some_iff.1 h
  obtain ⟨n, hn, he⟩ := Option.map_eq_some_iff.1 h
  have hle := Text.find?_add_length_le hn
  simp only [Prod.mk.injEq] at he
  simp only [List.length_drop, List.length_cons, List.length_nil] at hle
  omega

/-- Whether a tag with this content ends a verbatim block that `opening` opened: without its first
three characters it is the same. -/
def endsVerbatim (opening content : List Char) : Bool :=
  3 ≤ (Text.trim content).length && (Text.trim content).drop 3 = opening

/-- **The tag that ends a verbatim block**, by where it starts and stops; `opening` is the trimmed
content of the tag that opened the block. -/
def verbatimEnd? (opening : List Char) (text : List Char) : Option (Nat × Nat) :=
  match h : block? text with
  | none => none
  | some (start, stop) =>
    if endsVerbatim opening ((text.drop (start + 2)).take (stop - start - 4)) then some (start, stop)
    else (verbatimEnd? opening (text.drop stop)).map fun (a, b) => (a + stop, b + stop)
termination_by text.length
decreasing_by
  have := block?_bounds h
  simp only [List.length_drop]
  omega

theorem verbatimEnd?_of_none {opening text : List Char} (h : block? text = none) :
    verbatimEnd? opening text = none := by
  rw [verbatimEnd?]
  split
  · rfl
  · next hb => rw [h] at hb; cases hb

theorem verbatimEnd?_of_some {opening text : List Char} {start stop : Nat}
    (h : block? text = some (start, stop)) :
    verbatimEnd? opening text =
      if endsVerbatim opening ((text.drop (start + 2)).take (stop - start - 4)) then
        some (start, stop)
      else (verbatimEnd? opening (text.drop stop)).map fun (a, b) => (a + stop, b + stop) := by
  rw [verbatimEnd?]
  split
  · next hb => rw [h] at hb; cases hb
  · next hb => rw [h] at hb; cases hb; rfl

/-- The tag that ends a block is the first tag behind some of the tags of the text. -/
theorem exists_block?_of_verbatimEnd? {opening text : List Char} {start stop : Nat}
    (h : verbatimEnd? opening text = some (start, stop)) :
    ∃ s a b, s ≤ text.length ∧ start = a + s ∧ stop = b + s ∧ block? (text.drop s) = some (a, b) ∧
      endsVerbatim opening (((text.drop s).drop (a + 2)).take (b - a - 4)) := by
  induction text using verbatimEnd?.induct opening generalizing start stop with
  | case1 text hb => rw [verbatimEnd?_of_none hb] at h; cases h
  | case2 text a b hb hends =>
    rw [verbatimEnd?_of_some hb, if_pos hends] at h
    cases h
    exact ⟨0, _, _, Nat.zero_le _, rfl, rfl, hb, hends⟩
  | case3 text _ e hb hends ih =>
    rw [verbatimEnd?_of_some hb, if_neg hends] at h
    obtain ⟨⟨x, y⟩, hxy, he⟩ := Option.map_eq_some_iff.1 h
    obtain ⟨s, a, b, hs, rfl, rfl, hab⟩ := ih hxy
    cases he
    have := (block?_bounds hb).2
    simp only [List.length_drop] at hs
    refine ⟨e + s, a, b, by omega, by omega, by omega, ?_⟩
    rwa [← List.drop_drop]

theorem verbatimEnd?_bounds {opening text : List Char} {start stop : Nat}
    (h : verbatimEnd? opening text = some (start, stop)) : start < stop ∧ stop ≤ text.length := by
  obtain ⟨s, a, b, hs, rfl, rfl, hb, -⟩ := exists_block?_of_verbatimEnd? h
  have := block?_bounds hb
  simp only [List.length_drop] at this
  omega

/-- The kind and length of the first token of a text inside a verbatim block. -/
def verbatim (opening text : List Char) : TokenKind × Nat :=
  match verbatimEnd? opening text with
  | none => (.text, text.length)
  | some (0, stop) => (.tag, stop)
  | some (start, _) => (.text, start)

/-- Whether the trimmed content of a tag opens a verbatim block. -/
def opensVerbatim (content : List Char) : Bool :=
  content = "verbatim".toList || "verbatim ".toList.isPrefixOf content

/-- The kind and length of the first token of a text outside of verbatim blocks. -/
def next (text : List Char) : TokenKind × Nat :=
  match TokenKind.opened text with
  | none => (.text, plainLength text)
  | some kind => delimited kind text

/-- The content of the tag that `text` begins with, if it opens a verbatim block. -/
def verbatimOpening? (kind : TokenKind) (length : Nat) (text : List Char) : Option (List Char) :=
  if kind = .tag then
    let content := Text.trim ((text.drop 2).take (length - 4))
    if opensVerbatim content then some content else none
  else none

/-- The kind and length of the first token of a text. Inside a verbatim block `block` holds the
content of its opening tag. -/
def first (block : Option (List Char)) (text : List Char) : TokenKind × Nat :=
  match block with
  | some opening => verbatim opening text
  | none => next text

/-- The verbatim block that the rest of a text stands in, behind its first token. What ends a block
is found when its text is read, so that only one token is read inside it. -/
def blockAfter (block : Option (List Char)) (text : List Char) : Option (List Char) :=
  match block with
  | some _ => none
  | none => verbatimOpening? (next text).1 (next text).2 text

theorem delimited_pos (kind : TokenKind) {text : List Char} (h : text ≠ []) :
    0 < (delimited kind text).2 := by
  have := List.length_pos_iff.2 h
  unfold delimited
  split
  · exact this
  · dsimp only
    split <;> omega

theorem next_pos {text : List Char} (h : text ≠ []) : 0 < (next text).2 := by
  unfold next
  split
  · next ho =>
    match text, h with
    | c :: rest, _ => simp [plainLength, ho]
  · exact delimited_pos _ h

/-- **Every token has a character.** -/
theorem first_pos (block : Option (List Char)) {text : List Char} (h : text ≠ []) :
    0 < (first block text).2 := by
  cases block with
  | none => exact next_pos h
  | some opening =>
    unfold first verbatim
    dsimp only
    split
    · exact List.length_pos_iff.2 h
    · next stop hv => exact (verbatimEnd?_bounds hv).1
    · next start _ hne _ => exact Nat.pos_of_ne_zero hne

/-- The tokens from offset `start` on, where `text` is what is left there. -/
def scanFrom (block : Option (List Char)) (start : Nat) (text : List Char) : List Token :=
  match text with
  | [] => []
  | c :: rest =>
    ⟨(first block (c :: rest)).1, start, (first block (c :: rest)).2⟩ ::
      scanFrom (blockAfter block (c :: rest)) (start + (first block (c :: rest)).2)
        ((c :: rest).drop (first block (c :: rest)).2)
termination_by text.length
decreasing_by
  have := first_pos block (List.cons_ne_nil c rest)
  simp only [List.length_drop, List.length_cons]
  omega

/-- **The tokens of a template.** -/
def scan (source : List Char) : List Token := scanFrom none 0 source

end Token

end Galley
