import Galley.Proofs.TagPieces
import Galley.Proofs.Transitions
import Galley.Proofs.Verbatim

/-!
# Tags as they are written

A piece of a template that is written in one of its forms is one token, whatever comes behind it: a
text without braces, a variable between its braces, and a tag with its name and its parts.

* `Token.scanFrom_plain`, `Token.scanFrom_delimited`: the token of a text, and of what stands between
  delimiters.
* `tagText`, `TagWords.read?_tagBody`: a tag, and the words that are read from it.
* `Compiler.Advances`, `Compiler.advances_tagText`: what a compiler becomes by a piece of its text.
-/

namespace Galley

open Text

variable {blanks text rest : List Char} {start : Nat} {c c' : Compiler}

theorem find?_pair {x y : Char} (h : x ∉ text) (rest : List Char) :
    find? [x, y] (text ++ x :: y :: rest) = some text.length := by
  induction text with
  | nil => simp [find?]
  | cons d text ih =>
    obtain ⟨hd, htext⟩ := not_or.1 (mt List.mem_cons.2 h)
    rw [List.cons_append, find?, if_neg (by simp [hd]), ih htext]
    rfl

/-! ## Tokens -/

/-- A text that ends, or goes on with a delimiter. -/
def EndsText (rest : List Char) : Prop := rest = [] ∨ (TokenKind.opened rest).isSome

namespace Token

theorem opened_eq_none {d : Char} (h : d ≠ '{') (rest : List Char) :
    TokenKind.opened (d :: rest) = none := by
  unfold TokenKind.opened
  split
  · next heq => exact absurd (List.cons.inj heq).1 h
  · next heq => exact absurd (List.cons.inj heq).1 h
  · next heq => exact absurd (List.cons.inj heq).1 h
  · rfl

theorem plainLength_append (h : '{' ∉ text) (hrest : EndsText rest) :
    plainLength (text ++ rest) = text.length := by
  induction text with
  | nil =>
    rcases hrest with rfl | hopened
    · rfl
    · cases rest with
      | nil => rfl
      | cons d rest => rw [List.nil_append, plainLength, if_pos hopened]; rfl
  | cons d text ih =>
    obtain ⟨hd, htext⟩ := not_or.1 (mt List.mem_cons.2 h)
    rw [List.cons_append, plainLength, opened_eq_none (Ne.symm hd), ih htext]
    rfl

/-- **A text without braces** is one token. -/
theorem scanFrom_plain (hne : text ≠ []) (h : '{' ∉ text) (hrest : EndsText rest) (start : Nat) :
    scanFrom none start (text ++ rest) =
      ⟨.text, start, text.length⟩ :: scanFrom none (start + text.length) rest := by
  have hnext : next (text ++ rest) = (.text, text.length) := by
    have hlength := plainLength_append h hrest
    cases text with
    | nil => exact absurd rfl hne
    | cons d text =>
      obtain ⟨hd, -⟩ := not_or.1 (mt List.mem_cons.2 h)
      rw [next, List.cons_append, opened_eq_none (Ne.symm hd)]
      exact congrArg (Prod.mk TokenKind.text) hlength
  rw [scanFrom_of_ne_nil _ _ (by simp [hne])]
  simp only [first, blockAfter, hnext, verbatimOpening?, List.drop_left]
  rfl

end Token

namespace TokenKind

/-- A body between the delimiters of a kind. -/
def enclose (kind : TokenKind) (body : List Char) : List Char :=
  kind.opening ++ (body ++ kind.closing)

/-- The first character of what closes a kind. -/
def closer : TokenKind → Char
  | .text => ' '
  | .interpolation => '}'
  | .tag => '%'
  | .comment => '#'

theorem closing_eq {kind : TokenKind} (hk : kind ≠ .text) : kind.closing = [kind.closer, '}'] := by
  cases kind with
  | text => exact absurd rfl hk
  | interpolation | tag | comment => rfl

theorem length_enclose {kind : TokenKind} (hk : kind ≠ .text) (body : List Char) :
    (kind.enclose body).length = body.length + 4 := by
  rw [enclose, List.length_append, List.length_append, Token.length_opening hk,
    Token.length_closing hk]
  omega

theorem drop_enclose {kind : TokenKind} (hk : kind ≠ .text) (body rest : List Char) :
    (kind.enclose body ++ rest).drop 2 = body ++ (kind.closing ++ rest) := by
  rw [enclose, List.append_assoc, ← Token.length_opening hk, List.drop_left, List.append_assoc]

theorem opened_enclose {kind : TokenKind} (hk : kind ≠ .text) (body rest : List Char) :
    opened (kind.enclose body ++ rest) = some kind := by
  cases kind with
  | text => exact absurd rfl hk
  | interpolation | tag | comment => rfl

theorem endsText_enclose {kind : TokenKind} (hk : kind ≠ .text) (body rest : List Char) :
    EndsText (kind.enclose body ++ rest) := by
  right
  rw [opened_enclose hk]
  rfl

end TokenKind

namespace Token

open TokenKind

variable {kind : TokenKind} {body : List Char}

/-- **What stands between delimiters** is one token, if nothing in it closes it early. -/
theorem scanFrom_delimited (hk : kind ≠ .text) (hcloser : kind.closer ∉ body) (hline : '\n' ∉ body)
    (hverbatim : kind = .tag → opensVerbatim (trim body) = false) (start : Nat) (rest : List Char) :
    scanFrom none start (kind.enclose body ++ rest) =
      ⟨kind, start, (kind.enclose body).length⟩ ::
        scanFrom none (start + (kind.enclose body).length) rest := by
  have hdrop := drop_enclose hk body rest
  have hfound : find? kind.closing ((kind.enclose body ++ rest).drop 2) = some body.length := by
    rw [hdrop, closing_eq hk]
    exact find?_pair hcloser rest
  have hunbroken : '\n' ∉ (kind.enclose body ++ rest).take (body.length + 2) := by
    have htake : (kind.enclose body ++ rest).take (2 + body.length) = kind.opening ++ body := by
      rw [List.take_add, hdrop, List.take_left, enclose, List.append_assoc, ← length_opening hk,
        List.take_left]
    rw [Nat.add_comm, htake, List.mem_append, not_or]
    refine ⟨?_, hline⟩
    cases kind <;> decide
  have hnext : next (kind.enclose body ++ rest) = (kind, (kind.enclose body).length) := by
    rw [next, opened_enclose hk, length_enclose hk]
    exact (delimited_of_find? hk hfound).2.trans (if_neg hunbroken)
  have hne : kind.enclose body ++ rest ≠ [] := by
    intro hnil
    have := opened_enclose hk body rest
    rw [hnil] at this
    cases this
  have hafter : blockAfter none (kind.enclose body ++ rest) = none := by
    simp only [blockAfter, hnext, verbatimOpening?, hdrop, length_enclose hk, Nat.add_sub_cancel,
      List.take_left]
    split
    · next htag => rw [hverbatim htag]; rfl
    · rfl
  rw [scanFrom_of_ne_nil _ _ hne, hafter]
  simp only [first, hnext, List.drop_left]

/-- The content of such a token is what stands between the delimiters. -/
theorem content_enclose {source : List Char} (hk : kind ≠ .text)
    (hreads : (⟨start, kind.enclose body⟩ : Cursor).Reads source) :
    content source ⟨kind, start, (kind.enclose body).length⟩ = body ∧
      (⟨start + 2, body⟩ : Cursor).Reads source := by
  have hbody : (⟨start + 2, body⟩ : Cursor).Reads source := by
    have := hreads.append.2.append.1
    rwa [length_opening hk] at this
  refine ⟨?_, hbody⟩
  rw [content, delimiterLength_eq hk]
  simp only [length_enclose hk, Nat.add_sub_cancel]
  exact hbody.slice_eq

end Token

/-! ## The words of tags -/

/-- The blank that stands before the parts of a tag, if it has any. -/
def partsGap : List Char → List Char
  | [] => []
  | _ => [' ']

/-- What stands between the delimiters of a tag. -/
def tagBody (name : String) (parts : List Char) : List Char :=
  ' ' :: (name.toList ++ (partsGap parts ++ parts) ++ [' '])

/-- **The text of a tag.** -/
def tagText (name : String) (parts : List Char) : List Char :=
  TokenKind.tag.enclose (tagBody name parts)

/-- The offset of the parts of a tag whose text begins at an offset. -/
def partsStart (start : Nat) (name : String) (parts : List Char) : Nat :=
  start + 3 + name.toList.length + (partsGap parts).length

/-- The name of a tag: characters of names. -/
structure IsTagName (name : String) : Prop where
  ne_nil : name.toList ≠ []
  chars : ∀ d ∈ name.toList, isNameChar d
  ne_verbatim : name ≠ "verbatim"

instance (name : String) : Decidable (IsTagName name) :=
  decidable_of_iff (name.toList ≠ [] ∧ name.toList.all isNameChar ∧ name ≠ "verbatim")
    ⟨fun ⟨hne, hall, hverbatim⟩ => ⟨hne, List.all_eq_true.1 hall, hverbatim⟩,
      fun h => ⟨h.ne_nil, List.all_eq_true.2 h.chars, h.ne_verbatim⟩⟩

variable {name : String} {parts : List Char}

theorem head?_partsGap (parts : List Char) :
    ∀ d ∈ (partsGap parts ++ parts).head?, d = ' ' := by
  cases parts with
  | nil => nofun
  | cons d parts => rintro _ ⟨⟩; rfl

/-- The pieces of what stands between the delimiters of a tag. -/
def tagPieces (hne : name.toList ≠ []) (hchars : ∀ d ∈ name.toList, isNameChar d)
    (hparts : Trimmed parts) : TagPieces where
  leading := [' ']
  word := name.toList
  gap := partsGap parts
  parts := parts
  trailing := [' ']
  leading_blank := rfl
  word_ne_nil := hne
  word_not_blank d hd := not_isBlank_of_isNameChar (hchars d hd)
  gap_blank := by cases parts <;> rfl
  gap_eq_nil_iff := by cases parts <;> simp [partsGap]
  parts_trimmed := hparts
  trailing_blank := rfl

theorem trim_tagBody (hne : name.toList ≠ []) (hchars : ∀ d ∈ name.toList, isNameChar d)
    (hparts : Trimmed parts) :
    trim (tagBody name parts) = name.toList ++ (partsGap parts ++ parts) ∧
      trimStart (tagBody name parts) = name.toList ++ (partsGap parts ++ parts) ++ [' '] :=
  ⟨(tagPieces hne hchars hparts).trim_text, (tagPieces hne hchars hparts).trimStart_text⟩

/-- **The words of a tag** are its name and its parts. -/
theorem TagWords.read?_tagBody (hname : IsTagName name) (hparts : Trimmed parts) (start : Nat) :
    read? (tagBody name parts) (start + 2) =
      .ok (some ⟨⟨start + 3, name.toList.length⟩, ⟨partsStart start name parts, parts.length⟩⟩) := by
  let p := tagPieces hname.ne_nil hname.chars hparts
  have hchars : ∀ d ∈ p.word, isNameChar d := hname.chars
  exact (p.read?_text (start + 2)).trans (if_pos (List.all_eq_true.2 hchars))

/-- No tag of another name opens a verbatim block. -/
theorem opensVerbatim_tagBody (hname : IsTagName name) (hparts : Trimmed parts) :
    Token.opensVerbatim (trim (tagBody name parts)) = false := by
  cases hopens : Token.opensVerbatim (trim (tagBody name parts)) with
  | false => rfl
  | true =>
    have htake := takeWhile_of_opensVerbatim (p := isNameChar) hopens rfl rfl
    rw [(trim_tagBody hname.ne_nil hname.chars hparts).1, takeWhile_ended hname.chars] at htake
    · exact absurd (String.toList_inj.1 htake) hname.ne_verbatim
    · intro d hd
      rw [head?_partsGap parts d hd]
      decide

/-! ## What a compiler becomes -/

namespace Compiler

/-- A tag has the name and the parts that it is written with. -/
theorem tagged_tagText (hname : IsTagName name) (hparts : Trimmed parts)
    (hreads : (⟨start, tagText name parts⟩ : Cursor).Reads c.source) :
    c.Tagged ⟨.tag, start, (tagText name parts).length⟩ name
        ⟨partsStart start name parts, parts.length⟩ ∧
      (⟨partsStart start name parts, parts⟩ : Cursor).Reads c.source := by
  obtain ⟨hcontent, hbody⟩ := Token.content_enclose (by decide) hreads
  have hspace : (⟨start + 2, [' '] ++ (name.toList ++ (partsGap parts ++ parts) ++ [' '])⟩ :
      Cursor).Reads c.source := hbody
  have hwords := hspace.append.2.append.1
  refine ⟨⟨rfl, ⟨⟨start + 3, name.toList.length⟩, ⟨partsStart start name parts, parts.length⟩⟩,
    ?_, ?_, rfl⟩, ?_⟩
  · rw [tagText, hcontent]
    exact TagWords.read?_tagBody hname hparts start
  · rw [Reader.textAt]
    exact (congrArg String.ofList hwords.append.1.slice_eq).trans String.ofList_toList
  · exact hwords.append.2.append.2

/-- **A compiler advances** along a piece of its text that `rest` follows: from there on it reads what
the other one reads behind the piece. -/
def Advances (c : Compiler) (start : Nat) (piece rest : List Char) (c' : Compiler) : Prop :=
  (Token.scanFrom none start (piece ++ rest)).foldlM step c =
    (Token.scanFrom none (start + piece.length) rest).foldlM step c'

theorem Advances.trans {first second : List Char} {c'' : Compiler}
    (h : c.Advances start first (second ++ rest) c')
    (h' : c'.Advances (start + first.length) second rest c'') :
    c.Advances start (first ++ second) rest c'' := by
  unfold Advances at *
  rw [List.append_assoc, h, h', List.length_append, Nat.add_assoc]

/-- What a token does is what its text does. -/
theorem advances_of_takes {t : Token} {piece : List Char} (hv : c.verbatim = none)
    (hscan : Token.scanFrom none start (piece ++ rest) =
      t :: Token.scanFrom none (start + piece.length) rest) (h : c.Takes t c') :
    c.Advances start piece rest c' := by
  rw [Advances, hscan, List.foldlM_cons, (step_eq_ok_iff hv).2 h]
  rfl

theorem advances_tagText (hv : c.verbatim = none) (hname : IsTagName name) (hparts : Trimmed parts)
    (hcloser : '%' ∉ parts) (hline : '\n' ∉ parts)
    (h : c.Takes ⟨.tag, start, (tagText name parts).length⟩ c') (rest : List Char) :
    c.Advances start (tagText name parts) rest c' := by
  have hbody (d : Char) (hd : d ∉ parts) (hchar : isNameChar d = false) (hblank : d ≠ ' ') :
      d ∉ tagBody name parts := by
    have hdname : d ∉ name.toList := fun hmem => by
      rw [hname.chars d hmem] at hchar
      cases hchar
    have hgap : d ∉ partsGap parts := by
      cases parts with
      | nil => exact List.not_mem_nil
      | cons e parts => simpa [partsGap] using hblank
    simp [tagBody, hd, hblank, hdname, hgap]
  refine advances_of_takes hv (Token.scanFrom_delimited (by decide) ?_ ?_
    (fun _ => opensVerbatim_tagBody hname hparts) start rest) h
  · exact hbody '%' hcloser (by decide +kernel) (by decide)
  · exact hbody '\n' hline (by decide +kernel) (by decide)

end Compiler

end Galley
