import Galley.Proofs.Pipeline
import Galley.Resolve

/-!
# Escapes in string literals

A literal is read up to the first quote of its own that no backslash takes along: reading from the
left, a backslash takes the next character with it. Its text is made in two passes over the whole of
it, one that drops the backslashes before quotes and one that drops the backslashes before
backslashes. Both come to the same as a look at the backslashes in front of a quote, and as reading
pair by pair.

* `slashesBehind`, `Encloses`: the backslashes at the end of a text, and the texts that a quote
  encloses.
* `Cursor.quotedText_eq_ok_iff`: **where a literal ends.**
* `decoded`, `dropEscapes_literalBody`: its text, pair by pair.
* `Reader.chain_quoted`, `Reader.chain_quotedArgument`: a text that is written as a literal.
* `Reader.text_of_literal`: **all of it.**
-/

namespace Galley

open Text

variable {c quote : Char} {text rest body before behind : List Char} {start n : Nat} {r : Reader}

/-! ## Where a literal ends -/

/-- How many backslashes stand at the end of a text. -/
def slashesBehind (text : List Char) : Nat := (text.reverse.takeWhile (· = '\\')).length

/-- A quote **encloses** a text if the quotes in it stand behind an odd number of backslashes each,
and the end of it does not. -/
structure Encloses (quote : Char) (body : List Char) : Prop where
  inside : ∀ before behind, body = before ++ quote :: behind → slashesBehind before % 2 = 1
  last : slashesBehind body % 2 = 0

theorem slashesBehind_le (text : List Char) : slashesBehind text ≤ text.length := by
  have := (List.takeWhile_sublist (· = '\\') (l := text.reverse)).length_le
  rwa [List.length_reverse] at this

theorem slashesBehind_cons (c : Char) (text : List Char) :
    slashesBehind (c :: text) =
      if slashesBehind text = text.length ∧ c = '\\' then text.length + 1 else slashesBehind text := by
  unfold slashesBehind
  rw [List.reverse_cons, List.takeWhile_append, List.length_reverse]
  by_cases hall : (text.reverse.takeWhile (· = '\\')).length = text.length
  · by_cases hc : c = '\\' <;> simp [hall, hc]
  · simp [hall]

/-- A backslash and the character behind it do not matter. -/
theorem slashesBehind_pair (c : Char) (text : List Char) :
    slashesBehind ('\\' :: c :: text) % 2 = slashesBehind text % 2 := by
  have hle := slashesBehind_le text
  simp only [slashesBehind_cons, List.length_cons]
  by_cases hc : c = '\\' <;> simp only [hc, and_true, and_false, if_false] <;> grind

theorem slashesBehind_of_ne (hc : c ≠ '\\') (text : List Char) :
    slashesBehind (c :: text) = slashesBehind text := by
  simp [slashesBehind_cons, hc]

theorem encloses_escaped (hquote : quote ≠ '\\') (c : Char) :
    Encloses quote ('\\' :: c :: rest) ↔ Encloses quote rest := by
  refine ⟨fun h => ⟨fun before behind heq => ?_, ?_⟩, fun h => ⟨fun before behind heq => ?_, ?_⟩⟩
  · rw [← slashesBehind_pair c]
    exact h.inside ('\\' :: c :: before) behind (by rw [heq]; rfl)
  · rw [← slashesBehind_pair c]
    exact h.last
  · match before, heq with
    | [], heq => exact absurd (List.cons.inj heq).1.symm hquote
    | [_], heq =>
      rw [← (List.cons.inj heq).1]
      rfl
    | _ :: _ :: before, heq =>
      obtain ⟨rfl, htail⟩ := List.cons.inj heq
      obtain ⟨rfl, hrest⟩ := List.cons.inj htail
      rw [slashesBehind_pair]
      exact h.inside before behind hrest
  · rw [slashesBehind_pair]
    exact h.last

theorem encloses_plain (hc : c ≠ '\\') :
    Encloses quote (c :: rest) ↔ c ≠ quote ∧ Encloses quote rest := by
  refine ⟨fun h => ⟨?_, fun before behind heq => ?_, ?_⟩,
    fun ⟨hne, h⟩ => ⟨fun before behind heq => ?_, ?_⟩⟩
  · rintro rfl
    exact absurd (h.inside [] rest rfl) (by decide)
  · rw [← slashesBehind_of_ne hc]
    exact h.inside (c :: before) behind (by rw [heq]; rfl)
  · rw [← slashesBehind_of_ne hc]
    exact h.last
  · cases before with
    | nil => exact absurd (List.cons.inj heq).1 hne
    | cons d before =>
      obtain ⟨rfl, hrest⟩ := List.cons.inj heq
      rw [slashesBehind_of_ne hc]
      exact h.inside before behind hrest
  · rw [slashesBehind_of_ne hc]
    exact h.last

theorem encloses_of_literalBody (hquote : quote ≠ '\\') (h : LiteralBody quote body) :
    Encloses quote body := by
  induction h with
  | nil => exact ⟨fun before behind heq => absurd heq.symm (by simp), rfl⟩
  | escaped c _ ih => exact (encloses_escaped hquote c).2 ih
  | plain hc hne _ ih => exact (encloses_plain hc).2 ⟨hne, ih⟩

theorem literalBody_of_encloses (hquote : quote ≠ '\\') :
    ∀ {body : List Char}, Encloses quote body → LiteralBody quote body
  | [], _ => .nil
  | c :: rest, h => by
    by_cases hc : c = '\\'
    · subst hc
      match rest, h with
      | [], h => exact absurd h.last (by decide)
      | c :: _, h => exact .escaped c (literalBody_of_encloses hquote ((encloses_escaped hquote c).1 h))
    · obtain ⟨hne, hrest⟩ := (encloses_plain hc).1 h
      exact .plain hc hne (literalBody_of_encloses hquote hrest)

/-- **A literal ends** at the first quote that does not stand behind an odd number of backslashes. -/
theorem Cursor.quotedText_eq_ok_iff (hquote : isQuote quote) {span : Span} {next : Cursor} :
    (⟨start, quote :: text⟩ : Cursor).quotedText quote = .ok (span, next) ↔
      ∃ body rest, Encloses quote body ∧ text = body ++ quote :: rest ∧
        span = ⟨start, body.length + 2⟩ ∧ next = ⟨start + (body.length + 2), rest⟩ := by
  have hslash := ne_backslash_of_isQuote hquote
  constructor
  · intro h
    unfold quotedText at h
    rw [List.drop_one, List.tail_cons] at h
    cases hn : closingQuote? quote text with
    | none => simp [hn] at h
    | some n =>
      obtain ⟨body, hbody, heq, rfl⟩ := literalBody_of_closingQuote? hn
      rw [hn] at h
      cases h
      exact ⟨body, text.drop (body.length + 1), encloses_of_literalBody hslash hbody, heq, rfl, rfl⟩
  · rintro ⟨body, rest, hbody, rfl, rfl, rfl⟩
    have hclosing := closingQuote?_of_literalBody hslash (literalBody_of_encloses hslash hbody) rest
    have hdrop : (quote :: (body ++ quote :: rest)).drop (body.length + 1 + 1) = rest := by
      rw [List.drop_succ_cons, ← List.drop_drop, List.drop_left]
      rfl
    rw [quotedText, List.drop_one, List.tail_cons, hclosing]
    simp only [take, ahead, advance, hdrop]

/-! ## Its text -/

/-- **The text of a literal,** read pair by pair: a backslash with a quote or a backslash behind it
is dropped. -/
def decoded (quote : Char) : List Char → List Char
  | '\\' :: c :: rest =>
    if c = quote ∨ c = '\\' then c :: decoded quote rest else '\\' :: c :: decoded quote rest
  | c :: rest => c :: decoded quote rest
  | [] => []

/-- **Both passes** over the text of a literal come to reading it pair by pair. -/
theorem dropEscapes_literalBody (hquote : quote ≠ '\\') (h : LiteralBody quote body) :
    dropEscapes '\\' (dropEscapes quote body) = decoded quote body := by
  induction h with
  | nil => rfl
  | @escaped c rest h ih =>
    by_cases hc : c = quote
    · have hfirst : dropEscapes quote ('\\' :: c :: rest) = quote :: dropEscapes quote rest := by
        simp [dropEscapes, hc]
      rw [hfirst, dropEscapes_cons (.inl hquote), ih, decoded, if_pos (.inl hc), hc]
    · by_cases hslash : c = '\\'
      · -- no quote stands behind the second backslash, which the first pass keeps
        have hnext : ∀ e ∈ rest.head?, e ≠ quote := by
          cases h with
          | nil => rintro _ ⟨⟩
          | escaped d _ => rintro _ ⟨⟩; exact hquote.symm
          | plain _ hne _ => rintro _ ⟨⟩; exact hne
        rw [hslash, dropEscapes_cons (.inr (by simpa using hquote.symm)), dropEscapes_cons (.inr hnext),
          decoded, if_pos (.inr rfl), ← ih]
        simp [dropEscapes]
      · have hfirst : dropEscapes quote ('\\' :: c :: rest) = '\\' :: c :: dropEscapes quote rest := by
          rw [dropEscapes_cons (.inr (by simpa using hc)), dropEscapes_cons (.inl hslash)]
        rw [hfirst, dropEscapes_cons (.inr (by simpa using hslash)), dropEscapes_cons (.inl hslash), ih,
          decoded, if_neg (not_or.2 ⟨hc, hslash⟩)]
  | @plain c rest hc hne h ih =>
    have hdecoded : decoded quote (c :: rest) = c :: decoded quote rest := by
      rw [decoded]
      exact fun _ _ hslash _ => hc hslash
    rw [dropEscapes_cons (.inl hc), dropEscapes_cons (.inl hc), ih, hdecoded]

theorem literalText_literalBody (hquote : Cursor.isQuote quote) (h : LiteralBody quote body) :
    literalText (quote :: (body ++ [quote])) = .ok (String.ofList (decoded quote body)) := by
  rw [literalText, if_pos (Cursor.isLiteral_of_quotes hquote), unescape, List.dropLast_concat,
    dropEscapes_literalBody (ne_backslash_of_isQuote hquote) h]

namespace Reader

/-- **The atom that a literal is.** -/
theorem atom_encloses (hquote : Cursor.isQuote quote) (h : Encloses quote body)
    (hreads : (⟨start, quote :: (body ++ [quote])⟩ : Cursor).Reads r.source) :
    r.atom ⟨.text, ⟨start, body.length + 2⟩⟩ =
      .ok (.text ⟨start + 1, body.length⟩ (String.ofList (decoded quote body))) := by
  have hlength : (quote :: (body ++ [quote])).length = body.length + 2 := by simp
  have hslice := hreads.slice_eq
  rw [hlength] at hslice
  have hbody := literalBody_of_encloses (ne_backslash_of_isQuote hquote) h
  simp only [atom, hslice, literalText_literalBody hquote hbody]
  rfl

/-- A literal alone is its text, which is safe. -/
theorem chain_quoted (hquote : Cursor.isQuote quote) (s : String) (whole : Span)
    (hreads : (⟨start, quotedBetween quote s⟩ : Cursor).Reads r.source) :
    r.chain (quotedBetween quote s) whole start =
      .ok ⟨.text ⟨start + 1, (escaped quote s.toList).length⟩ s, []⟩ := by
  have hproper : (Literal.text quote s).Proper := hquote
  have hblank : allBlank [] := rfl
  have hread := Chain.read?_literal hblank hproper (.blank hblank) start
  rw [List.nil_append, List.append_nil, List.length_nil, Nat.add_zero] at hread
  have hlength : (quotedBetween quote s).length - 2 = (escaped quote s.toList).length := by
    simp [quotedBetween]
  refine (chain_of_read hread (atom_written hproper hreads) whole).trans ?_
  rw [Chain.filters_blank rfl, ← hlength]
  rfl

/-- A literal behind the last filter of a chain is its argument, whatever filters follow. -/
theorem chain_quotedArgument {p : Pipeline} {links : List Link} {l : Link} {s : String}
    (hp : p.Proper r) (hlinks : p.links = links ++ [l]) (htrailing : p.trailing = [])
    (hargument : l.argument = some (.text quote s)) (hends : Ends rest) (whole : Span)
    (hreads : (⟨start, p.written⟩ : Cursor).Reads r.source) :
    let place := l.nameStart (p.linksStart start + (links.flatMap Link.written).length)
    r.chain (p.written ++ rest) whole start =
      (fun later => ⟨p.head.atom r (start + p.leading.length), Link.uses r (p.linksStart start) links ++
        ⟨⟨place, l.name.toList.length⟩, l.filter, some (.text
          ⟨l.argumentStart place + 1, (escaped quote s.toList).length⟩ s)⟩ :: later⟩) <$>
        (Cursor.readAll Chain.filterStep
          (Chain.filters ⟨start + p.written.length, rest⟩)).mapM r.filterUse := by
  intro place
  have hfilters : (p.expression r start).filters =
      Link.uses r (p.linksStart start) links ++ [l.use r place] := by
    rw [Pipeline.expression, hlinks, Link.uses_append]
    rfl
  have hlength : (quotedBetween quote s).length - 2 = (escaped quote s.toList).length := by
    simp [quotedBetween]
  have huse : l.use r place = ⟨⟨place, l.name.toList.length⟩, l.filter, some (.text
      ⟨l.argumentStart place + 1, (escaped quote s.toList).length⟩ s)⟩ := by
    rw [Link.use, hargument, ← hlength]
    rfl
  rw [chain_append hp htrailing hends whole hreads, hfilters, huse]
  simp only [List.append_assoc, List.singleton_append]
  rfl

/-- **String literals and their texts.** A text with a backslash before each quote and each backslash
is read back from between its quotes: alone, and as the argument of a filter, whatever filters
follow. What is read as a literal ends at the first quote that does not stand behind an odd number
of backslashes, and its text is what stands between the quotes, read pair by pair. -/
theorem text_of_literal (hquote : Cursor.isQuote quote) (r : Reader) (start : Nat) (whole : Span) :
    (∀ s, (⟨start, quotedBetween quote s⟩ : Cursor).Reads r.source →
      let made := Atom.text ⟨start + 1, (escaped quote s.toList).length⟩ s
      r.chain (quotedBetween quote s) whole start = .ok ⟨made, []⟩ ∧
        ∀ strictness, made.resolve strictness = pure (some (.safe s))) ∧
    (∀ p : Pipeline, ∀ links l s rest, p.Proper r → p.links = links ++ [l] → p.trailing = [] →
      l.argument = some (.text quote s) → Ends rest → (⟨start, p.written⟩ : Cursor).Reads r.source →
      let place := l.nameStart (p.linksStart start + (links.flatMap Link.written).length)
      r.chain (p.written ++ rest) whole start =
        (fun later => ⟨p.head.atom r (start + p.leading.length),
          Link.uses r (p.linksStart start) links ++
            ⟨⟨place, l.name.toList.length⟩, l.filter, some (.text
              ⟨l.argumentStart place + 1, (escaped quote s.toList).length⟩ s)⟩ :: later⟩) <$>
          (Cursor.readAll Chain.filterStep
            (Chain.filters ⟨start + p.written.length, rest⟩)).mapM r.filterUse) ∧
    (∀ text span next,
      (⟨start, quote :: text⟩ : Cursor).quotedText quote = .ok (span, next) →
      ∃ body rest, Encloses quote body ∧ text = body ++ quote :: rest ∧
        span = ⟨start, body.length + 2⟩ ∧ next = ⟨start + (body.length + 2), rest⟩ ∧
        ((⟨start, quote :: text⟩ : Cursor).Reads r.source → r.atom ⟨.text, span⟩ =
          .ok (.text ⟨start + 1, body.length⟩ (String.ofList (decoded quote body))))) := by
  refine ⟨fun s hreads => ⟨chain_quoted hquote s whole hreads, fun _ => rfl⟩,
    fun p links l s rest hp hlinks htrailing hargument hends hreads =>
      chain_quotedArgument hp hlinks htrailing hargument hends whole hreads,
    fun text span next h => ?_⟩
  obtain ⟨body, rest, hbody, rfl, rfl, rfl⟩ := (Cursor.quotedText_eq_ok_iff hquote).1 h
  refine ⟨body, rest, hbody, rfl, rfl, rfl, fun hreads => atom_encloses hquote hbody ?_⟩
  exact hreads.shorten (by simp)

/-- A text of a quote, a bar and a backslash: alone, and as the argument of a filter that another one
follows. -/
theorem text_of_literal_marks :
    (⟨"\"\\\"|\\\\\"".toList, [], 0⟩ : Reader).chain "\"\\\"|\\\\\"".toList ⟨0, 0⟩ 0 =
        .ok ⟨.text ⟨1, 5⟩ "\"|\\", []⟩ ∧
      (⟨"x|add:\"\\\"|\\\\\"|upper".toList, [], 0⟩ : Reader).chain
          "x|add:\"\\\"|\\\\\"|upper".toList ⟨0, 0⟩ 0 =
        .ok ⟨.path ⟨0, 1⟩ "x" [], [⟨⟨2, 3⟩, .builtin .add, some (.text ⟨7, 5⟩ "\"|\\")⟩,
          ⟨⟨14, 5⟩, .builtin .upper, none⟩]⟩ ∧
      ∃ body rest, Encloses '"' body ∧ "\\\"|\\\\\"".toList = body ++ '"' :: rest ∧
        (⟨"\"\\\"|\\\\\"".toList, [], 0⟩ : Reader).atom ⟨.text, ⟨0, 7⟩⟩ =
          .ok (.text ⟨0 + 1, body.length⟩ (String.ofList (decoded '"' body))) := by
  let l : Link := ⟨[], [], "add", .builtin .add, some (.text '"' "\"|\\")⟩
  let p : Pipeline := ⟨[], .path "x" [], [l], []⟩
  have hl : l.Proper ⟨"x|add:\"\\\"|\\\\\"|upper".toList, [], 0⟩ :=
    ⟨rfl, rfl, by decide +kernel, by decide, rfl, by rintro _ ⟨⟩; rfl, nofun, nofun⟩
  have hp : p.Proper ⟨"x|add:\"\\\"|\\\\\"|upper".toList, [], 0⟩ := by
    refine ⟨rfl, ⟨by decide +kernel, List.forall_mem_nil _, ?_⟩, List.forall_mem_singleton.2 hl, rfl⟩
    rintro _ ⟨⟩
    rfl
  have hends : Ends ([] ++ '|' :: "upper".toList) := .bar rfl "upper".toList
  have hquoted : quotedBetween '"' "\"|\\" = "\"\\\"|\\\\\"".toList := by decide
  have hwritten : p.written ++ "|upper".toList = "x|add:\"\\\"|\\\\\"|upper".toList := by decide
  have hreads : (⟨0, "\"\\\"|\\\\\"".toList⟩ : Cursor).Reads "\"\\\"|\\\\\"".toList :=
    ⟨Nat.zero_le _, List.prefix_rfl⟩
  have hlength : (escaped '"' "\"|\\".toList).length = 5 := by decide
  have hplace : l.nameStart (p.linksStart 0 + (([] : List Link).flatMap Link.written).length) = 2 := by
    decide
  have hname : l.name.toList.length = 3 := by decide
  have hbehind : p.written.length = 13 := by decide
  have hlater : (Cursor.readAll Chain.filterStep (Chain.filters ⟨0 + 13,
      "|upper".toList⟩)).mapM (Reader.filterUse ⟨"x|add:\"\\\"|\\\\\"|upper".toList, [], 0⟩) =
      .ok [⟨⟨14, 5⟩, .builtin .upper, none⟩] := rfl
  obtain ⟨halone, -, hread⟩ := text_of_literal (show Cursor.isQuote '"' from rfl)
    ⟨"\"\\\"|\\\\\"".toList, [], 0⟩ 0 ⟨0, 0⟩
  obtain ⟨-, hargument, -⟩ := text_of_literal (show Cursor.isQuote '"' from rfl)
    ⟨"x|add:\"\\\"|\\\\\"|upper".toList, [], 0⟩ 0 ⟨0, 0⟩
  have hfirst := (halone "\"|\\" (by rwa [hquoted])).1
  have hbegins : (⟨0, p.written⟩ : Cursor).Reads "x|add:\"\\\"|\\\\\"|upper".toList := by
    refine ⟨Nat.zero_le _, ?_⟩
    rw [List.drop_zero, ← hwritten]
    exact List.prefix_append _ _
  have hsecond := hargument p [] l "\"|\\" "|upper".toList hp rfl rfl rfl hends hbegins
  rw [hquoted, hlength] at hfirst
  dsimp only at hsecond
  rw [hwritten, hbehind, hlater, hlength, hplace, Link.argumentStart, hname] at hsecond
  obtain ⟨body, rest, hbody, htext, -, -, hatom⟩ :=
    hread "\\\"|\\\\\"".toList ⟨0, 7⟩ ⟨7, []⟩ rfl
  exact ⟨hfirst, hsecond, body, rest, hbody, htext, hatom hreads⟩

end Reader

end Galley
