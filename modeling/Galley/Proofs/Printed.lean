import Galley.Proofs.TagParts

/-!
# Trees that are written and compiled

A tree of texts, variables, conditions, loops and `autoescape` blocks is compiled from its text to the
same tree, whatever it holds and however deep: only the places differ.

* `Node.unplaced`: a node without its places.
* `Node.written`: the text of a node.
* `Node.Printable`: the nodes that can be written.
* `Node.readBack`, `allReadBack`: a compiler reads a node, and a list of them, from their texts.
* `compile_written`: **a tree comes back** from its text.
-/

namespace Galley

open Text

/-! ## Without places -/

/-- An atom without its place. -/
def Atom.unplaced : Atom → Atom
  | .int _ value => .int default value
  | .float _ value => .float default value
  | .text _ value => .text default value
  | .translated _ value => .translated default value
  | .path _ root names => .path default root names
  | .loop _ parents counter names => .loop default parents counter names

/-- A filter in use without its places. -/
def FilterUse.unplaced (u : FilterUse) : FilterUse :=
  ⟨default, u.filter, u.argument.map Atom.unplaced⟩

/-- An expression without its places. -/
def Expression.unplaced (e : Expression) : Expression :=
  ⟨e.head.unplaced, e.filters.map FilterUse.unplaced⟩

/-- A condition without its places. -/
def Condition.unplaced : Condition Expression → Condition Expression
  | .operand e => .operand e.unplaced
  | .negation condition => .negation condition.unplaced
  | .binary operator left right => .binary operator left.unplaced right.unplaced

/-- Arguments without their places. -/
def unplacedArguments (arguments : List (String × Expression)) : List (String × Expression) :=
  arguments.map fun (name, e) => (name, e.unplaced)

mutual

/-- **A node without its places.** -/
def Node.unplaced : Node → Node
  | .text _ text => .text default text
  | .translated _ text => .translated default text
  | .output _ e => .output default e.unplaced
  | .autoescape _ enabled body => .autoescape default enabled (unplacedAll body)
  | .choice _ condition truthy falsey =>
    .choice default condition.unplaced (unplacedAll truthy) (unplacedAll falsey)
  | .loop _ header body empty =>
    .loop default ⟨header.names, default, header.iterable.unplaced, header.backwards⟩
      (unplacedAll body) (unplacedAll empty)
  | .load _ => .load default
  | .route _ call =>
    .route default ⟨call.route.unplaced, call.positional.map Expression.unplaced,
      unplacedArguments call.keyword, call.target⟩
  | .call _ call =>
    .call default ⟨call.name, call.function, call.takesScope,
      call.positional.map Expression.unplaced, unplacedArguments call.keyword, call.target⟩

/-- Nodes without their places. -/
def unplacedAll : List Node → List Node
  | [] => []
  | node :: rest => node.unplaced :: unplacedAll rest

end

/-! ## Trees that can be written -/

/-- The text of an expression that is a path. -/
def Expression.pathText (e : Expression) : List Char :=
  match e.head with
  | .path _ root names => dotted root names
  | _ => []

/-- Whether an expression is a variable without filters. -/
def Expression.IsPath (e : Expression) : Prop :=
  ∃ span root names, e = ⟨.path span root names, []⟩ ∧ IsVariable root names

/-- The text of a condition that is a path. -/
def Condition.pathText : Condition Expression → List Char
  | .operand e => e.pathText
  | _ => []

/-- Whether a condition is a variable, and not written like an operator. -/
def Condition.IsPath (condition : Condition Expression) : Prop :=
  ∃ e : Expression, condition = .operand e ∧ e.IsPath ∧
    String.ofList e.pathText ∉ Condition.wordOperators

namespace LoopHeader

/-- The text of a loop header. -/
def written (header : LoopHeader) : List Char :=
  match header.names with
  | [] => []
  | name :: others =>
    listed name others ++ ' ' :: ("in ".toList ++
      (header.iterable.pathText ++ directionText header.backwards))

/-- A loop header that can be written: it has names, none of which is the word `in`, and runs over a
variable. -/
structure Printable (header : LoopHeader) : Prop where
  names_ne : header.names ≠ []
  names : ∀ name ∈ header.names, IsLoopName name
  iterable : header.iterable.IsPath

end LoopHeader

/-- The word that switches escaping. -/
def switchText (enabled : Bool) : List Char := if enabled then ['o', 'n'] else ['o', 'f', 'f']

/-- The second part of a block behind the tag that divides it; nothing if the part has no nodes. -/
def divided (tag : String) (nodes : List Node) (text : List Char) : List Char :=
  if nodes.isEmpty then [] else tagText tag [] ++ text

mutual

/-- **The text of a node.** -/
def Node.written : Node → List Char
  | .text _ text => text.toList
  | .output _ e => TokenKind.interpolation.enclose (' ' :: (e.pathText ++ [' ']))
  | .autoescape _ enabled body =>
    tagText "autoescape" (switchText enabled) ++ (writtenAll body ++ tagText "endautoescape" [])
  | .choice _ condition truthy falsey =>
    tagText "if" condition.pathText ++
      (writtenAll truthy ++ (divided "else" falsey (writtenAll falsey) ++ tagText "endif" []))
  | .loop _ header body empty =>
    tagText "for" header.written ++
      (writtenAll body ++ (divided "empty" empty (writtenAll empty) ++ tagText "endfor" []))
  | _ => []

/-- The texts of nodes, one behind the other. -/
def writtenAll : List Node → List Char
  | [] => []
  | node :: rest => node.written ++ writtenAll rest

end

/-- Whether a node is a text. -/
def Node.isText : Node → Bool
  | .text .. => true
  | _ => false

mutual

/-- **A node that can be written:** a text without braces, a variable, or a block of such nodes. -/
def Node.Printable : Node → Prop
  | .text _ text => text.toList ≠ [] ∧ '{' ∉ text.toList
  | .output _ e => e.IsPath
  | .autoescape _ _ body => AllPrintable body
  | .choice _ condition truthy falsey =>
    condition.IsPath ∧ AllPrintable truthy ∧ AllPrintable falsey
  | .loop _ header body empty => header.Printable ∧ AllPrintable body ∧ AllPrintable empty
  | _ => False

/-- Nodes that can be written, no two texts of them next to each other. -/
def AllPrintable : List Node → Prop
  | [] => True
  | node :: rest =>
    node.Printable ∧ (node.isText → ∀ next ∈ rest.head?, next.isText = false) ∧ AllPrintable rest

end

variable {c c' : Compiler} {start : Nat} {rest : List Char}

/-! ## Nodes that are added -/

namespace Compiler

/-- Nothing else of a compiler is changed by a node. -/
theorem source_add (c : Compiler) (node : Node) :
    (c.add node).source = c.source ∧ (c.add node).verbatim = c.verbatim := by
  unfold add
  split <;> exact ⟨rfl, rfl⟩

/-- Nodes that are added to a part that has just been opened are its nodes. -/
theorem foldl_add_enter (c : Compiler) (part : Part) (nodes : List Node) :
    nodes.foldl add (c.enter part) = { c with frames := ⟨part, nodes.reverse⟩ :: c.frames } := by
  rw [foldl_add_of_frames rfl, List.append_nil]
  rfl

end Compiler

/-! ## Tags -/

theorem isTagName_of_mem {name : String} (h : name ∈ ["if", "else", "endif", "for", "empty",
    "endfor", "autoescape", "endautoescape"]) : IsTagName name := by
  simp only [List.mem_cons, List.not_mem_nil, or_false] at h
  rcases h with rfl | rfl | rfl | rfl | rfl | rfl | rfl | rfl <;>
    decide +kernel

theorem trimmed_switchText (enabled : Bool) : Trimmed (switchText enabled) := by
  cases enabled <;> exact ⟨by rintro _ ⟨⟩; rfl, by rintro _ ⟨⟩; rfl⟩

theorem endsText_tagText (name : String) (parts rest : List Char) :
    EndsText (tagText name parts ++ rest) :=
  TokenKind.endsText_enclose (by decide) _ rest

/-- A tag ends a text in front of the second part of a block, or of its end. -/
theorem endsText_divided (tag name : String) (nodes : List Node) (text rest : List Char) :
    EndsText (divided tag nodes text ++ tagText name [] ++ rest) := by
  unfold divided
  split
  · exact endsText_tagText name [] rest
  · rw [List.append_assoc, List.append_assoc]
    exact endsText_tagText tag [] _

/-- A tag without parts. -/
theorem Compiler.advances_end {name : String} (hv : c.verbatim = none) (hname : IsTagName name)
    (hreads : (⟨start, tagText name []⟩ : Cursor).Reads c.source) (rest : List Char)
    (h : ∀ parts, c.Tagged ⟨.tag, start, (tagText name []).length⟩ name parts →
      c.Takes ⟨.tag, start, (tagText name []).length⟩ c') :
    c.Advances start (tagText name []) rest c' :=
  advances_tagText hv hname trimmed_nil List.not_mem_nil List.not_mem_nil
    (h _ (tagged_tagText hname trimmed_nil hreads).1) rest

/-! ## Nodes -/

/-- A node is **read back** where it is written: a compiler adds the same node to what it has. -/
def Node.ReadBack (node : Node) : Prop :=
  ∀ {c : Compiler} {start : Nat} {rest : List Char}, c.verbatim = none →
    (⟨start, node.written⟩ : Cursor).Reads c.source → (node.isText → EndsText rest) →
    ∃ made : Node, made.unplaced = node.unplaced ∧ c.Advances start node.written rest (c.add made)

/-- So are nodes one behind the other. -/
def AllReadBack (nodes : List Node) : Prop :=
  ∀ {c : Compiler} {start : Nat} {rest : List Char}, c.verbatim = none →
    (⟨start, writtenAll nodes⟩ : Cursor).Reads c.source → EndsText rest →
    ∃ made : List Node, unplacedAll made = unplacedAll nodes ∧
      c.Advances start (writtenAll nodes) rest (made.foldl Compiler.add c)

/-- The nodes of a part that has just been opened. -/
theorem AllReadBack.enter {nodes : List Node} (h : AllReadBack nodes) (part : Part)
    (hv : c.verbatim = none) (hreads : (⟨start, writtenAll nodes⟩ : Cursor).Reads c.source)
    (hrest : EndsText rest) :
    ∃ made : List Node, unplacedAll made = unplacedAll nodes ∧
      (c.enter part).Advances start (writtenAll nodes) rest
        { c with frames := ⟨part, made.reverse⟩ :: c.frames } := by
  have hentered : (c.enter part).verbatim = none := hv
  obtain ⟨made, hmade, hadvances⟩ := h hentered hreads hrest
  refine ⟨made, hmade, ?_⟩
  rwa [Compiler.foldl_add_enter] at hadvances

/-- **The second part of a block and its end.** `d` has read the first part. The tag that divides the
block opens the second part in `c`; the end adds the node of the block to `c`, which holds what has
been read of the second part. -/
theorem AllReadBack.second {nodes : List Node} (h : AllReadBack nodes) {tag name : String}
    {d : Compiler} (part : Span → Part) (block : List Node → Node) (htag : IsTagName tag)
    (hname : IsTagName name) (hv : c.verbatim = none) (hv' : d.verbatim = none)
    (hsource : d.source = c.source)
    (hreads : (⟨start, divided tag nodes (writtenAll nodes) ++ tagText name []⟩ : Cursor).Reads
      c.source)
    (hend : ∀ t parts, d.Tagged t name parts → d.Takes t (c.add (block [])))
    (hdivide : ∀ t parts, d.Tagged t tag parts → d.Takes t (c.enter (part t.span)))
    (hend' : ∀ span made t parts,
      ({ c with frames := ⟨part span, made.reverse⟩ :: c.frames } : Compiler).Tagged t name parts →
      ({ c with frames := ⟨part span, made.reverse⟩ :: c.frames } : Compiler).Takes t
        (c.add (block made))) (rest : List Char) :
    ∃ made : List Node, unplacedAll made = unplacedAll nodes ∧
      d.Advances start (divided tag nodes (writtenAll nodes) ++ tagText name []) rest
        (c.add (block made)) := by
  unfold divided at hreads ⊢
  cases nodes with
  | nil =>
    rw [← hsource] at hreads
    exact ⟨[], rfl, Compiler.advances_end hv' hname hreads rest fun parts ht => hend _ parts ht⟩
  | cons node nodes =>
    simp only [List.isEmpty_cons, Bool.false_eq_true, if_false, List.append_assoc] at hreads ⊢
    obtain ⟨hdividing, hlater⟩ := hreads.append
    obtain ⟨hinner, hending⟩ := hlater.append
    rw [← hsource] at hdividing
    have hdivides := Compiler.advances_end hv' htag hdividing
      (writtenAll (node :: nodes) ++ tagText name [] ++ rest) fun parts ht => hdivide _ parts ht
    obtain ⟨made, hmade, hread⟩ := h.enter (part ⟨start, (tagText tag []).length⟩) hv hinner
      (endsText_tagText name [] rest)
    refine ⟨made, hmade, hdivides.trans (hread.trans ?_)⟩
    refine Compiler.advances_end ?_ hname ?_ rest fun parts ht => hend' _ made _ parts ht
    · exact hv
    · exact hending

namespace Node

theorem readBack_text {span : Span} {text : String} (hne : text.toList ≠ [])
    (hbrace : '{' ∉ text.toList) : (Node.text span text).ReadBack := by
  intro c start rest hv hreads hrest
  refine ⟨.text ⟨start, text.toList.length⟩ text, rfl, ?_⟩
  have hcontent : Token.content c.source ⟨.text, start, text.toList.length⟩ = text.toList :=
    hreads.slice_eq
  refine Compiler.advances_of_takes hv (Token.scanFrom_plain hne hbrace (hrest rfl) start) ?_
  have htakes := Compiler.Takes.text (c := c) (t := ⟨.text, start, text.toList.length⟩) rfl
  rwa [hcontent, String.ofList_toList] at htakes

theorem readBack_output {span : Span} {e : Expression} (h : e.IsPath) :
    (Node.output span e).ReadBack := by
  obtain ⟨place, root, names, rfl, hpath⟩ := h
  intro c start rest hv hreads _
  have hkind : TokenKind.interpolation ≠ .text := by decide
  obtain ⟨hcontent, hbody⟩ := Token.content_enclose hkind hreads
  have hpadded : (⟨start + 2, [' '] ++ (dotted root names ++ [' '])⟩ : Cursor).Reads
      c.reader.source := hbody
  let span : Span := ⟨start, (TokenKind.interpolation.enclose
    (' ' :: (dotted root names ++ [' ']))).length⟩
  obtain ⟨place', hchain⟩ := hpath.chain_padded (show allBlank [' '] from rfl)
    (show allBlank [' '] from rfl) span hpadded
  have hno (d : Char) (hd : isNameChar d = false) (hdot : d ≠ '.') (hblank : d ≠ ' ') :
      d ∉ ' ' :: (dotted root names ++ [' ']) := by
    simp [hpath.not_mem hd hdot, hblank]
  have hscan := Token.scanFrom_delimited hkind (hno '}' (by decide +kernel) (by decide) (by decide))
    (hno '\n' (by decide +kernel) (by decide) (by decide)) nofun start rest
  have hread : c.reader.chain (Token.content c.source ⟨.interpolation, span⟩) span (start + 2) =
      .ok ⟨.path place' root names, []⟩ := by
    rw [← hchain]
    exact congrArg (c.reader.chain · span (start + 2)) hcontent
  exact ⟨.output span ⟨.path place' root names, []⟩, rfl,
    Compiler.advances_of_takes hv hscan (.output rfl hread)⟩

theorem readBack_autoescape {span : Span} {enabled : Bool} {body : List Node}
    (hbody : AllReadBack body) : (Node.autoescape span enabled body).ReadBack := by
  intro c start rest hv hreads _
  obtain ⟨hopening, hlater⟩ := hreads.append
  obtain ⟨hinner, hending⟩ := hlater.append
  have hname := isTagName_of_mem (show "autoescape" ∈ _ by decide)
  have hend := isTagName_of_mem (show "endautoescape" ∈ _ by decide)
  obtain ⟨htagged, hparts⟩ := Compiler.tagged_tagText hname (trimmed_switchText enabled) hopening
  let tag : Span := ⟨start, (tagText "autoescape" (switchText enabled)).length⟩
  have hswitch : SwitchWord.read c.source
      ⟨partsStart start "autoescape" (switchText enabled), (switchText enabled).length⟩ =
      .ok ⟨⟨partsStart start "autoescape" (switchText enabled), (switchText enabled).length⟩,
        enabled⟩ := by
    unfold SwitchWord.read
    rw [hparts.slice_eq]
    cases enabled <;> rfl
  have hopens := Compiler.advances_tagText hv hname (trimmed_switchText enabled)
    (by cases enabled <;> decide) (by cases enabled <;> decide) (.autoescape htagged hswitch)
    (writtenAll body ++ tagText "endautoescape" [] ++ rest)
  obtain ⟨made, hmade, hread⟩ := hbody.enter (.autoescape tag enabled) hv hinner
    (endsText_tagText "endautoescape" [] rest)
  refine ⟨.autoescape tag enabled made, ?_, hopens.trans (hread.trans ?_)⟩
  · simp only [unplaced, hmade]
  · refine Compiler.advances_end ?_ hend ?_ rest fun parts htagged => ?_
    · exact hv
    · exact hending
    · have htakes := Compiler.Takes.endAutoescape htagged rfl
      rwa [List.reverse_reverse] at htakes

theorem readBack_choice {span : Span} {condition : Condition Expression} {truthy falsey : List Node}
    (hcondition : condition.IsPath) (htruthy : AllReadBack truthy) (hfalsey : AllReadBack falsey) :
    (Node.choice span condition truthy falsey).ReadBack := by
  obtain ⟨e, rfl, ⟨place, root, names, rfl, hpath⟩, hword⟩ := hcondition
  intro c start rest hv hreads _
  obtain ⟨hopening, hlater⟩ := hreads.append
  obtain ⟨hinner, hlater⟩ := hlater.append
  have hname := isTagName_of_mem (show "if" ∈ _ by decide)
  obtain ⟨htagged, hparts⟩ := Compiler.tagged_tagText hname hpath.trimmed hopening
  let tag : Span := ⟨start, (tagText "if" (dotted root names)).length⟩
  obtain ⟨place', hread⟩ := hpath.condition_dotted (r := c.reader) hword tag hparts
  let condition : Condition Expression := .operand ⟨.path place' root names, []⟩
  have hopens := Compiler.advances_tagText hv hname hpath.trimmed
    (hpath.not_mem (by decide +kernel) (by decide)) (hpath.not_mem (by decide +kernel) (by decide))
    (.choice htagged hread) (writtenAll truthy ++ (divided "else" falsey (writtenAll falsey) ++
      tagText "endif" []) ++ rest)
  obtain ⟨made, hmade, hbody⟩ := htruthy.enter (.branch [] "if" tag condition) hv hinner
    (endsText_divided "else" "endif" falsey (writtenAll falsey) rest)
  obtain ⟨made', hmade', hsecond⟩ := hfalsey.second
    (d := { c with frames := ⟨.branch [] "if" tag condition, made.reverse⟩ :: c.frames })
    (.otherwise [⟨tag, condition, made⟩]) (.choice tag condition made)
    (isTagName_of_mem (show "else" ∈ _ by decide)) (isTagName_of_mem (show "endif" ∈ _ by decide))
    hv hv rfl hlater
    (fun t parts ht => by
      have htakes := Compiler.Takes.endBranch ht rfl
      rwa [List.reverse_reverse] at htakes)
    (fun t parts ht => by
      have htakes := Compiler.Takes.otherwise ht rfl
      rwa [List.reverse_reverse] at htakes)
    (fun place made' t parts ht => by
      have htakes := Compiler.Takes.endOtherwise ht rfl
      rwa [List.reverse_reverse] at htakes) rest
  refine ⟨.choice tag condition made made', ?_, hopens.trans (hbody.trans hsecond)⟩
  simp only [unplaced, hmade, hmade']
  rfl

theorem readBack_loop {span : Span} {header : LoopHeader} {body empty : List Node}
    (hheader : header.Printable) (hbody : AllReadBack body) (hempty : AllReadBack empty) :
    (Node.loop span header body empty).ReadBack := by
  obtain ⟨names, namesSpan, iterable, backwards⟩ := header
  obtain ⟨hne, hnames, ⟨place, root, segments, hiterable, hpath⟩⟩ := hheader
  cases hiterable
  cases names with
  | nil => exact absurd rfl hne
  | cons name others =>
    obtain ⟨hfirst, hothers⟩ := List.forall_mem_cons.1 hnames
    intro c start rest hv hreads _
    obtain ⟨hopening, hlater⟩ := hreads.append
    obtain ⟨hinner, hlater⟩ := hlater.append
    have hname := isTagName_of_mem (show "for" ∈ _ by decide)
    have htrimmed := trimmed_headerText hfirst hpath others backwards
    obtain ⟨htagged, hparts⟩ := Compiler.tagged_tagText hname htrimmed hopening
    obtain ⟨hcloser, hline⟩ := not_mem_headerText hfirst hothers hpath backwards
    let tag : Span := ⟨start, (tagText "for" (headerText name others root segments backwards)).length⟩
    obtain ⟨namesSpan', place', hread⟩ :=
      loopHeader_headerText (r := c.reader) hfirst hothers hpath backwards tag hparts
    let made : LoopHeader := ⟨name :: others, namesSpan', ⟨.path place' root segments, []⟩, backwards⟩
    have hopens := Compiler.advances_tagText hv hname htrimmed hcloser hline (.loop htagged hread)
      (writtenAll body ++ (divided "empty" empty (writtenAll empty) ++ tagText "endfor" []) ++ rest)
    obtain ⟨rounds, hrounds, hbody⟩ := hbody.enter (.loop tag made) hv hinner
      (endsText_divided "empty" "endfor" empty (writtenAll empty) rest)
    obtain ⟨instead, hinstead, hsecond⟩ := hempty.second
      (d := { c with frames := ⟨.loop tag made, rounds.reverse⟩ :: c.frames })
      (.empty tag made rounds) (.loop tag made rounds)
      (isTagName_of_mem (show "empty" ∈ _ by decide))
      (isTagName_of_mem (show "endfor" ∈ _ by decide)) hv hv rfl hlater
      (fun t parts ht => by
        have htakes := Compiler.Takes.endLoop ht rfl
        rwa [List.reverse_reverse] at htakes)
      (fun t parts ht => by
        have htakes := Compiler.Takes.empty ht rfl
        rwa [List.reverse_reverse] at htakes)
      (fun place instead t parts ht => by
        have htakes := Compiler.Takes.endEmpty ht rfl
        rwa [List.reverse_reverse] at htakes) rest
    refine ⟨.loop tag made rounds instead, ?_, hopens.trans (hbody.trans hsecond)⟩
    simp only [unplaced, hrounds, hinstead]
    rfl

end Node

/-! ## Trees -/

/-- In front of a node that is no text, and at the end, a text ends. -/
theorem endsText_writtenAll {nodes : List Node} (h : AllPrintable nodes)
    (hnext : ∀ next ∈ nodes.head?, next.isText = false) (hrest : EndsText rest) :
    EndsText (writtenAll nodes ++ rest) := by
  cases nodes with
  | nil => exact hrest
  | cons node nodes =>
    have hno := hnext node rfl
    have hnode := h.1
    rw [writtenAll, List.append_assoc]
    cases node with
    | text _ _ => cases hno
    | output _ e =>
      rw [Node.written]
      exact TokenKind.endsText_enclose (by decide) _ _
    | autoescape _ _ _ | choice _ _ _ _ | loop _ _ _ _ =>
      rw [Node.written, List.append_assoc]
      exact endsText_tagText _ _ _
    | translated _ _ | load _ | route _ _ | call _ _ => exact absurd hnode id

mutual

/-- **A node is read back** from its text. -/
theorem Node.readBack (node : Node) (h : node.Printable) : node.ReadBack := by
  cases node with
  | text _ _ => exact Node.readBack_text h.1 h.2
  | output _ _ => exact Node.readBack_output h
  | autoescape _ _ body => exact Node.readBack_autoescape (allReadBack body h)
  | choice _ _ truthy falsey =>
    obtain ⟨hcondition, htruthy, hfalsey⟩ := h
    exact Node.readBack_choice hcondition (allReadBack truthy htruthy) (allReadBack falsey hfalsey)
  | loop _ _ body empty =>
    obtain ⟨hheader, hbody, hempty⟩ := h
    exact Node.readBack_loop hheader (allReadBack body hbody) (allReadBack empty hempty)
  | translated _ _ | load _ | route _ _ | call _ _ => exact absurd h id

/-- So are nodes one behind the other. -/
theorem allReadBack (nodes : List Node) (h : AllPrintable nodes) : AllReadBack nodes := by
  intro c start rest hv hreads hrest
  cases nodes with
  | nil => exact ⟨[], rfl, rfl⟩
  | cons node nodes =>
    obtain ⟨hnode, hnext, hnodes⟩ := h
    obtain ⟨hfirst, hlater⟩ := hreads.append
    obtain ⟨made, hmade, hadvances⟩ := node.readBack hnode hv hfirst fun htext =>
      endsText_writtenAll hnodes (hnext htext) hrest
    obtain ⟨hsource, hverbatim⟩ := c.source_add made
    rw [← hsource] at hlater
    obtain ⟨others, hothers, hadvances'⟩ :=
      allReadBack nodes hnodes (hverbatim.trans hv) hlater hrest
    refine ⟨made :: others, ?_, hadvances.trans hadvances'⟩
    simp only [unplacedAll, hmade, hothers]

end

/-- **A tree comes back** from its text, but for its places: whatever can be written is compiled, to
the same nodes. -/
theorem compile_written {nodes : List Node} (h : AllPrintable nodes)
    (libraries : List (String × Library)) :
    ∃ made, compile (writtenAll nodes) libraries = .ok made ∧
      unplacedAll made = unplacedAll nodes := by
  let c : Compiler := { source := writtenAll nodes, libraries := libraries }
  have hreads : (⟨0, writtenAll nodes⟩ : Cursor).Reads c.source :=
    ⟨Nat.zero_le _, List.prefix_rfl⟩
  have hend : EndsText [] := .inl rfl
  obtain ⟨made, hmade, hadvances⟩ := allReadBack nodes h (c := c) rfl hreads hend
  refine ⟨made, ?_, hmade⟩
  have hrun : (Token.scan (writtenAll nodes)).foldlM Compiler.step c =
      .ok { c with nodes := made.reverse ++ c.nodes } := by
    rw [Compiler.Advances, List.append_nil, Token.scanFrom_nil,
      Compiler.foldl_add_of_nil (show c.frames = [] from rfl)] at hadvances
    exact hadvances
  have hfinish : ({ c with nodes := made.reverse ++ c.nodes } : Compiler).finish = .ok made := by
    simp only [Compiler.finish, c, List.append_nil, List.reverse_reverse]
  rw [compile, hrun]
  exact hfinish

/-- A loop with a condition in its body, and a block without escaping in its other branch. -/
def rows : List Node :=
  [.text default "A\n",
    .loop default ⟨["k", "v"], default, ⟨.path default "rows" ["0"], []⟩, true⟩
      [.choice default (.operand ⟨.path default "v" [], []⟩)
        [.output default ⟨.path default "k" [], []⟩] [.text default "-"]]
      [.autoescape default false [.output default ⟨.path default "none" ["a"], []⟩]]]

theorem compile_written_rows :
    AllPrintable rows ∧
      String.ofList (writtenAll rows) =
        "A\n{% for k, v in rows.0 reversed %}{% if v %}{{ k }}{% else %}-{% endif %}" ++
        "{% empty %}{% autoescape off %}{{ none.a }}{% endautoescape %}{% endfor %}" ∧
      ∃ made, compile (writtenAll rows) [] = .ok made ∧ unplacedAll made = unplacedAll rows := by
  have hpath (root : String) (names : List String) (hroot : root ∈ ["rows", "v", "k", "none"])
      (hnames : ∀ name ∈ names, IsSegment name) :
      Expression.IsPath ⟨.path default root names, []⟩ := by
    simp only [List.mem_cons, List.not_mem_nil, or_false] at hroot
    have hsegment : IsSegment root := by
      rcases hroot with rfl | rfl | rfl | rfl <;> decide +kernel
    have hdigit : ∀ d ∈ root.toList.head?, isDigit d = false := by
      rcases hroot with rfl | rfl | rfl | rfl <;>
      · rintro _ ⟨⟩
        rfl
    have hne : root ≠ "forloop" := by
      rcases hroot with rfl | rfl | rfl | rfl <;> decide
    exact ⟨default, root, names, rfl, ⟨hsegment, hnames, hdigit⟩, hne⟩
  have hchoice : AllPrintable [.choice default (.operand ⟨.path default "v" [], []⟩)
      [.output default ⟨.path default "k" [], []⟩] [.text default "-"]] := by
    refine ⟨⟨⟨_, rfl, hpath "v" [] (by decide) nofun, by decide⟩, ⟨?_, nofun, trivial⟩, ?_⟩, nofun,
      trivial⟩
    · exact hpath "k" [] (by decide) nofun
    · exact ⟨⟨by decide, by decide⟩, nofun, trivial⟩
  have hempty : AllPrintable
      [.autoescape default false [.output default ⟨.path default "none" ["a"], []⟩]] :=
    ⟨⟨hpath "none" ["a"] (by decide) (by decide +kernel), nofun, trivial⟩, nofun, trivial⟩
  have hheader : LoopHeader.Printable
      ⟨["k", "v"], default, ⟨.path default "rows" ["0"], []⟩, true⟩ := by
    refine ⟨nofun, ?_, hpath "rows" ["0"] (by decide) (by decide +kernel)⟩
    exact List.forall_mem_cons.2 ⟨⟨by decide +kernel, by decide⟩,
      List.forall_mem_cons.2 ⟨⟨by decide +kernel, by decide⟩, nofun⟩⟩
  have hprintable : AllPrintable rows :=
    ⟨⟨by decide, by decide⟩, fun _ next hnext => by cases hnext; rfl, ⟨hheader, hchoice, hempty⟩,
      nofun, trivial⟩
  refine ⟨hprintable, ?_, compile_written hprintable []⟩
  decide +kernel

end Galley
