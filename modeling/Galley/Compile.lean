import Galley.Compile.Tag
import Galley.Token
import Galley.Words.Load
import Galley.Words.Switch
import Galley.Words.TagName

/-!
# Compiling templates

The tokens of a template are read from left to right. A `Compiler` holds what has been read: the
nodes, and the parts of blocks that are still open, innermost first. A tag that an open part awaits
closes it; any other tag adds a node or opens a part.

* `Part`: what can be open, and the tags that it awaits.
* `Compiler.step`, `Compiler.finish`: one token; the end of the template.
* `compile`: the nodes of a template.
-/

namespace Galley

/-- A branch of a condition that has been read. -/
structure Branch where
  span : Span
  condition : Condition Expression
  body : List Node

/-- A part of a block that is still open. -/
inductive Part where
  /-- A branch with a condition, after other branches; its tag is named `if` or `elif`. -/
  | branch (earlier : List Branch) (name : String) (span : Span) (condition : Condition Expression)
  | otherwise (earlier : List Branch) (span : Span)
  | loop (span : Span) (header : LoopHeader)
  /-- What stands for a loop without rounds. -/
  | empty (loop : Span) (header : LoopHeader) (body : List Node) (span : Span)
  | autoescape (span : Span) (enabled : Bool)

namespace Part

/-- The name of the tag that opened a part. -/
def name : Part → String
  | branch _ name _ _ => name
  | otherwise .. => "else"
  | loop .. => "for"
  | empty .. => "empty"
  | autoescape .. => "autoescape"

/-- The place of the tag that opened a part. -/
def span : Part → Span
  | branch _ _ s _ | otherwise _ s | loop s _ | empty _ _ _ s | autoescape s _ => s

/-- The names of the tags that close a part. -/
def awaited : Part → List String
  | branch .. => ["elif", "else", "endif"]
  | otherwise .. => ["endif"]
  | loop .. => ["empty", "endfor"]
  | empty .. => ["endfor"]
  | autoescape .. => ["endautoescape"]

/-- Those names as they are shown. -/
def expected (p : Part) : String := ", ".intercalate p.awaited

/-- Whether a part is the body of a loop. -/
def isLoop : Part → Bool
  | loop .. => true
  | _ => false

end Part

/-- An open part with the nodes read for it, the latest first. -/
structure Frame where
  part : Part
  nodes : List Node

/-- A verbatim block that is still open: its tag, and the last text read in it. -/
structure Verbatim where
  tag : Span
  span : Span
  text : List Char

/-- What has been read of a template. -/
structure Compiler where
  source : List Char
  libraries : List (String × Library)
  /-- The filters that have been loaded, the latest first. -/
  filters : List (String × Function) := []
  /-- The tags that have been loaded with the places they were loaded at, the latest first. -/
  tags : List (String × LoadedTag × Span) := []
  /-- The nodes outside of all blocks, the latest first. -/
  nodes : List Node := []
  /-- The open parts, the innermost first. -/
  frames : List Frame := []
  verbatim : Option Verbatim := none

namespace Compiler

/-- What is known to the expressions of the next tag. -/
def reader (c : Compiler) : Reader :=
  { source := c.source, filters := c.filters, loopDepth := c.frames.countP (·.part.isLoop) }

/-- Adds a node to the innermost part. -/
def add (c : Compiler) (node : Node) : Compiler :=
  match c.frames with
  | [] => { c with nodes := node :: c.nodes }
  | frame :: rest => { c with frames := { frame with nodes := node :: frame.nodes } :: rest }

/-- Opens a part. -/
def enter (c : Compiler) (part : Part) : Compiler := { c with frames := ⟨part, []⟩ :: c.frames }

/-- The nested conditions of a chain of branches. -/
def chainOf (branches : List Branch) (otherwise : List Node) : List Node :=
  branches.foldr (fun b rest => [.choice b.span b.condition b.body rest]) otherwise

/-- Adds the nodes of a chain of branches. -/
def addChain (c : Compiler) (branches : List Branch) (otherwise : List Node) : Compiler :=
  (chainOf branches otherwise).foldl add c

/-- **Closes the innermost part** by a tag that it awaits: the block ends, or its next part opens.
`rest` are the parts around it. -/
def close (c : Compiler) (frame : Frame) (rest : List Frame) (name : String) (span parts : Span) :
    Except TemplateError Compiler :=
  let c := { c with frames := rest }
  let body := frame.nodes.reverse
  match frame.part with
  | .branch earlier _ tag condition =>
    let branches := earlier ++ [⟨tag, condition, body⟩]
    if name = "elif" then do
      return c.enter (.branch branches name span (← c.reader.condition span parts))
    else if name = "else" then .ok (c.enter (.otherwise branches span))
    else .ok (c.addChain branches [])
  | .otherwise branches _ => .ok (c.addChain branches body)
  | .loop tag header =>
    if name = "empty" then .ok (c.enter (.empty tag header body span))
    else .ok (c.add (.loop tag header body []))
  | .empty tag header loopBody _ => .ok (c.add (.loop tag header loopBody body))
  | .autoescape tag enabled => .ok (c.add (.autoescape tag enabled body))

/-- The library with a name. -/
def library (c : Compiler) (name : String) (span : Span) : Except TemplateError Library :=
  match c.libraries.lookup name with
  | some library => .ok library
  | none =>
    let known := (c.libraries.map (·.1)).mergeSort fun a b => !(b < a)
    .error (.here (.unknownLibrary name known) span)

/-- Brings in a filter. -/
def loadFilter (c : Compiler) (name : String) (f : Function) : Compiler :=
  { c with filters := (name, f) :: c.filters }

/-- Brings in a tag. -/
def loadTag (c : Compiler) (span : Span) (name : String) (tag : LibraryTag) : Compiler :=
  { c with tags := (name, ⟨name, tag⟩, span) :: c.tags }

/-- Brings in one tag or filter of a library, or both if it has both under the name. -/
def loadMember (library : Library) (libraryName : String) (librarySpan : Span) (c : Compiler)
    (span : Span) : Except TemplateError Compiler :=
  let name := c.reader.textAt span
  match library.filters.lookup name, library.tags.lookup name with
  | none, none => .error (.here (.unknownMember name libraryName librarySpan) span)
  | some f, none => .ok (c.loadFilter name f)
  | none, some tag => .ok (c.loadTag span name tag)
  | some f, some tag => .ok ((c.loadFilter name f).loadTag span name tag)

/-- Brings in everything of the library that a word names. -/
def loadLibrary (c : Compiler) (span : Span) : Except TemplateError Compiler := do
  let library ← c.library (c.reader.textAt span) span
  let c := library.filters.foldl (fun c entry => c.loadFilter entry.1 entry.2) c
  return library.tags.foldl (fun c entry => c.loadTag span entry.1 entry.2) c

/-- **Loads** what the words of a `load` tag name: whole libraries, or members from one library. -/
def load (c : Compiler) (parts : Span) : Except TemplateError Compiler :=
  let words := LoadWord.all c.source parts
  match words.reverse with
  | librarySpan :: from_ :: member :: members =>
    if from_.slice c.source = "from".toList then do
      let name := c.reader.textAt librarySpan
      let library ← c.library name librarySpan
      (member :: members).reverse.foldlM (loadMember library name librarySpan) c
    else words.foldlM loadLibrary c
  | _ => words.foldlM loadLibrary c

/-- A tag that is neither awaited nor known. -/
def unknownTag (c : Compiler) (name : String) (span : Span) : TemplateError :=
  match c.frames with
  | [] => .here (.unexpectedTag name) span
  | frame :: _ => .here (.wrongEndTag name frame.part.expected frame.part.span) span

/-- A tag that no open part awaits. -/
def openTag (c : Compiler) (name : String) (span parts : Span) : Except TemplateError Compiler :=
  match name with
  | "autoescape" => do
    return c.enter (.autoescape span (← SwitchWord.read c.source parts).enabled)
  | "for" => do return c.enter (.loop span (← c.reader.loopHeader span parts))
  | "if" => do return c.enter (.branch [] name span (← c.reader.condition span parts))
  | "load" => do return (← c.load parts).add (.load span)
  | "url" => do return c.add (.route span (← c.reader.routeCall span parts))
  | "verbatim" =>
    let content := Text.trim (Token.content c.source ⟨.tag, span⟩)
    if Token.opensVerbatim content then
      .ok { c with verbatim := some ⟨span, ⟨span.stop, 0⟩, []⟩ }
    else .error (.here .invalidVerbatim span)
  | _ =>
    match c.tags.lookup name with
    | some (tag, loaded) => do return c.add (.call span (← c.reader.tagCall tag loaded span parts))
    | none => .error (c.unknownTag name span)

/-- A tag. The one that the innermost part awaits closes it, whatever else it could mean. -/
def tag (c : Compiler) (token : Token) : Except TemplateError Compiler := do
  match ← TagWords.read? (token.content c.source) (token.span.start + 2) with
  | none => throw (.here .emptyTag token.span)
  | some words =>
    let name := c.reader.textAt words.name
    match c.frames with
    | frame :: rest =>
      if frame.part.awaited.contains name then c.close frame rest name token.span words.parts
      else c.openTag name token.span words.parts
    | [] => c.openTag name token.span words.parts

/-- A variable in the text. A literal to be translated has a node of its own. -/
def output (c : Compiler) (token : Token) : Except TemplateError Compiler := do
  let e ← c.reader.chain (token.content c.source) token.span (token.span.start + 2)
  match e with
  | ⟨.translated _ text, []⟩ => return c.add (.translated token.span text)
  | e => return c.add (.output token.span e)

/-- **One token.** In a verbatim block a tag ends the block, and the text before it is kept. -/
def step (c : Compiler) (token : Token) : Except TemplateError Compiler :=
  match c.verbatim with
  | some block =>
    if token.kind = .tag then
      .ok ({ c with verbatim := none }.add (.text block.span (String.ofList block.text)))
    else
      .ok { c with
        verbatim := some { block with span := token.span, text := token.content c.source } }
  | none =>
    match token.kind with
    | .text => .ok (c.add (.text token.span (String.ofList (token.content c.source))))
    | .comment => .ok c
    | .interpolation => c.output token
    | .tag => c.tag token

/-- The end of the template. Everything has to be closed. -/
def finish (c : Compiler) : Except TemplateError (List Node) :=
  match c.verbatim, c.frames with
  | some block, _ => .error (.here (.missingEndTag "verbatim" "endverbatim") block.tag)
  | none, frame :: _ =>
    .error (.here (.missingEndTag frame.part.name frame.part.expected) frame.part.span)
  | none, [] => .ok c.nodes.reverse

end Compiler

/-- **The nodes of a template** whose `load` tags find the given libraries. -/
def compile (source : List Char) (libraries : List (String × Library)) :
    Except TemplateError (List Node) := do
  let c ← (Token.scan source).foldlM Compiler.step { source, libraries }
  c.finish

end Galley
