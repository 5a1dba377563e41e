import Galley.Text.Search
import Galley.Value.Iterate
import Galley.Value.Member

/-!
# Loading template texts

Templates are found by name. A loader knows where to look: in folders, in the memory of the
application, or where other loaders look. Loaders are configured by values that name them and give
them arguments.

* `Folder.read?`: the file of a folder that a name means.
* `Loader.sources`: the places where a loader looks for a name.
* `Search.through`: the first text that is found.
* `LoaderCatalogue.loaders`: the loaders that a configuration asks for.
-/

namespace Galley

/-- A folder of template files; the paths of the files are relative to it. -/
structure Folder where
  path : String
  files : List (String × String)

/-- A kind of loader. -/
inductive LoaderKind where
  /-- Looks in the folders it is given, else in those of the engine. -/
  | folders
  /-- Looks in the folders of installed applications, of which there are none. -/
  | applications
  /-- Looks in a dictionary. -/
  | memory
  /-- Looks where other loaders look, and remembers what they find. -/
  | cached
  /-- What all loaders have in common; it does not know where to look. -/
  | bare
deriving DecidableEq

/-- A loader. -/
inductive Loader where
  | folders (paths : Value)
  | memory (templates : Value)
  | cached (loaders : List Loader)
  | bare

/-- The parts of a path with `.` and `..` carried out, the last one first. -/
def pathParts (parts : List String) : List String → List String
  | [] => parts
  | part :: rest =>
    if part = "" || part = "." then pathParts parts rest
    else if part = ".." then pathParts parts.tail rest
    else pathParts (part :: parts) rest

/-- The parts of a path, the last one first. -/
def partsOf (base : List String) (path : String) : List String :=
  pathParts base ((Text.splitOn '/' path.toList).map String.ofList)

/-- The last part of a path. -/
def lastPart (path : String) : String :=
  String.ofList ((Text.splitOn '/' path.toList).getLast?.getD [])

/-- A place where a text may be found, by the last part of its path, and the text if it is there.
Looking there may go wrong. -/
structure TextSource where
  place : String
  text : Except HostError (Option Value)

/-- The names of charsets in which the files that there are read the same, in small letters and
without the marks between their parts. -/
def plainCharsets : List String :=
  ["utf8", "u8", "utf", "utf8sig", "utf7", "ascii", "usascii", "646", "latin1", "latin", "l1",
    "iso88591", "88591", "iso885915", "latin9", "l9", "iso88592", "latin2", "l2", "cp1250",
    "windows1250", "1250", "cp1251", "windows1251", "1251", "cp1252", "windows1252", "1252",
    "cp437", "437", "cp850", "850", "cp866", "866", "koi8r", "koi8u", "macroman", "gbk", "gb2312",
    "gb18030", "big5", "shiftjis", "sjis", "eucjp", "euckr"]

/-- The error of reading a file in a charset, if it cannot be. -/
def charsetError? (charset : Value) : Option HostError :=
  match charset with
  | .none => none
  | .text _ s =>
    let plain := (s.toList.filter (· ∉ ['-', '_', ' '])).map Char.toLower
    if plainCharsets.contains (String.ofList plain) then none
    else if plain = "utf16".toList then
      some { kind := "UnicodeError", text := "UTF-16 stream does not start with BOM" }
    else some { kind := "LookupError", text := "unknown encoding: " ++ s }
  | v =>
    some (.typeError ("open() argument 'encoding' must be str or None, not " ++ v.typeName))

namespace Folder

/-- The place that a name means in a folder, unless it leads out of the folder. -/
def source? (folder : Folder) (charset : Value) (name : String) : Option TextSource :=
  let base := partsOf [] folder.path
  let target := if name.startsWith "/" then partsOf [] name else partsOf base name
  if base.reverse.isPrefixOf target.reverse then
    let text := folder.files.lookup ("/".intercalate (target.reverse.drop base.length))
    let read (s : String) : Except HostError (Option Value) :=
      match charsetError? charset with
      | some e => .error e
      | none => .ok (some (.str s))
    some ⟨target.head?.getD "", text.elim (.ok none) read⟩
  else none

end Folder

/-- What a value that is to hold templates has under a name. -/
def Value.template (templates : Value) (name : String) : Except HostError (Option Value) :=
  let wrongIndex (kind : String) :=
    Except.error (.typeError (kind ++ " indices must be integers or slices, not str"))
  match templates with
  | .dict _ entries => .ok (lookupKey? entries (.str name))
  | .scope _ layers => .ok (lookupLayers? layers (.str name))
  | .list .. => wrongIndex "list"
  | .tuple .. => wrongIndex "tuple"
  | .bytes .. => wrongIndex "byte"
  | .range .. => wrongIndex "range"
  | .text .. => .error (.typeError "string indices must be integers, not 'str'")
  | v => .error (.typeError ("'" ++ v.typeName ++ "' object is not subscriptable"))

/-- The folders that there are, and what belongs to finding a text in them. -/
structure Shelf where
  folders : List Folder
  charset : Value

namespace Shelf

/-- The folder at a path; one that is not known is empty. -/
def folder (s : Shelf) (path : String) : Folder :=
  (s.folders.find? (·.path = path)).getD ⟨path, []⟩

/-- The place that a name means in the folder at a path. -/
def source? (s : Shelf) (name : String) (path : Value) : Option (Except HostError TextSource) :=
  match path with
  | .text _ path => ((s.folder path).source? s.charset name).map .ok
  | .bytes .. => some (.error (.typeError "Can't mix strings and bytes in path components"))
  | v =>
    some (.error (.typeError ("expected str, bytes or os.PathLike object, not " ++ v.typeName)))

end Shelf

mutual

/-- **The places where a loader looks** for a name. An error among them ends the search. -/
def Loader.sources (shelf : Shelf) (name : String) : Loader → List (Except HostError TextSource)
  | .folders paths =>
    match paths.walk? with
    | none => [.error paths.notIterable]
    | some walk =>
      walk.items.filterMap (shelf.source? name) ++ (walk.ending.map Except.error).toList
  | .memory templates => [.ok ⟨lastPart name, templates.template name⟩]
  | .cached loaders => sourcesAll shelf name loaders
  | .bare =>
    [.error { kind := "NotImplementedError"
              text := "subclasses of BaseLoader must provide a get_template_sources() method" }]

/-- The places where loaders look for a name, one after the other. -/
def sourcesAll (shelf : Shelf) (name : String) : List Loader → List (Except HostError TextSource)
  | [] => []
  | loader :: rest => loader.sources shelf name ++ sourcesAll shelf name rest

end

/-- What a search for a text comes to: the text and its place, or all places that were tried. -/
inductive Search where
  | found (text : Value) (place : String)
  | missing (tried : List String)

/-- **A search through places,** one after the other. -/
def Search.through : List (Except HostError TextSource) → Except HostError Search
  | [] => .ok (.missing [])
  | source :: rest => do
    let source ← source
    match ← source.text with
    | some text => return .found text source.place
    | none =>
      match ← through rest with
      | .missing tried => return .missing (source.place :: tried)
      | .found text place => return .found text place

/-- The loaders that configurations can name. -/
structure LoaderCatalogue where
  kinds : List (String × LoaderKind)

namespace LoaderCatalogue

/-- The error of a configuration. -/
def improper (text : String) : HostError := { kind := "ImproperlyConfigured", text }

/-- The error of a module that is named by its place among others. -/
def relativeModule (path : String) : HostError :=
  .typeError ("the 'package' argument is required to perform a relative import for " ++
    Text.quoted path)

/-- The error of a loader that is not configured well. -/
def invalid (configuration : Value) (reason : String) : HostError :=
  match configuration.repr with
  | .ok shown => improper ("Invalid template loader: " ++ shown ++ ". " ++ reason)
  | .error e => e

/-- The error of a wrong number of arguments of a loader. -/
def wrongCount (takes : String) (given : Nat) : HostError :=
  .typeError ("Loader.__init__() takes " ++ takes ++ " positional arguments but " ++
    toString (given + 2) ++ " were given")

/-- The part of a dotted name before its last dot. -/
def dottedStart? (name : List Char) : Option (List Char) :=
  match Text.splitOn '.' name with
  | [] | [_] => none
  | parts => some (['.'].intercalate parts.dropLast)

/-- The error of a name that is not that of a loader. -/
def unknownLoader (name : String) : HostError :=
  match dottedStart? name.toList with
  | some [] => .valueError "Empty module name"
  | some ('.' :: rest) => relativeModule (String.ofList ('.' :: rest))
  | _ => improper ("Invalid template loader class: " ++ name)

/-- A loader with its arguments; `cached` builds loaders from an argument. -/
def create (c : LoaderCatalogue) (own : Value) (name : String) (arguments : List Value)
    (cached : Except HostError (List Loader)) : Except HostError Loader := do
  match c.kinds.lookup name with
  | none => throw (unknownLoader name)
  | some .cached =>
    match arguments with
    | [] => throw (improper (name ++ " requires a list/tuple of loaders"))
    | [_] => return .cached (← cached)
    | _ => throw (wrongCount "3" arguments.length)
  | some .memory =>
    match arguments with
    | [] =>
      throw (.typeError
        "Loader.__init__() missing 1 required positional argument: 'templates_dict'")
    | [templates] => return .memory templates
    | _ => throw (wrongCount "3" arguments.length)
  | some .folders =>
    match arguments with
    | [] | [.none] => return .folders own
    | [paths] => return .folders paths
    | _ => throw (wrongCount "from 2 to 3" arguments.length)
  | some .applications =>
    if arguments.length ≤ 1 then return .folders (.list 0 [])
    else throw (wrongCount "from 2 to 3" arguments.length)
  | some .bare =>
    if arguments.isEmpty then return .bare else throw (wrongCount "2" arguments.length)

/-- The loader that a name alone asks for. -/
def named (c : LoaderCatalogue) (own : Value) (name : String) : Except HostError Loader :=
  c.create own name [] (.ok [])

/-- The loader that a number or a dictionary asks for, which is none. -/
def plain (configuration : Value) : Except HostError Loader :=
  match configuration with
  | .dict .. => .error (invalid configuration "Missing second element in tuple configuration")
  | v => .error (invalid v ("'" ++ v.typeName ++ "' object is not iterable"))

mutual

/-- The loader that a configuration asks for; `own` are the folders of the engine. -/
def loader (c : LoaderCatalogue) (own : Value) (configuration : Value) :
    Except HostError Loader :=
  match configuration with
  | .text _ name => c.named own name
  | .list _ items => c.configured own configuration items
  | .tuple _ items => c.configured own configuration items
  | v => plain v

/-- The loader of a name and its arguments. -/
def configured (c : LoaderCatalogue) (own configuration : Value) :
    List Value → Except HostError Loader
  | [] => .error (invalid configuration "Configuration is empty")
  | .text _ name :: arguments => c.create own name arguments (c.argumentLoaders own arguments)
  | _ => .error (invalid configuration
      "First element of tuple configuration must be a Loader class name")

/-- The loaders that the first of some arguments lists. -/
def argumentLoaders (c : LoaderCatalogue) (own : Value) :
    List Value → Except HostError (List Loader)
  | [] => .ok []
  | argument :: _ => c.loaders own argument

/-- **The loaders that a value lists.** -/
def loaders (c : LoaderCatalogue) (own : Value) : Value → Except HostError (List Loader)
  | .list _ items => c.loaderAll own items
  | .tuple _ items => c.loaderAll own items
  | .dict _ entries => c.loaderKeys own entries
  | .text _ s => s.toList.mapM fun letter => c.named own (String.ofList [letter])
  | .stream _ items ending => do
    let loaders ← c.loaderAll own items
    match ending with
    | some e => throw e.leavingText
    | none => return loaders
  | v =>
    match v.walk? with
    | none => .error v.notIterable
    | some walk => walk.items.mapM plain

/-- The loaders of a list of configurations. -/
def loaderAll (c : LoaderCatalogue) (own : Value) : List Value → Except HostError (List Loader)
  | [] => .ok []
  | configuration :: rest => do
    return (← c.loader own configuration) :: (← c.loaderAll own rest)

/-- The loaders that the keys of a dictionary ask for. -/
def loaderKeys (c : LoaderCatalogue) (own : Value) :
    List (Value × Value) → Except HostError (List Loader)
  | [] => .ok []
  | (configuration, _) :: rest => do
    return (← c.loader own configuration) :: (← c.loaderKeys own rest)

end

end LoaderCatalogue

end Galley
