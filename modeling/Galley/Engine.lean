import Galley.Loader
import Galley.Scope.Session
import Galley.Template

/-!
# Engines

An engine is configured once: where templates are found, which libraries they can load, and whether
their output is escaped. Then it compiles templates from texts or by name.

* `Installation`: what a configuration can refer to.
* `Options.ofPairs`, `Options.forSite`: the options of an engine.
* `Engine.create`: an engine from its options.
* `Engine.getTemplate`, `Engine.fromText`: templates.
-/

namespace Galley

/-- A module of the application. It may hold other modules, and a library. -/
structure Module where
  path : String
  isPackage : Bool := false
  library : Option Library := none

/-- What a configuration can refer to. -/
structure Installation where
  loaders : LoaderCatalogue
  folders : List Folder
  modules : List Module
  routes : RouteTable
  /-- Names of libraries that every site has, with the paths of their modules. -/
  installed : List (String × String) := []

namespace Installation

/-- The module at a path. -/
def module? (i : Installation) (path : String) : Option Module := i.modules.find? (·.path = path)

/-- The first of the paths that lead to a module at which there is none, and the module that it
would belong to. -/
def firstMissing? (i : Installation) (parent : Option Module) (path : String) :
    List String → Option (String × Option Module)
  | [] => none
  | part :: rest =>
    let path := if path = "" then part else path ++ "." ++ part
    match i.module? path with
    | some m =>
      if parent.all (·.isPackage) then i.firstMissing? (some m) path rest else some (path, parent)
    | none => some (path, parent)

/-- The error of a module that there is not. -/
def noModule (missing : String) (parent : Option Module) : String :=
  match parent with
  | some m =>
    if m.isPackage then "No module named '" ++ missing ++ "'"
    else "No module named '" ++ missing ++ "'; '" ++ m.path ++ "' is not a package"
  | none => "No module named '" ++ missing ++ "'"

/-- **The library of a module.** -/
def library (i : Installation) (path : String) : Except HostError Library :=
  let invalid (text : String) : HostError := { kind := "InvalidTemplateLibrary", text }
  if path = "" then .error (.valueError "Empty module name")
  else if path.startsWith "." then .error (LoaderCatalogue.relativeModule path)
  else
    match i.firstMissing? none "" ((Text.splitOn '.' path.toList).map String.ofList) with
    | some (missing, parent) =>
      .error (invalid
        ("Invalid template library specified. ImportError raised when trying to load '" ++ path ++
          "': " ++ noModule missing parent))
    | none =>
      match (i.module? path).bind (·.library) with
      | some library => .ok library
      | none =>
        .error (invalid ("Module  " ++ path ++ " does not have a variable named 'register'"))

/-- The library of the module that a value names. -/
def libraryOf (i : Installation) (path : Value) : Except HostError Library :=
  match path with
  | .text _ path => i.library path
  | .bytes .. =>
    .error (.typeError "startswith first arg must be bytes or a tuple of bytes, not str")
  | v => .error (.attributeError ("'" ++ v.typeName ++ "' object has no attribute 'startswith'"))

/-- The libraries that a dictionary from names to modules asks for. -/
def libraries (i : Installation) (paths : Value) : Except HostError (List (String × Library)) := do
  match paths with
  | .none => return []
  | .dict _ entries =>
    entries.mapM fun (name, path) => return (← name.toText, ← i.libraryOf path)
  | v => throw (.attributeError ("'" ++ v.typeName ++ "' object has no attribute 'items'"))

end Installation

/-- The options of an engine. -/
structure Options where
  /-- The folders that templates are found in. -/
  folders : Value := .list 0 []
  /-- Whether the folders of installed applications are used too. -/
  applications : Value := .bool false
  autoescape : Value := .bool true
  debug : Value := .bool false
  libraries : Value := .none
  /-- The loaders to be used instead of the usual ones. -/
  loaders : Value := .none
  /-- The charset of files. -/
  charset : Value := .str "utf-8"

namespace Options

/-- Sets one option. -/
def set (o : Options) (name : String) (v : Value) : Except HostError Options :=
  match name with
  | "dirs" => .ok { o with folders := if Value.same v .none then .list 0 [] else v }
  | "app_dirs" => .ok { o with applications := v }
  | "autoescape" => .ok { o with autoescape := v }
  | "debug" => .ok { o with debug := v }
  | "libraries" => .ok { o with libraries := v }
  | "loaders" => .ok { o with loaders := v }
  | "file_charset" => .ok { o with charset := v }
  | _ =>
    .error (.typeError ("Engine.__init__() got an unexpected keyword argument '" ++ name ++ "'"))

/-- **The options that names and values give.** -/
def ofPairs (pairs : List (String × Value)) : Except HostError Options :=
  pairs.foldlM (fun o (name, v) => o.set name v) {}

/-- A list of the members of a value, or an empty one if the value counts as false. -/
def listOf (v : Value) : Except HostError Value := do
  if !(← v.truth) then return .list 0 []
  match v.walk? with
  | none => throw v.notIterable
  | some walk => return .list 0 (← walk.toExcept)

/-- The options of a site's engine, which has the installed libraries besides its own, and a list of
folders of its own. -/
def forSite (i : Installation) (pairs : List (String × Value)) :
    Except HostError (List (String × Value)) := do
  let own ← (pairs.lookup "libraries").elim (.ok []) Layer.ofValue
  let installed := i.installed.map fun (name, path) => (Value.str name, Value.str path)
  let folders ← (pairs.lookup "dirs").elim (.ok (.list 0 [])) listOf
  return Library.register "libraries" (.dict 0 (Layer.setAll installed own))
    (Library.register "dirs" folders pairs)

end Options

/-- **An engine.** -/
structure Engine where
  options : Options
  routes : RouteTable
  shelf : Shelf
  libraries : List (String × Library)
  loaders : List Loader

/-- Why there is no template of a name: none of the places that were tried has it, or something else
went wrong. -/
inductive LoadFailure where
  | notFound (name : String) (tried : List String)
  | host (error : HostError)

/-- A template with the place that its text comes from. -/
structure PlacedTemplate where
  template : Template
  place : String

namespace Engine

/-- The loaders that are used if none are named. They are cached unless templates are debugged. -/
def usualLoaders (o : Options) : Except HostError (List Loader) := do
  let own := Loader.folders o.folders
  let all := if ← o.applications.truth then [own, .folders (.list 0 [])] else [own]
  return if ← o.debug.truth then all else [.cached all]

/-- **An engine from its options.** -/
def create (i : Installation) (o : Options) : Except HostError Engine := do
  let usual ←
    match o.loaders with
    | .none => usualLoaders o
    | _ =>
      if ← o.applications.truth then
        throw (LoaderCatalogue.improper "app_dirs must not be set when loaders is defined.")
      else pure []
  let libraries := (← i.libraries o.libraries).foldl
    (fun done (name, library) => Library.register name library done) []
  let loaders ←
    match o.loaders with
    | .none => pure usual
    | v => i.loaders.loaders o.folders v
  return ⟨o, i.routes, ⟨i.folders, o.charset⟩, libraries, loaders⟩

/-- The engine for names and values of options, by itself or for a site. -/
def ofPairs (i : Installation) (pairs : List (String × Value)) (forSite : Bool) :
    Except HostError Engine := do
  create i (← Options.ofPairs (← if forSite then Options.forSite i pairs else pure pairs))

/-- The place of a text that was given by itself. -/
def unknownPlace : String := "<unknown source>"

/-- **The template of a text,** which is what is written for a value. -/
def fromText (e : Engine) (text : Value) : Except HostError PlacedTemplate := do
  return ⟨← Template.compile (← text.toText) none e.libraries, unknownPlace⟩

/-- **The template with a name:** that of the first place that has it. -/
def getTemplate (e : Engine) (name : String) : Except LoadFailure PlacedTemplate :=
  match Search.through (sourcesAll e.shelf name e.loaders) with
  | .error error => .error (.host error)
  | .ok (.missing tried) => .error (.notFound name tried)
  | .ok (.found text place) =>
    match (do Template.compile (← text.toText) (some name) e.libraries) with
    | .ok template => .ok ⟨template, place⟩
    | .error error => .error (.host error)

/-- The text of a template for the variables of the application. -/
def render (e : Engine) (t : Template) (context : Value) : Except HostError String := do
  (t.render e.routes context (← e.options.autoescape.truth) none).1

end Engine

end Galley
