import Galley.Node
import Galley.Number.Shortest

/-!
# Descriptions for the programmer

Trees are described by the names of their parts and what these hold.

* `Expression.describe`, `Node.describe`, `describeNodes`: the descriptions.
-/

namespace Galley

/-- A place as a pair. -/
def Span.describe (s : Span) : String :=
  "(" ++ toString s.start ++ ", " ++ toString s.length ++ ")"

/-- Something that may be absent. -/
def describeOption {α : Type} (f : α → String) : Option α → String
  | none => "None"
  | some a => f a

/-- A name with its fields. -/
def describeRecord (name : String) (fields : List (String × String)) : String :=
  name ++ "(" ++ ", ".intercalate (fields.map fun (k, v) => k ++ "=" ++ v) ++ ")"

/-- An atom. -/
def Atom.describe (a : Atom) : String :=
  let literal (name value : String) :=
    describeRecord name [("at", a.span.describe), ("value", value)]
  match a with
  | int _ n => literal "Int" (toString n)
  | float _ x => literal "Float" (floatText x)
  | text _ s => literal "Text" (Text.quoted s)
  | translated _ s => literal "TranslatedText" (Text.quoted s)
  | path span root names =>
    describeRecord "Variable" [("at", span.describe),
      ("lookups", Value.tupleText ((root :: names).map Text.quoted))]
  | loop span parents counter names =>
    describeRecord "ForVariable" [("at", span.describe),
      ("variant", describeOption (fun c => Text.quoted c.word) counter),
      ("parent_count", toString parents), ("lookups", Value.tupleText (names.map Text.quoted))]

/-- A filter with its argument. -/
def FilterUse.describe (u : FilterUse) : String :=
  let name := match u.filter with
    | .builtin _ => "BuiltinFilter"
    | .loaded .. => "ExternalFilter"
  describeRecord name [("name", Text.quoted u.filter.name),
    ("argument", describeOption Atom.describe u.argument)]

/-- An expression: each filter holds what it is applied to. -/
def Expression.describe (e : Expression) : String :=
  e.filters.foldl (fun left u => describeRecord "Filter"
    [("at", u.span.describe), ("left", left), ("filter", u.describe)]) e.head.describe

/-- The name of an operator in a tree. -/
def Operator.treeName : Operator → String
  | either => "Or"
  | both => "And"
  | member => "In"
  | notMember => "NotIn"
  | same => "Is"
  | notSame => "IsNot"
  | equal => "Equal"
  | notEqual => "NotEqual"
  | greater => "GreaterThan"
  | greaterEqual => "GreaterThanEqual"
  | less => "LessThan"
  | lessEqual => "LessThanEqual"

/-- A condition. -/
def Condition.describe : Condition Expression → String
  | operand e => describeRecord "Operand" [("element", e.describe)]
  | negation c => describeRecord "Not" [("operand", describe c)]
  | binary operator left right =>
    describeRecord operator.treeName [("left", describe left), ("right", describe right)]

/-- Keyword arguments as pairs. -/
def describeKeywords (keyword : List (String × Expression)) : String :=
  Value.tupleText (keyword.map fun (k, e) => "(" ++ Text.quoted k ++ ", " ++ e.describe ++ ")")

/-- A list of described nodes. -/
def describeList (nodes : List String) : String := "<NodeList [" ++ ", ".intercalate nodes ++ "]>"

mutual

/-- A node. -/
def Node.describe : Node → String
  | .text span text =>
    describeRecord "TextNode" [("at", span.describe), ("text", Text.quoted text)]
  | .translated span text =>
    describeRecord "TranslatedTextNode" [("at", span.describe), ("text", Text.quoted text)]
  | .output span e =>
    describeRecord "VariableNode" [("at", span.describe), ("element", e.describe)]
  | .autoescape span enabled body =>
    describeRecord "AutoescapeNode" [("at", span.describe), ("enabled", Value.boolText enabled),
      ("nodelist", describeList (describeAll body))]
  | .choice span condition truthy falsey =>
    describeRecord "IfNode" [("at", span.describe), ("condition", condition.describe),
      ("truthy", describeList (describeAll truthy)),
      ("falsey", describeList (describeAll falsey))]
  | .loop _ header body _ =>
    "<ForNode: for " ++ ", ".intercalate header.names ++ " in " ++ header.iterable.describe ++
      ", tail_len: " ++ toString body.length ++
      (if header.backwards then " reversed" else "") ++ ">"
  | .load span => describeRecord "LoadNode" [("at", span.describe)]
  | .route _ call =>
    "<UrlNode view_name='" ++ call.route.describe ++ "' args=" ++
      Value.tupleText (call.positional.map Expression.describe) ++ " kwargs=" ++
      describeKeywords call.keyword ++ " as=" ++ describeOption Text.quoted call.target ++ ">"
  | .call span call =>
    describeRecord "SimpleTagNode" [("at", span.describe), ("tag", Text.quoted call.name),
      ("args", Value.tupleText (call.positional.map Expression.describe)),
      ("kwargs", describeKeywords call.keyword),
      ("target_var", describeOption Text.quoted call.target)]

/-- The nodes of a list. -/
def describeAll : List Node → List String
  | [] => []
  | node :: rest => node.describe :: describeAll rest

end

/-- **The nodes of a template.** -/
def describeNodes (nodes : List Node) : String := describeList (describeAll nodes)

/-- A template by the beginning of its text, without line ends. -/
def describeTemplate (source : String) : String :=
  "<Template template_string=\"" ++
    String.ofList ((source.toList.take 20).filter (· ≠ '\n')) ++ "...\">"

/-- What a value is shown as that does not exist. -/
def describeMissing : String := "<missing>"

end Galley
