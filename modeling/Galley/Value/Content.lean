import Galley.Text.Markup
import Galley.Value

/-!
# Writing values out

A value on its way to the output is a text together with what is still to be done to it.

* `Content.ofValue`: the content of a value.
* `Content.render`: the text that is written.
-/

namespace Galley

/-- What becomes of a text when it is written: nothing, because nobody asked for escaping or because
it is safe, or escaping. -/
inductive ContentKind where
  | raw
  | safe
  | unsafeText
deriving DecidableEq

/-- A text on its way to the output. -/
structure Content where
  text : String
  kind : ContentKind
deriving DecidableEq

namespace ContentKind

/-- The word for a kind. -/
def word : ContentKind → String
  | raw => "raw"
  | safe => "html_safe"
  | unsafeText => "html_unsafe"

end ContentKind

namespace Content

/-- **The content of a value,** or of a missing one, with autoescaping on or off. Texts that are
safe or announce markup are trusted. -/
def ofValue (v : Option Value) (autoescape : Bool) : Except HostError Content :=
  match v with
  | none => .ok ⟨"", .raw⟩
  | some v => do
    let text ← v.toText
    if !autoescape then return ⟨text, .raw⟩
    else
      match v with
      | .text .safe _ | .text .markup _ => return ⟨text, .safe⟩
      | _ => return ⟨text, .unsafeText⟩

/-- The text that is written. -/
def render (c : Content) : String :=
  match c.kind with
  | .unsafeText => Text.escapeMarkup c.text
  | _ => c.text

end Content

/-- The text that is written for a value. -/
def Value.render (v : Option Value) (autoescape : Bool) : Except HostError String :=
  (Content.ofValue v autoescape).map Content.render

end Galley
