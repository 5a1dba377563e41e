import Galley.Words.Literal

/-!
# The switch of an `autoescape` tag

The tag has one argument, `on` or `off`.
-/

namespace Galley

/-- A switch: where it is written, and whether it is on. -/
structure SwitchWord where
  span : Span
  enabled : Bool
deriving DecidableEq

/-- The switch that makes up the parts of a tag. -/
def SwitchWord.read (source : List Char) (parts : Span) : Except TemplateError SwitchWord :=
  let text := parts.slice source
  if text = ['o', 'n'] then .ok ⟨parts, true⟩
  else if text = ['o', 'f', 'f'] then .ok ⟨parts, false⟩
  else if text.isEmpty then .error (.here .missingSwitch parts)
  else if text.any Text.isBlank then .error (.here .extraSwitch parts)
  else .error (.here .invalidSwitch parts)

end Galley
