import Galley.Loader

/-!
# Stock files

A folder with two templates, one of which has a mistake.
-/

namespace Galley.Stock

/-- The folder at a path. -/
def folder (path : String) : Folder := {
  path
  files := [
    ("basic.txt", "Hello \x7b\x7b user \x7d\x7d!\n"),
    ("parse_error.txt", "This is an empty variable: \x7b\x7b \x7d\x7d\n")] }

end Galley.Stock
