import Galley.Text.Quoted

/-!
# Percent encoding of paths

A character of a path stands for itself if it is a letter or digit, one of `_.-~`, or one of the
marks that have a meaning or no danger in a path. Any other is written as the bytes of its UTF-8
form, each as `%` and two capital hexadecimal digits.
-/

namespace Galley.Text

/-- Whether a character stands for itself in a path. -/
def isPathChar (c : Char) : Bool :=
  c.isAlphanum || "_.-~!$&'()*+,;=/:@".toList.contains c

/-- A path with all other characters encoded. -/
def percentEncode (path : String) : String :=
  String.ofList <| path.toList.flatMap fun c =>
    if isPathChar c then [c]
    else (String.ofList [c]).toUTF8.toList.flatMap fun b =>
      '%' :: (hexDigits 2 b.toNat).map Char.toUpper

end Galley.Text
