import Galley.Error
import Galley.Text.Search
import Galley.Text.Wrap

/-!
# Error reports

A report shows the message of an error, the lines of the template around its labels, and under each
labelled line an underline with one remark per label:

      × Empty variable tag
       ╭─[parse_error.txt:1:28]
     1 │ This is an empty variable: {{ }}
       ·                            ──┬──
       ·                              ╰── here
       ╰────

* `lineStarts`, `locate`: from an offset to its line.
* `underline?`, `remarks?`: the rows under a line.
* `report?`: the whole report; there is none if two remarks would hang from one column.
-/

namespace Galley.Report

open Text (trimEnd)

/-- The offsets at which the lines of a text start, given the offset of the text. -/
def lineStartsFrom (offset : Nat) : List Char → List Nat
  | [] => []
  | c :: rest =>
    if c = '\n' then (offset + 1) :: lineStartsFrom (offset + 1) rest
    else lineStartsFrom (offset + 1) rest

/-- The offsets at which lines start. -/
def lineStarts (source : List Char) : List Nat := 0 :: lineStartsFrom 0 source

/-- The last of the lines from `low` to `high` that starts at or before an offset; if none of the
others does it is `low`. The lines are halved until one is left. -/
def locateBetween (starts : List Nat) (offset low high : Nat) : Nat :=
  if low < high then
    let middle := (low + high + 1) / 2
    if starts[middle]?.getD 0 ≤ offset then locateBetween starts offset middle high
    else locateBetween starts offset low (middle - 1)
  else low
termination_by high - low
decreasing_by all_goals omega

/-- The number of the last line that starts at or before an offset; the first line has number 0. -/
def locate (starts : List Nat) (offset : Nat) : Nat :=
  locateBetween starts offset 0 (starts.length - 1)

/-- Writes a character into a column of a row. A row has no columns behind its end. -/
def put? (c : Char) (row : List Char) (column : Nat) : Option (List Char) :=
  if column < row.length then some (row.set column c) else none

/-- A label on one line: its column, its length on that line and its text. -/
structure Mark where
  column : Nat
  length : Nat
  text : String

namespace Mark

/-- Marks are drawn by column, then length, then text. -/
def le (a b : Mark) : Bool :=
  a.column < b.column || (a.column = b.column &&
    (a.length < b.length || (a.length = b.length && !(b.text < a.text))))

/-- The column from which the remark hangs. -/
def anchor (m : Mark) : Nat := if m.length ≤ 1 then m.column else m.column + m.length / 2

/-- The column just past what is drawn under the line. -/
def stop (m : Mark) : Nat := m.column + max m.length 1

/-- Draws a mark into a row: a pointer at a place without characters, a tee under a single one, and
under more of them a line with the tee in its middle. -/
def draw? (row : List Char) (m : Mark) : Option (List Char) :=
  match m.length with
  | 0 => put? '▲' row m.anchor
  | 1 => put? '┬' row m.anchor
  | _ => do
    let lined ← (List.range' m.column m.length).foldlM (put? '─') row
    put? '┬' lined m.anchor

end Mark

/-- The row that underlines the marks of a line, drawn one over the other. It is as wide as the one
that reaches furthest; without marks there is no row. -/
def underline? (marks : List Mark) : Option (List Char) := do
  let width ← (marks.map Mark.stop).max?
  let row ← marks.foldlM Mark.draw? (List.replicate width ' ')
  return trimEnd row

/-- Anchors are worked off from the right; of two in one column the later text comes first. -/
def anchorLe (a b : Nat × String) : Bool :=
  a.1 < b.1 || (a.1 = b.1 && !(b.2 < a.2))

/-- The row of one remark, with a bar for every remark still to come. There is room for bars before
the remark only. -/
def remark? (anchor : Nat) (text : String) (pending : List Nat) : Option (List Char) := do
  let bars ← pending.foldlM (put? '│') (List.replicate anchor ' ')
  return bars ++ "╰── ".toList ++ text.toList

/-- The rows of remarks from the rightmost anchor on. Two in one column cannot be drawn. -/
def remarksFrom? : List (Nat × String) → Option (List (List Char))
  | [] => some []
  | (anchor, text) :: pending => do
    let row ← remark? anchor text (pending.map (·.1))
    return row :: (← remarksFrom? pending)

/-- The rows under the underline. -/
def remarks? (marks : List Mark) : Option (List (List Char)) :=
  remarksFrom? ((marks.map fun m => (m.anchor, m.text)).mergeSort anchorLe).reverse

/-- A label placed on its line. -/
structure Placed where
  start : Nat
  line : Nat
  mark : Mark

/-- The place of a label. A label that runs over the end of its line is cut there. -/
def place (starts : List Nat) (lines : List (List Char)) (label : Label) : Placed :=
  let line := locate starts label.span.start
  let column := label.span.start - starts[line]?.getD 0
  let room := (lines[line]?.getD []).length - column
  ⟨label.span.start, line, ⟨column, min label.span.length room, label.text⟩⟩

/-- The label that starts first; the header names its place. -/
def earliest (first : Placed) (others : List Placed) : Placed :=
  others.foldl (fun best p => if p.start < best.start then p else best) first

/-- Marked lines are shown with this many lines around them. -/
def contextLines : Nat := 1

/-- The lines shown, from the first to the last. An empty line after the last line break is no line
of its own. -/
def window (lines : List (List Char)) (marked : List Nat) : Nat × Nat :=
  let lowest := marked.foldl min (lines.length - 1)
  let highest := marked.foldl max 0
  let last := min (lines.length - 1) (highest + contextLines)
  let drop := last = lines.length - 1 && !marked.contains last && (lines[last]?.getD []).isEmpty
  (lowest - contextLines, if drop then last - 1 else last)

/-- The lines of the message. -/
def messageLines (message : String) : List (List Char) :=
  let plain := (Text.expandTabs 0 message.toList).map fun c => if Text.isGapChar c then ' ' else c
  match ({ width := 80, firstIndent := "  × ".toList, laterIndent := "  │ ".toList }
      : Text.Filling).fill plain with
  | [] => ["  ×".toList]
  | lines => lines

/-- The lines of the advice. -/
def helpLines (help : Option String) : List (List Char) :=
  match help with
  | none => []
  | some text =>
    match Text.splitOn '\n' text.toList with
    | [] => []
    | first :: others => ("  help: ".toList ++ first) :: others.map ("        ".toList ++ ·)

/-- A number in a column of the given width. -/
def numbered (gutter : Nat) (n : Nat) : List Char :=
  let digits := (toString n).toList
  List.replicate (gutter - digits.length) ' ' ++ digits

/-- What is drawn under a line: nothing if nothing is marked there. -/
def under? (marks : List Mark) : Option (List (List Char)) :=
  if marks.isEmpty then some []
  else do
    let row ← underline? marks
    return row :: (← remarks? marks)

/-- The rows for one line of the template. -/
def lineRows? (lines : List (List Char)) (placed : List Placed) (gutter line : Nat) :
    Option (List (List Char)) := do
  let margin := List.replicate (gutter + 2) ' '
  let text := ' ' :: numbered gutter (line + 1) ++ " │ ".toList ++ lines[line]?.getD []
  let under ← under? (((placed.filter (·.line = line)).map (·.mark)).mergeSort Mark.le)
  return text :: under.map fun row => margin ++ "· ".toList ++ row

/-- The header of a snippet: a place in the template, and the name of the template if it has one. A
template of a single line without a name has a bare one. -/
def header (name : Option String) (several : Bool) (position : String) : String :=
  match name with
  | some name => "╭─[" ++ name ++ ":" ++ position ++ "]"
  | none => if several then "╭─[" ++ position ++ "]" else "╭────"

/-- The snippet: header, lines and footer. -/
def snippet? (source : List Char) (name : Option String) (first : Label) (others : List Label) :
    Option (List (List Char)) := do
  let starts := lineStarts source
  let lines := Text.splitOn '\n' source
  let head := place starts lines first
  let placed := head :: others.map (place starts lines)
  let (firstLine, lastLine) := window lines (placed.map (·.line))
  let gutter := (toString (lastLine + 1)).length
  let margin := List.replicate (gutter + 2) ' '
  let origin := earliest head placed.tail
  let position := toString (origin.line + 1) ++ ":" ++ toString (origin.mark.column + 1)
  let top := margin ++ (header name (lines.length > 1) position).toList
  let shown := List.range' firstLine (lastLine + 1 - firstLine)
  let rows ← shown.mapM (lineRows? lines placed gutter)
  return top :: rows.flatten ++ [margin ++ "╰────".toList]

/-- **The report of an error** against the template text, under the name of the template if it has
one. -/
def report? (source : List Char) (error : TemplateError) (name : Option String) :
    Option String := do
  let body ← match error.labels with
    | [] => pure []
    | first :: others => snippet? source name first others
  let lines := messageLines error.message ++ body ++ helpLines error.help?
  return String.ofList (['\n'].intercalate lines ++ ['\n'])

/-- The error of a report whose remarks collide. -/
def collision : HostError := .indexError "list assignment index out of range"

end Galley.Report
