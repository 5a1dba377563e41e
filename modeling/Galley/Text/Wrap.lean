import Galley.Text.Blank

/-!
# Filling lines with words

A text is cut into chunks, alternately words and gaps, and lines are filled with as many chunks as
fit. A gap at the end of a line, or at the start of any line but the first, is dropped. A word
that is longer than a line stands on a line of its own.

* `Filling`: the width and the indents of the lines.
* `Filling.fill`: the lines of one paragraph.
* `wrapLines`: every line of a text filled by itself, keeping the line breaks it has.
-/

namespace Galley.Text

/-- The characters that gaps between words are made of. -/
def isGapChar (c : Char) : Bool := c = ' ' || (9 ≤ c.toNat && c.toNat ≤ 13)

/-- **Tab stops every eight columns.** `column` counts from the last line break. -/
def expandTabs (column : Nat) : List Char → List Char
  | [] => []
  | c :: rest =>
    if c = '\t' then
      let gap := 8 - column % 8
      List.replicate gap ' ' ++ expandTabs (column + gap) rest
    else if c = '\n' || c = '\r' then c :: expandTabs 0 rest
    else c :: expandTabs (column + 1) rest

/-- The text cut into its longest runs of gap characters and of others. -/
def chunks (text : List Char) : List (List Char) :=
  text.splitBy fun a b => isGapChar a == isGapChar b

/-- How lines are filled: their width, and what they begin with. -/
structure Filling where
  width : Nat
  firstIndent : List Char := []
  laterIndent : List Char := []

namespace Filling

/-- The chunks that fit into `room` characters, and those that are left. -/
def fitting (room : Nat) : List (List Char) → List (List Char) × List (List Char)
  | [] => ([], [])
  | chunk :: rest =>
    if chunk.length ≤ room then
      let (line, left) := fitting (room - chunk.length) rest
      (chunk :: line, left)
    else ([], chunk :: rest)

theorem fitting_append (room : Nat) (text : List (List Char)) :
    (fitting room text).1 ++ (fitting room text).2 = text := by
  fun_induction fitting room text with
  | case1 => rfl
  | case2 room chunk rest h line left heq ih => simp_all
  | case3 => rfl

/-- The chunks of the next line, and those that are left: at least one is taken. -/
def nextLine (room : Nat) (chunk : List Char) (rest : List (List Char)) :
    List (List Char) × List (List Char) :=
  match fitting room (chunk :: rest) with
  | ([], _) => ([chunk], rest)
  | taken => taken

theorem nextLine_lt (room : Nat) (chunk : List Char) (rest : List (List Char)) :
    (nextLine room chunk rest).2.length < (chunk :: rest).length := by
  have h := congrArg List.length (fitting_append room (chunk :: rest))
  unfold nextLine
  rw [List.length_append] at h
  split
  · simp
  · next hne =>
    have : (fitting room (chunk :: rest)).1 ≠ [] := fun he =>
      hne (fitting room (chunk :: rest)).2 (Prod.ext he rfl)
    have := List.length_pos_iff.2 this
    omega

/-- A line without a gap at its end. -/
def dropLastGap (line : List (List Char)) : List (List Char) :=
  if line.getLast?.any allBlank then line.dropLast else line

/-- The chunks of the next line without the gap that a line break took the place of. -/
def skipGap (started : Bool) : List (List Char) → List (List Char)
  | [] => []
  | gap :: rest => if started && allBlank gap then rest else gap :: rest

theorem skipGap_le (started : Bool) (text : List (List Char)) :
    (skipGap started text).length ≤ text.length := by
  unfold skipGap
  repeat' split
  all_goals simp

/-- The lines that the chunks fill; `started` tells whether a line was written before. -/
def fillFrom (f : Filling) (started : Bool) (text : List (List Char)) : List (List Char) :=
  match h : skipGap started text with
  | [] => []
  | chunk :: others =>
    let indent := if started then f.laterIndent else f.firstIndent
    let taken := nextLine (f.width - indent.length) chunk others
    let line := dropLastGap taken.1
    have : taken.2.length < text.length :=
      Nat.lt_of_lt_of_le (nextLine_lt _ chunk others) (h ▸ skipGap_le started text)
    if line.isEmpty then fillFrom f started taken.2
    else (indent ++ line.flatten) :: fillFrom f true taken.2
termination_by text.length

/-- The lines of a paragraph. -/
def fill (f : Filling) (paragraph : List Char) : List (List Char) :=
  f.fillFrom false (chunks (expandTabs 0 paragraph))

end Filling

/-- The characters that end a line. -/
def isLineBreak (c : Char) : Bool :=
  let n := c.toNat
  (10 ≤ n && n ≤ 13) || (28 ≤ n && n ≤ 30) || n == 0x85 || n == 0x2028 || n == 0x2029

/-- The lines of a text without their breaks; `line` holds the characters of the line so far,
latest first. A carriage return with a line feed is one break, and a break at the very end begins
no further line. -/
def linesFrom (line : List Char) : List Char → List (List Char)
  | [] => if line.isEmpty then [] else [line.reverse]
  | '\r' :: '\n' :: rest => line.reverse :: linesFrom [] rest
  | c :: rest =>
    if isLineBreak c then line.reverse :: linesFrom [] rest else linesFrom (c :: line) rest

/-- **Word wrap.** Each line is filled to the width by itself; one that holds only gaps stays. -/
def wrapLines (width : Nat) (text : List Char) : List Char :=
  let wrapped := (linesFrom [] text).flatMap fun line =>
    match ({ width } : Filling).fill line with
    | [] => [line]
    | filled => filled
  let ended := if text.getLast? = some '\n' then wrapped ++ [[]] else wrapped
  ['\n'].intercalate ended

end Galley.Text
