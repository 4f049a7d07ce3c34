import ProtoLink.Snippet.Mark
import ProtoLink.Snippet.Row

/-! The window of columns that is shown of long lines, and what is seen of a line through it. -/
namespace ProtoLink.Snippet

/-- The columns from `left` to `right`, on a display that has room for `room` columns of source. -/
structure Window where
  left : Nat
  right : Nat
  room : Nat
deriving DecidableEq, Repr, Inhabited

/-- What a window is laid around. -/
structure Window.Demand where
  /-- The blanks that all lines start with, up to the first column that a mark points at. -/
  indentation : Nat
  /-- The first and the last column that a mark points at. -/
  markLeft : Nat
  markRight : Nat
  /-- The last column that a label takes. -/
  labelRight : Nat
  /-- The columns of the longest line. -/
  longest : Nat
deriving DecidableEq, Repr

namespace Window

/-- The columns kept free on either side for an ellipsis. -/
def slack : Nat := 6

/-- The blanks at the start of a line, in columns. -/
def leadingBlanks : List Char → Nat
  | [] => 0
  | c :: cs => if Text.isBlank c then (if c = '\t' then 4 else 1) + leadingBlanks cs else 0

/-- The demand of marked lines, the label standing at the last of them. -/
def Demand.of (lines : List MarkedLine) (label : List Char) : Demand :=
  let texts := lines.map fun l => l.line.text
  let written := texts.filter fun text => text.any fun c => !Text.isBlank c
  let least := fun ns : List Nat => ns.min?.getD 0
  let greatest := fun ns : List Nat => ns.max?.getD 0
  let pointed := lines.filter fun l => l.mark.part != .passing
  let markLeft := least (pointed.map fun l => min l.mark.start l.mark.stop)
  { indentation := min (least (written.map leadingBlanks)) markLeft
    markLeft
    markRight := greatest (lines.map fun l => max l.mark.start l.mark.stop)
    labelRight := greatest (lines.map fun l =>
      l.mark.stop + match l.mark.part with
        | .whole | .closing => Text.width label + 1
        | .opening | .passing => 0)
    longest := greatest (texts.map Text.width) }

/-- Lays a window. Deep indentation is left out. If the rest is still too wide, the window takes in as much as fits
of, in this order: the text from the indentation on to the label, the mark and its label, the mark. -/
def lay (d : Demand) (room : Nat) : Window :=
  let indentation := d.indentation - slack
  let markLeft := d.markLeft - slack
  let markRight := d.markRight + slack
  let labelRight := d.labelRight + slack
  let left := if 20 < indentation then indentation - 16 else 0
  let right := max d.longest left
  if right - left ≤ room then ⟨left, right, room⟩
  else if labelRight - indentation ≤ room then
    ⟨indentation, indentation + room, room⟩
  else if labelRight - markLeft ≤ room then
    let left := markLeft - (room - (labelRight - markLeft)) / 2
    ⟨left, left + room, room⟩
  else if markRight - markLeft ≤ room then
    let left := markLeft - (room - (markRight - markLeft)) / 5 * 2
    ⟨left, left + room, room⟩
  else ⟨markLeft, markRight, room⟩

/-- The text from some column on, with the column where it starts. A wide character is passed as a whole. -/
def skip (limit : Nat) : Nat → List Char → List Char × Nat
  | column, [] => ([], column)
  | column, c :: cs => if column < limit then skip limit (column + Text.columns c) cs else (c :: cs, column)

/-- The start of a text that fits into some columns. -/
def fill : Nat → List Char → List Char
  | _, [] => []
  | room, c :: cs => if Text.columns c ≤ room then c :: fill (room - Text.columns c) cs else []

/-- How many characters are needed to take a number of columns, with the columns that they take. -/
def reach (goal : Nat) : List Char → Nat × Nat
  | [] => (0, 0)
  | c :: cs =>
    if goal ≤ Text.columns c then (1, Text.columns c)
    else
      let (count, columns) := reach (goal - Text.columns c) cs
      (count + 1, Text.columns c + columns)

/-- What is seen of a line: its row, and the column of the line that the row starts with. -/
structure View where
  row : Row
  left : Nat
deriving DecidableEq, Repr

/-- A text as seen through a window. What is cut off at either end makes way for an ellipsis. -/
def view (w : Window) (text : List Char) : View :=
  let length := Text.width text
  let left := min w.left length
  let right := if length - w.left ≤ w.room then length else min length w.right
  let (rest, passed) := skip left 0 text
  let code := fill (right - left) rest
  let goal := Row.ellipsis.length
  let (count, columns) := if 0 < w.left then reach goal code else (0, 0)
  let front := if 0 < w.left then Row.ofText .frame Row.ellipsis else []
  let row := Row.writeText front columns .text (code.drop count)
  let tail := columns + (code.length - count) - (reach goal code.reverse).1
  { row := if right < length then row.writeText tail .frame Row.ellipsis else row
    left := max left passed }

end Window
end ProtoLink.Snippet
