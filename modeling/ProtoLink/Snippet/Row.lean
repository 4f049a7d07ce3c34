import ProtoLink.Diagnostic

/-! Rows of characters, each in the ink of its role, and the text of a row with or without colour. -/
namespace ProtoLink.Snippet

/-- What a character of a snippet is: text as such, part of the frame, part of the title, or part of the mark. -/
inductive Ink where
  | text
  | frame
  | title
  | mark
deriving DecidableEq, Repr, Inhabited

/-- The code that starts an ink. Marks have the colour of their severity. -/
def Ink.code (severity : Severity) : Ink → List Char
  | .text => []
  | .frame => "\x1b[1m\x1b[94m".toList
  | .title => "\x1b[1m".toList
  | .mark =>
    match severity with
    | .error => "\x1b[1m\x1b[91m".toList
    | .warning => "\x1b[1m\x1b[33m".toList

/-- The code that ends an ink. -/
def Ink.reset : Ink → List Char
  | .text => []
  | _ => "\x1b[0m".toList

abbrev Row := List (Char × Ink)

namespace Row

def ofText (ink : Ink) (text : List Char) : Row := text.map fun c => (c, ink)

def blanks (count : Nat) : Row := ofText .text (List.replicate count ' ')

/-- Writes cells over a row from some column on. A row that does not reach there is filled up with blanks. -/
def write (row : Row) (column : Nat) (cells : Row) : Row :=
  if cells.isEmpty then row
  else
    let row := row ++ blanks (column - row.length)
    row.take column ++ cells ++ row.drop (column + cells.length)

def writeText (row : Row) (column : Nat) (ink : Ink) (text : List Char) : Row :=
  row.write column (ofText ink text)

/-- The mark that stands for text that is left out. -/
def ellipsis : List Char := ['.', '.', '.']

/-- Puts an ellipsis in the place of the columns from `start` to before `stop`, if the row reaches so far. -/
def elide (row : Row) (start stop : Nat) : Row :=
  if start < stop && stop ≤ row.length then
    row.take start ++ ofText .frame ellipsis ++ row.drop stop
  else row

def plain (row : Row) : List Char := row.map Prod.fst

/-- The characters of a row with a code wherever the ink changes. -/
def paintFrom (severity : Severity) : Ink → Row → List Char
  | ink, [] => ink.reset
  | ink, (c, next) :: row =>
    if next = ink then c :: paintFrom severity ink row
    else ink.reset ++ next.code severity ++ c :: paintFrom severity next row

def painted (severity : Severity) (row : Row) : List Char := paintFrom severity .text row

end Row
end ProtoLink.Snippet
