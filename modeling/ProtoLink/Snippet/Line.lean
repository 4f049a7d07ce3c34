import ProtoLink.Text.Bytes
import ProtoLink.Text.Character

/-! The lines of a source, and where in them a byte offset falls. -/
namespace ProtoLink.Snippet

/-- A line of a source: its number from one on, the byte offsets of its start and of the next line, and its text. -/
structure Line where
  number : Nat
  start : Nat
  text : List Char
  stop : Nat
deriving DecidableEq, Repr, Inhabited

namespace Line

/-- The texts of the lines, each with the size of the line end behind it. A line ends with or without `\r`. -/
def cut : List Char → List (List Char × Nat)
  | [] => []
  | '\n' :: cs => ([], 1) :: cut cs
  | '\r' :: '\n' :: cs => ([], 2) :: cut cs
  | c :: cs =>
    match cut cs with
    | [] => [([c], 0)]
    | (text, size) :: rest => (c :: text, size) :: rest

/-- Lines in a row, the first of which has a given number and start. -/
def place : Nat → Nat → List (List Char × Nat) → List Line
  | _, _, [] => []
  | number, start, (text, size) :: rest =>
    let stop := start + Text.byteLength text + size
    ⟨number, start, text, stop⟩ :: place (number + 1) stop rest

/-- The first line, which is there even if the source is empty, and the lines behind it. -/
def ofSource (source : List Char) : Line × List Line :=
  match place 1 0 (cut source) with
  | [] => (⟨1, 0, [], 0⟩, [])
  | first :: rest => (first, rest)

/-- The line that holds a byte offset. An offset behind them all belongs to the last line. -/
def holding (offset : Nat) : Line → List Line → Line
  | line, [] => line
  | line, next :: rest =>
    if line.start ≤ offset && offset < line.stop then line else holding offset next rest

/-- The characters of a line in front of a byte offset. -/
def before (line : Line) (offset : Nat) : List Char := Text.before (offset - line.start) line.text

/-- The columns in front of a byte offset. -/
def column (line : Line) (offset : Nat) : Nat := Text.width (line.before offset)

/-- Whether a byte offset lies behind the end of the line's text. -/
def endsBefore (line : Line) (offset : Nat) : Bool := line.start + Text.byteLength line.text < offset

/-- How many characters stand in front of a byte offset. The line end counts as one of them. -/
def character (line : Line) (offset : Nat) : Nat :=
  (line.before offset).length + if line.endsBefore offset then 1 else 0

/-- The line ends make up what the texts of the lines leave of the source. -/
theorem byteLength_cut (cs : List Char) :
    (cut cs).foldr (fun line size => Text.byteLength line.1 + line.2 + size) 0 = Text.byteLength cs := by
  fun_induction cut cs with
  | case1 => rfl
  | case2 cs ih =>
    have h : Char.utf8Size '\n' = 1 := by decide
    simpa [h] using ih
  | case3 cs ih =>
    have h : Char.utf8Size '\r' = 1 := by decide
    have h' : Char.utf8Size '\n' = 1 := by decide
    simp only [List.foldr_cons, ih, Text.byteLength_nil, Text.byteLength_cons, h, h']
    omega
  | case4 c cs _ _ he ih =>
    rw [he] at ih
    simpa using ih.symm
  | case5 c cs _ _ text size rest he ih =>
    rw [he] at ih
    simp only [List.foldr_cons, Text.byteLength_cons] at ih ⊢
    omega

end Line
end ProtoLink.Snippet
