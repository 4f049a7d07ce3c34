import ProtoLink.Json.Value
import ProtoLink.Snippet.Window
import ProtoLink.Text.Split

/-! Drawing a snippet: a title, the lines of a source that a span touches, and under them a mark with a label. A
span over several lines is drawn as a bracket at the left of them. -/
namespace ProtoLink

/-- What a snippet shows. -/
structure Snippet where
  severity : Severity
  message : List Char
  source : List Char
  path? : Option (List Char)
  span : Text.Span
deriving Repr, Inhabited

namespace Snippet

/-- Where the columns of a snippet are: line numbers, a bar, the bracket if there is one, and the source. -/
structure Frame where
  digits : Nat
  bracketed : Bool
deriving DecidableEq, Repr

namespace Frame

/-- The columns of the display. -/
def total : Nat := 140

def bar (f : Frame) : Nat := f.digits + 1

def bracket (f : Frame) : Nat := f.digits + 3

def code (f : Frame) : Nat := if f.bracketed then f.bracket + 2 else f.bracket

/-- A row with nothing but the bar. -/
def barRow (f : Frame) : Row := Row.writeText [] f.bar .frame ['|']

/-- The row of a source line. -/
def lineRow (f : Frame) (view : Window.View) (number : Nat) : Row :=
  let digits := Json.digits number
  let padding := List.replicate (f.digits - digits.length) ' '
  ((Row.write [] f.code view.row).writeText 0 .frame (padding ++ digits)).writeText f.bar .frame ['|']

/-- The bar of the bracket, drawn into a row. -/
def hold (f : Frame) (row : Row) : Row := row.writeText f.bracket .mark ['|']

/-- Underlines the columns of a mark, as far as they lie to the right of the window's start. -/
def underline (f : Frame) (left : Nat) (mark : Mark) (row : Row) : Row :=
  (List.range' mark.start (mark.stop - mark.start)).foldl
    (fun row column => row.writeText (f.code + column - left) .mark ['^']) row

/-- The line that leads from the bracket to a mark. -/
def lead (f : Frame) (left : Nat) (mark : Mark) (row : Row) : Row :=
  let start := f.bracket + 1
  row.writeText start .mark (List.replicate (f.code + mark.start - left - start) '_')

/-- Writes a label behind a mark. -/
def label (f : Frame) (left : Nat) (mark : Mark) (text : List Char) (row : Row) : Row :=
  let gap := if mark.stop = 0 then 2 else 1
  row.writeText (f.code + (mark.stop + gap - left)) .mark text

/-- Leaves out the middle of a mark that is more than twice as long as the display has room for. -/
def shorten (f : Frame) (left room : Nat) (mark : Mark) (row : Row) : Row :=
  let length := mark.stop - mark.start
  if room * 2 < length && 10 < length then
    let pad := max (room / 3) 5
    row.elide (f.code + mark.start + pad - left) (f.code + mark.stop - pad - left)
  else row

/-- The rows of a marked line. A mark that opens at the start of its line needs no row of its own. -/
def markedRows (f : Frame) (w : Window) (message : List Char) (l : MarkedLine) : List Row :=
  let text := Text.display l.line.text
  let view := w.view text
  let row := f.lineRow view l.line.number
  match l.mark.part with
  | .whole =>
    let under := f.underline view.left l.mark (f.label view.left l.mark message f.barRow)
    [f.shorten view.left w.room l.mark row, f.shorten view.left w.room l.mark under]
  | .opening =>
    if (text.take l.mark.start).all Text.isBlank then [row.writeText f.bracket .mark ['/']]
    else
      let under := (f.lead view.left l.mark f.barRow).writeText f.bracket .mark [' ']
      [row, f.underline view.left l.mark under]
  | .passing => [f.hold row]
  | .closing =>
    let under := f.label view.left l.mark message (f.hold (f.lead view.left l.mark f.barRow))
    let under := f.underline view.left l.mark under
    [f.hold row, under.writeText (f.code + l.mark.start - view.left) .mark ['^']]

/-- The rows between two marked lines: the one line that lies between them, or an ellipsis for several. -/
def gapRows (f : Frame) (w : Window) (lines : List Line) (upper lower : Nat) : List Row :=
  if upper + 2 = lower then
    (lines.filter fun l => l.number = upper + 1).map fun l =>
      f.hold (f.lineRow (w.view (Text.display l.text)) l.number)
  else if upper + 2 < lower then [f.hold (Row.ofText .frame Row.ellipsis)]
  else []

/-- The rows of marked lines, one below the other. -/
def rows (f : Frame) (w : Window) (lines : List Line) (message : List Char) :
    MarkedLine → List MarkedLine → List Row
  | l, [] => f.markedRows w message l
  | l, next :: rest =>
    f.markedRows w message l ++ f.gapRows w lines l.line.number next.line.number ++
      rows f w lines message next rest

end Frame

/-- The rows of a title. Every line of it but the first is indented by the word in front. -/
def titleRows (severity : Severity) (message : List Char) : List Row :=
  let word := severity.word.toList
  let front := Row.ofText .mark word ++ Row.ofText .title [':', ' ']
  let next := Row.blanks front.length
  match Text.split '\n' (Text.display message) with
  | [] => [front]
  | text :: texts =>
    (front ++ Row.ofText .title text) :: texts.map fun text => next ++ Row.ofText .title text

/-- The row that tells where the span starts. -/
def pathRow (f : Frame) (path : List Char) (l : Line) (offset : Nat) : Row :=
  let place := path ++ ':' :: Json.digits l.number ++ ':' :: Json.digits (l.character offset + 1)
  Row.blanks f.digits ++ Row.ofText .frame ['-', '-', '>', ' '] ++ Row.ofText .text place

/-- The span that is marked. -/
def visible (s : Snippet) : Text.Span := s.span.visible (Text.byteLength s.source)

/-- Only a span that starts and ends between characters can be drawn. -/
def isDrawable (s : Snippet) : Bool := s.visible.fits s.source

/-- The greatest line number that the frame makes room for: how many lines there are up to the end of a span. A line
of which the span takes nothing is not counted. -/
def lastNumber (source : List Char) (span : Text.Span) : Nat :=
  max 1 (Line.cut (Text.before span.stop source)).length

/-- All rows of a snippet. -/
def rows (s : Snippet) : List Row :=
  let span := s.visible
  let (first, rest) := Mark.ofSpan s.source span
  let (top, below) := Line.ofSource s.source
  let f : Frame := ⟨(Json.digits (lastNumber s.source span)).length, !rest.isEmpty⟩
  let w := Window.lay (.of (first :: rest) s.message) (Frame.total - f.code)
  let origin := match s.path? with
    | some path => [pathRow f path first.line span.start]
    | none => []
  titleRows s.severity s.message ++ origin ++ [f.barRow] ++
    f.rows w (top :: below) s.message first rest

/-- The text of a snippet, in colour or not. -/
def render (s : Snippet) (coloured : Bool) : List Char :=
  Text.join '\n' (s.rows.map (if coloured then Row.painted s.severity else Row.plain))

/-- The text of a snippet that can be drawn. -/
def render? (s : Snippet) (coloured : Bool) : Option (List Char) :=
  if s.isDrawable then some (s.render coloured) else none

example : (⟨.warning, ['m'], "x=1\ny".toList, some ['p'], ⟨2, 3⟩⟩ : Snippet).render false =
    "warning: m\n --> p:1:3\n  |\n1 | x=1\n  |   ^ m".toList := by decide +kernel

example : (⟨.error, ['m'], "x=1\ny".toList, none, ⟨2, 5⟩⟩ : Snippet).render false =
    "error: m\n  |\n1 |   x=1\n  |  ___^\n2 | | y\n  | |_^ m".toList := by decide +kernel

end Snippet
end ProtoLink
