import ProtoLink.Snippet.Line
import ProtoLink.Text.Character

/-! Which lines of a source a snippet shows for a span, and how each of them is marked. -/
namespace ProtoLink.Snippet

/-- The part that a line has in a span. -/
inductive Part where
  /-- The span lies in this one line. -/
  | whole
  | opening
  | passing
  | closing
deriving DecidableEq, Repr, Inhabited

/-- The part of a span in one line, and the columns that are underlined there. -/
structure Mark where
  part : Part
  start : Nat
  stop : Nat
deriving DecidableEq, Repr, Inhabited

structure MarkedLine where
  line : Line
  mark : Mark
deriving DecidableEq, Repr, Inhabited

namespace Mark

/-- Whether a text starts as a comment does, with two slashes and neither a third one nor `!` behind them. -/
def isComment : List Char → Bool
  | '/' :: '/' :: '/' :: _ => false
  | '/' :: '/' :: '!' :: _ => false
  | '/' :: '/' :: _ => true
  | _ => false

/-- Whether a line says anything: it is not blank, not a comment and not a bracket on its own. -/
def isTelling (text : List Char) : Bool :=
  let text := Text.trim text
  !isComment text && text ∉ [[], ['{'], ['}'], ['('], [')'], ['['], [']']]

/-- Whether a line between the first and the last one of a span is shown. The lines in front of the last telling one
among the first four are, and so is the line above the last if it comes later and is telling. -/
def isPassed (lines : List Line) (first last : Nat) (line : Line) : Bool :=
  let middle := min (first + 4) last
  let near := lines.filter fun l => first ≤ l.number && l.number < middle && isTelling l.text
  let limit := match near.getLast? with
    | some l => l.number + 1
    | none => first
  first < line.number && (line.number < limit ||
    (line.number + 1 = last && middle < line.number && isTelling line.text))

/-- The marked lines for a span that goes from one line to another. -/
def across (lines : List Line) (first last : Line) (span : Text.Span) : MarkedLine × List MarkedLine :=
  let start := first.column span.start
  let stop := last.column span.stop + if last.endsBefore span.stop then 1 else 0
  let passed := lines.filter (isPassed lines first.number last.number)
  (⟨first, .opening, start, start + 1⟩,
    passed.map (⟨·, .passing, 0, 0⟩) ++ [⟨last, .closing, stop - 1, stop⟩])

/-- The marked lines for a span. A span without any width is marked at its start. -/
def ofSpan (source : List Char) (span : Text.Span) : MarkedLine × List MarkedLine :=
  let (top, rest) := Line.ofSource source
  let first := Line.holding span.start top rest
  let last := if span.start = span.stop then first else Line.holding span.stop top rest
  if first.number = last.number then
    let start := first.column span.start
    let stop := first.column span.stop
    (⟨first, .whole, start, if start = stop then start + 1 else stop⟩, [])
  else across (top :: rest) first last span

end Mark
end ProtoLink.Snippet
