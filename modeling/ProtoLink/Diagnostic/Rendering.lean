import ProtoLink.Diagnostic.Log
import ProtoLink.Snippet

/-! Diagnostics as text: in one line each, or with a snippet of the source that they point into. -/
namespace ProtoLink

/-- How diagnostics are shown. Without a source each one is a line. -/
structure Diagnostic.View where
  source? : Option String := none
  path? : Option String := none
  coloured : Bool := false
deriving DecidableEq, Repr, Inhabited

namespace Diagnostic

/-- The snippet for a diagnostic, if it has a place and there is a source. -/
def snippet? (view : View) (d : Diagnostic) : Option Snippet :=
  match view.source?, d.span? with
  | some source, some span =>
    some ⟨d.severity, d.message.toList, source.toList, view.path?.map String.toList, span⟩
  | _, _ => none

def render (view : View) (d : Diagnostic) : String :=
  match d.snippet? view with
  | some snippet => .ofList (snippet.render view.coloured)
  | none => d.line

/-- Whether a diagnostic can be shown: its place, where it matters, lies between characters. -/
def isDrawable (view : View) (d : Diagnostic) : Bool :=
  match d.snippet? view with
  | some snippet => snippet.isDrawable
  | none => true

end Diagnostic

namespace Log

/-- All diagnostics, the next one always starting on a new line. -/
def render (log : Log) (view : Diagnostic.View) : String :=
  "\n".intercalate (log.diagnostics.map (Diagnostic.render view))

/-- The text of all diagnostics, if every one of them can be shown. -/
def render? (log : Log) (view : Diagnostic.View) : Option String :=
  if log.diagnostics.all (Diagnostic.isDrawable view) then some (log.render view) else none

/-- The diagnostics in one line each. -/
def lines (log : Log) : String := log.render {}

end Log
end ProtoLink
