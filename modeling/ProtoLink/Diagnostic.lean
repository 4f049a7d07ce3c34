import ProtoLink.Text.Bytes

/-! What can be found amiss in a batch or in its settings, and how one such finding is worded. -/
namespace ProtoLink

inductive Severity where
  | error
  | warning
deriving DecidableEq, Repr, Inhabited

def Severity.word : Severity → String
  | .error => "error"
  | .warning => "warning"

namespace Diagnostic

inductive Kind where
  | unknownOption
  | malformedOption
  | invalidOptionValue
  | duplicateSymbol
  | unknownType
deriving DecidableEq, Repr, Inhabited

namespace Kind

/-- The short name that stands for the kind in a listing. -/
def code : Kind → String
  | .unknownOption => "unknown-option"
  | .malformedOption => "malformed-option"
  | .invalidOptionValue => "invalid-option-value"
  | .duplicateSymbol => "duplicate-symbol"
  | .unknownType => "unknown-type"

/-- How grave a finding is where no stricter policy rules. -/
def severity : Kind → Severity
  | _ => .warning

/-- The advice that goes with every finding of the kind. -/
def hint? : Kind → Option String
  | .unknownOption => some "known options: unary_rpc_promise, grpc_package, no_namespace, style"
  | .malformedOption => some "use `key=value`"
  | .invalidOptionValue => some "`style` accepts `grpc-js` or `async`"
  | .duplicateSymbol => none
  | .unknownType => some "the reference is emitted as a bare identifier"

/-- The wording without any detail. -/
def summary : Kind → String
  | .unknownOption => "unknown option ignored"
  | .malformedOption => "option has no value"
  | .invalidOptionValue => "invalid option value"
  | .duplicateSymbol => "type is defined more than once"
  | .unknownType => "type is not defined in this batch"

/-- What stands before and after the detail in the wording with a detail. -/
def frame : Kind → String × String
  | .unknownOption => ("unknown option `", "` ignored")
  | .malformedOption => ("option `", "` has no value")
  | .invalidOptionValue => (summary .invalidOptionValue ++ ": ", "")
  | .duplicateSymbol => ("`", "` is defined more than once")
  | .unknownType => ("`", "` is not defined in this batch")

/-- The wording with a pair of braces in the place of the detail. -/
def template (k : Kind) : String := k.frame.1 ++ "\x7b\x7d" ++ k.frame.2

def message (k : Kind) : Option String → String
  | none => k.summary
  | some detail => k.frame.1 ++ detail ++ k.frame.2

theorem code_injective {k l : Kind} (h : k.code = l.code) : k = l := by
  cases k <;> cases l <;> simp_all [code]

end Kind

/-- Something found amiss: what it concerns, where in the text that was read, and further advice. -/
structure Finding where
  kind : Kind
  detail? : Option String := none
  span? : Option Text.Span := none
  advice : List String := []
deriving DecidableEq, Repr, Inhabited

namespace Finding

def message (f : Finding) : String := f.kind.message f.detail?

/-- The advice of the kind comes before that of the finding. -/
def hints (f : Finding) : List String := f.kind.hint?.toList ++ f.advice

end Finding
end Diagnostic

/-- A finding with the severity that it was given when it was reported. -/
structure Diagnostic where
  severity : Severity
  finding : Diagnostic.Finding
deriving DecidableEq, Repr, Inhabited

namespace Diagnostic

def kind (d : Diagnostic) : Kind := d.finding.kind

def span? (d : Diagnostic) : Option Text.Span := d.finding.span?

def message (d : Diagnostic) : String := d.finding.message

def isError (d : Diagnostic) : Bool := d.severity = .error

def isWarning (d : Diagnostic) : Bool := d.severity = .warning

/-- The place of a diagnostic in its one line. -/
def placeText : Option Text.Span → String
  | none => ""
  | some span => " at " ++ toString span.start ++ ".." ++ toString span.stop

/-- The diagnostic in one line: severity, code, place, message and hints. -/
def line (d : Diagnostic) : String :=
  d.severity.word ++ "[" ++ d.kind.code ++ "]" ++ placeText d.span? ++ ": " ++ d.message ++
    String.join (d.finding.hints.map fun hint => " (hint: " ++ hint ++ ")")

/-- Every diagnostic is an error or a warning, and none is both. -/
theorem isWarning_eq (d : Diagnostic) : d.isWarning = !d.isError := by
  cases d with
  | mk severity finding => cases severity <;> rfl

end Diagnostic
end ProtoLink
