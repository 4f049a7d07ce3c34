import ProtoLink.Diagnostic

/-! Diagnostics in the order in which they were reported, under a policy that may make each of them an error. -/
namespace ProtoLink

/-- A run of diagnostics. While the policy is strict, all that is added is an error. -/
structure Log where
  strict : Bool := false
  diagnostics : List Diagnostic := []
deriving DecidableEq, Repr, Inhabited

namespace Log

/-- Adds a finding. Its severity is settled by the policy at this moment. -/
def report (log : Log) (finding : Diagnostic.Finding) : Log :=
  let severity := if log.strict then .error else finding.kind.severity
  { log with diagnostics := log.diagnostics ++ [⟨severity, finding⟩] }

def reportAll (log : Log) (findings : List Diagnostic.Finding) : Log := findings.foldl report log

/-- Changes the policy for what is added from now on. -/
def setStrict (log : Log) (strict : Bool) : Log := { log with strict }

/-- Takes over the diagnostics of another log. A strict policy makes errors of them. -/
def takeOver (log other : Log) : Log :=
  let taken := if log.strict then other.diagnostics.map fun d => { d with severity := .error }
    else other.diagnostics
  { log with diagnostics := log.diagnostics ++ taken }

def isEmpty (log : Log) : Bool := log.diagnostics.isEmpty

def size (log : Log) : Nat := log.diagnostics.length

def errorCount (log : Log) : Nat := log.diagnostics.countP Diagnostic.isError

def warningCount (log : Log) : Nat := log.diagnostics.countP Diagnostic.isWarning

def hasErrors (log : Log) : Bool := log.diagnostics.any Diagnostic.isError

def hasWarnings (log : Log) : Bool := log.diagnostics.any Diagnostic.isWarning

@[simp] theorem strict_report (log : Log) (finding : Diagnostic.Finding) :
    (log.report finding).strict = log.strict := rfl

theorem diagnostics_report (log : Log) (finding : Diagnostic.Finding) :
    (log.report finding).diagnostics =
      log.diagnostics ++ [⟨if log.strict then .error else finding.kind.severity, finding⟩] := rfl

theorem report_ne_self (log : Log) (finding : Diagnostic.Finding) : log.report finding ≠ log := by
  intro h
  have hlength := congrArg (fun log => log.diagnostics.length) h
  simp [diagnostics_report] at hlength

theorem diagnostics_reportAll (log : Log) (findings : List Diagnostic.Finding) :
    (log.reportAll findings).diagnostics = log.diagnostics ++ findings.map fun finding =>
      ⟨if log.strict then .error else finding.kind.severity, finding⟩ := by
  induction findings generalizing log with
  | nil => simp [reportAll]
  | cons finding findings ih =>
    rw [reportAll, List.foldl_cons, ← reportAll, ih, diagnostics_report, strict_report]
    simp only [List.append_assoc, List.singleton_append, List.map_cons]

theorem reportAll_append (log : Log) (findings others : List Diagnostic.Finding) :
    log.reportAll (findings ++ others) = (log.reportAll findings).reportAll others :=
  List.foldl_append

theorem reportAll_eq_self_iff {log : Log} {findings : List Diagnostic.Finding} :
    log.reportAll findings = log ↔ findings = [] := by
  constructor
  · intro h
    have hlength := congrArg (fun log => log.diagnostics.length) h
    simpa [diagnostics_reportAll] using hlength
  · rintro rfl
    rfl

@[simp] theorem diagnostics_setStrict (log : Log) (strict : Bool) :
    (log.setStrict strict).diagnostics = log.diagnostics := rfl

theorem errorCount_add_warningCount (log : Log) : log.errorCount + log.warningCount = log.size := by
  have h : Diagnostic.isWarning = fun d => !d.isError := funext Diagnostic.isWarning_eq
  simp only [errorCount, warningCount, size, h]
  induction log.diagnostics with
  | nil => rfl
  | cons d ds ih =>
    simp only [List.countP_cons, List.length_cons]
    cases d.isError <;> simp <;> omega

end Log
end ProtoLink
