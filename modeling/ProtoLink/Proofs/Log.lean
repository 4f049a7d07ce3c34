import ProtoLink.Diagnostic.Log

/-! What a new log holds after findings were reported to it: all of them, in order, and graded by its policy. -/
namespace ProtoLink.Log

variable (found : List Diagnostic.Finding) (strict : Bool)

/-- The severity of a new finding under a policy, as no kind is an error by itself. -/
def grade (strict : Bool) : Severity := if strict then .error else .warning

theorem strict_reportAll (log : Log) : (log.reportAll found).strict = log.strict := by
  induction found generalizing log with
  | nil => rfl
  | cons finding found ih => exact ih (log.report finding)

theorem reportAll_new :
    Log.reportAll { strict } found = { strict, diagnostics := found.map (Diagnostic.mk (grade strict)) } := by
  have hstrict := strict_reportAll found { strict }
  have hdiagnostics := diagnostics_reportAll { strict } found
  generalize Log.reportAll { strict } found = log at hstrict hdiagnostics ⊢
  obtain ⟨policy, diagnostics⟩ := log
  cases hstrict
  cases hdiagnostics
  rfl

/-- What was reported, whatever it was graded. -/
def findings (log : Log) : List Diagnostic.Finding := log.diagnostics.map Diagnostic.finding

theorem findings_reportAll_new : (Log.reportAll { strict } found).findings = found := by
  rw [reportAll_new, Log.findings]
  simp [Function.comp_def]

/-- Findings that are taken over are graded as if they had been reported here. -/
theorem takeOver_reportAll :
    ({ strict } : Log).takeOver (Log.reportAll {} found) = Log.reportAll { strict } found := by
  rw [reportAll_new, reportAll_new, takeOver]
  cases strict with
  | false => simp
  | true => simp [grade]

theorem hasErrors_reportAll_new :
    (Log.reportAll { strict } found).hasErrors = (strict && !found.isEmpty) := by
  rw [reportAll_new, hasErrors]
  cases strict with
  | false => simp [Diagnostic.isError, grade]
  | true => cases found <;> simp [Diagnostic.isError, grade]

theorem errorCount_reportAll_new :
    (Log.reportAll { strict } found).errorCount = if strict then found.length else 0 := by
  rw [reportAll_new, errorCount, List.countP_map]
  cases strict <;> simp [Function.comp_def, Diagnostic.isError, grade]

end ProtoLink.Log
