import Mathlib.Data.List.Forall2
import ProtoLink.Diagnostic.Log

/-! Logs built by reports, changes of the policy and takeovers of other such logs. A diagnostic is an error if
and only if one of the logs that got hold of it was strict at that moment. -/
namespace ProtoLink.Log

/-- What is done to a log. A log that is taken over is a new one after acts of its own. -/
inductive Act where
  | report (finding : Diagnostic.Finding)
  | setStrict (strict : Bool)
  | takeOver (acts : List Act)

mutual

def perform (log : Log) : Act → Log
  | .report finding => log.report finding
  | .setStrict strict => log.setStrict strict
  | .takeOver acts => log.takeOver (performAll {} acts)

def performAll (log : Log) : List Act → Log
  | [] => log
  | act :: acts => performAll (perform log act) acts

end

/-! What was done, without the logs -/

mutual

/-- The findings that an act reports, be it to a log that is taken over. -/
def Act.reported : Act → List Diagnostic.Finding
  | .report finding => [finding]
  | .setStrict _ => []
  | .takeOver acts => reportedBy acts

def reportedBy : List Act → List Diagnostic.Finding
  | [] => []
  | act :: acts => act.reported ++ reportedBy acts

end

def Act.policy? : Act → Option Bool
  | .setStrict strict => some strict
  | _ => none

/-- The policy of a new log after some acts: the one that was set last. -/
def policyAfter (acts : List Act) : Bool := (acts.filterMap Act.policy?).getLast?.getD false

/-- A finding and the policies that it met: that of the log to which it was reported comes first, then those of the
logs that took it over, each at that moment. -/
structure Passage where
  finding : Diagnostic.Finding
  policies : List Bool

namespace Passage

/-- The finding is taken over by a log of some policy. -/
def meets (p : Passage) (strict : Bool) : Passage := { p with policies := p.policies ++ [strict] }

/-- The finding as it is graded in the end. -/
def diagnostic (p : Passage) : Diagnostic := ⟨if true ∈ p.policies then .error else .warning, p.finding⟩

end Passage

mutual

/-- What an act brings into a log of some policy. -/
def Act.passages (strict : Bool) : Act → List Passage
  | .report finding => [⟨finding, [strict]⟩]
  | .setStrict _ => []
  | .takeOver acts => (passagesAfter [] acts).map fun p => p.meets strict

/-- What acts bring into a log, behind other acts that made the log. -/
def passagesAfter (front : List Act) : List Act → List Passage
  | [] => []
  | act :: acts => act.passages (policyAfter front) ++ passagesAfter (front ++ [act]) acts

end

theorem policyAfter_concat (front : List Act) (act : Act) :
    policyAfter (front ++ [act]) = act.policy?.getD (policyAfter front) := by
  rw [policyAfter, List.filterMap_append, policyAfter]
  cases act with
  | setStrict strict => simp [Act.policy?]
  | report finding => simp [Act.policy?]
  | takeOver acts => simp [Act.policy?]

mutual

/-- Policies do not matter for what is there in the end. -/
theorem finding_passages (strict : Bool) : (act : Act) → (act.passages strict).map Passage.finding = act.reported
  | .report finding => rfl
  | .setStrict _ => rfl
  | .takeOver acts => by
    have hfinding : Passage.finding ∘ (fun p => p.meets strict) = Passage.finding := rfl
    rw [Act.passages, Act.reported, List.map_map, hfinding, finding_passagesAfter [] acts]

theorem finding_passagesAfter (front : List Act) :
    (acts : List Act) → (passagesAfter front acts).map Passage.finding = reportedBy acts
  | [] => rfl
  | act :: acts => by
    rw [passagesAfter, reportedBy, List.map_append, finding_passages _ act, finding_passagesAfter _ acts]

end

/-! What the logs make of it -/

variable {log : Log} {front : List Act}

/-- A diagnostic as a log of some policy takes it over. -/
def raised (strict : Bool) (d : Diagnostic) : Diagnostic := if strict then { d with severity := .error } else d

theorem diagnostics_takeOver (log other : Log) :
    (log.takeOver other).diagnostics = log.diagnostics ++ other.diagnostics.map (raised log.strict) := by
  have hraised : raised false = id := rfl
  rw [takeOver]
  cases log.strict with
  | true => rfl
  | false => rw [hraised, List.map_id]; rfl

theorem isError_raised (strict : Bool) {d : Diagnostic} (h : d.isError = true) : (raised strict d).isError = true := by
  cases strict with
  | true => rfl
  | false => exact h

theorem diagnostic_meets (p : Passage) (strict : Bool) : (p.meets strict).diagnostic = raised strict p.diagnostic := by
  cases strict with
  | true => simp [Passage.diagnostic, Passage.meets, raised]
  | false => simp [Passage.diagnostic, Passage.meets, raised]

theorem isError_diagnostic (p : Passage) : p.diagnostic.isError = true ↔ true ∈ p.policies := by
  by_cases h : true ∈ p.policies
  · simp [Diagnostic.isError, Passage.diagnostic, h]
  · simp [Diagnostic.isError, Passage.diagnostic, h]

/-- An act keeps the log's policy to be the one that was set last. -/
theorem strict_perform (h : log.strict = policyAfter front) (act : Act) :
    (log.perform act).strict = policyAfter (front ++ [act]) := by
  rw [policyAfter_concat, ← h]
  cases act with
  | report finding => rfl
  | setStrict strict => rfl
  | takeOver acts => rfl

mutual

/-- An act leaves all diagnostics as they are and adds those that the policy makes of what it brings. -/
theorem diagnostics_perform (log : Log) : (act : Act) →
    (log.perform act).diagnostics = log.diagnostics ++ (act.passages log.strict).map Passage.diagnostic
  | .report finding => by
    rw [perform, diagnostics_report, Act.passages]
    cases log.strict <;> rfl
  | .setStrict strict => by
    rw [perform, diagnostics_setStrict, Act.passages, List.map_nil, List.append_nil]
  | .takeOver acts => by
    have htaken := diagnostics_performAll {} [] rfl acts
    have hgraded : Passage.diagnostic ∘ (fun p => p.meets log.strict) = raised log.strict ∘ Passage.diagnostic :=
      funext fun p => diagnostic_meets p log.strict
    rw [perform, diagnostics_takeOver, Act.passages, List.map_map, hgraded, htaken, List.nil_append, List.map_map]

theorem diagnostics_performAll (log : Log) (front : List Act) (h : log.strict = policyAfter front) :
    (acts : List Act) →
      (log.performAll acts).diagnostics = log.diagnostics ++ (passagesAfter front acts).map Passage.diagnostic
  | [] => by rw [performAll, passagesAfter, List.map_nil, List.append_nil]
  | act :: acts => by
    have hrest := diagnostics_performAll (log.perform act) (front ++ [act]) (strict_perform h act) acts
    rw [performAll, hrest, diagnostics_perform log act, passagesAfter, List.map_append, h, List.append_assoc]

end

theorem performAll_append (log : Log) (acts more : List Act) :
    log.performAll (acts ++ more) = (log.performAll acts).performAll more := by
  induction acts generalizing log with
  | nil => rfl
  | cons act acts ih => exact ih (log.perform act)

theorem strict_performAll (h : log.strict = policyAfter front) (acts : List Act) :
    (log.performAll acts).strict = policyAfter (front ++ acts) := by
  induction acts generalizing log front with
  | nil => rw [performAll, List.append_nil, h]
  | cons act acts ih => rw [performAll, ih (strict_perform h act), List.append_assoc, List.singleton_append]

/-- Further acts only add to what is there. -/
theorem diagnostics_prefix (acts more : List Act) :
    (performAll {} acts).diagnostics <+: (performAll {} (acts ++ more)).diagnostics := by
  have hstrict : (performAll {} acts).strict = policyAfter ([] ++ acts) := strict_performAll rfl acts
  rw [performAll_append, diagnostics_performAll _ _ hstrict]
  exact List.prefix_append _ _

/-- A log holds each finding that was reported to it or to a log it took over, once and in order. A
diagnostic is an error exactly if one of the policies that its finding met was strict, and later acts
leave it as it is. -/
theorem graded_performAll (acts : List Act) :
    let log := performAll {} acts
    log.diagnostics.map Diagnostic.finding = reportedBy acts ∧
      List.Forall₂ (fun d p => d.finding = p.finding ∧ (d.isError = true ↔ true ∈ p.policies))
        log.diagnostics (passagesAfter [] acts) ∧
      (∀ more, log.diagnostics <+: (performAll {} (acts ++ more)).diagnostics) ∧
      (∀ strict, (performAll {} (acts ++ [.setStrict strict])).diagnostics = log.diagnostics) ∧
      (∀ others, ∃ taken, (performAll {} (acts ++ [.takeOver others])).diagnostics = log.diagnostics ++ taken ∧
        List.Forall₂ (fun d t => t.finding = d.finding ∧ (d.isError = true → t.isError = true))
          (performAll {} others).diagnostics taken) ∧
      log.errorCount + log.warningCount = log.size ∧
      (log.hasErrors = true ↔ 0 < log.errorCount) ∧ (log.hasWarnings = true ↔ 0 < log.warningCount) := by
  intro log
  have hlog : log.diagnostics = (passagesAfter [] acts).map Passage.diagnostic := diagnostics_performAll {} [] rfl acts
  have hfinding : Diagnostic.finding ∘ Passage.diagnostic = Passage.finding := rfl
  refine ⟨?_, ?_, diagnostics_prefix acts, fun strict => ?_, fun others => ?_, errorCount_add_warningCount log, ?_, ?_⟩
  · rw [hlog, List.map_map, hfinding, finding_passagesAfter]
  · rw [hlog, List.forall₂_map_left_iff]
    exact List.forall₂_same.2 fun p _ => ⟨rfl, isError_diagnostic p⟩
  · rw [performAll_append]
    rfl
  · refine ⟨(performAll {} others).diagnostics.map (raised log.strict), ?_, ?_⟩
    · rw [performAll_append]
      exact diagnostics_takeOver log _
    · rw [List.forall₂_map_right_iff]
      refine List.forall₂_same.2 fun d _ => ⟨?_, isError_raised log.strict⟩
      cases log.strict <;> rfl
  · rw [hasErrors, errorCount, List.any_eq_true, List.countP_pos_iff]
  · rw [hasWarnings, warningCount, List.any_eq_true, List.countP_pos_iff]

end ProtoLink.Log
