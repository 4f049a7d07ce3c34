import Mathlib.Data.List.Nodup
import ProtoLink.Proofs.Settings.Finding

/-! Entries that are skipped. They leave no trace in the settings, so the parameter without them sets the same, and
the strict reading refuses a parameter exactly if there are any. -/
namespace ProtoLink

theorem Settings.assign_filter (settings : Settings) (assignments : List Parameter.Assignment) :
    settings.assign (assignments.filter fun a => ¬ a.IsSkipped) = settings.assign assignments := by
  induction assignments generalizing settings with
  | nil => rfl
  | cons a assignments ih =>
    rw [assign_cons]
    by_cases h : a.IsSkipped
    · rw [List.filter_cons_of_neg (by simpa using h), ih, assign_of_isSkipped settings h]
    · rw [List.filter_cons_of_pos (by simpa using h), assign_cons, ih]

namespace Parameter

open Text (split join)

/-- A log reports an entry if it points to where the entry starts. -/
def Entry.IsReported (e : Entry) (log : Log) : Prop :=
  ∃ d ∈ log.diagnostics, ∃ span ∈ d.span?, span.start = e.start

instance (e : Entry) (log : Log) : Decidable (e.IsReported log) :=
  inferInstanceAs (Decidable (∃ d ∈ log.diagnostics, ∃ span ∈ d.span?, _))

/-- A parameter without the entries that are reported when it is read. -/
def cleaned (text : String) : String :=
  let kept := (place 0 (split ',' text.toList)).filter fun e => ¬ e.IsReported (parse text).2
  .ofList (join ',' (kept.map Entry.text))

/-- The assignment that the text of an entry is read as, wherever it stands. -/
def Assignment.ofText (text : List Char) : Assignment := (⟨0, text⟩ : Entry).assignment

variable {text : String}

theorem eq_of_start_eq {cs : List Char} {d e : Entry} (hd : d ∈ entries cs) (he : e ∈ entries cs)
    (h : d.start = e.start) : d = e := by
  have hnodup : ((entries cs).map Entry.start).Nodup :=
    List.pairwise_map.2 ((pairwise_start_entries cs).imp Nat.ne_of_lt)
  exact List.inj_on_of_nodup_map hnodup hd he h

/-- The entries that are reported are those that are skipped. -/
theorem isReported_parse_iff {e : Entry} (he : e ∈ entries text.toList) :
    e.IsReported (parse text).2 ↔ e.assignment.IsSkipped := by
  rw [Entry.IsReported, diagnostics_parse]
  constructor
  · rintro ⟨d, hd, span, hspan, hstart⟩
    obtain ⟨f, hf, rfl⟩ := List.mem_map.1 hd
    obtain ⟨reported, hreported, hfinding⟩ := List.mem_filterMap.1 hf
    have hconcerns := concerns_of_finding? hfinding
    have hsame := eq_of_start_eq hreported he ((hconcerns.within hspan).1.symm.trans hstart)
    exact hsame ▸ hconcerns.1.isSkipped
  · intro hskipped
    cases hfinding : e.finding? with
    | none => exact absurd hskipped (finding?_eq_none_iff.1 hfinding)
    | some f =>
      have hconcerns := concerns_of_finding? hfinding
      have hf := List.mem_filterMap.2 ⟨e, he, hfinding⟩
      exact ⟨_, List.mem_map_of_mem hf, _, hconcerns.2, (hconcerns.within hconcerns.2).1⟩

theorem map_assignment_entries (text : List Char) : (entries text).map Entry.assignment =
    ((split ',' text).filter (· ≠ [])).map Assignment.ofText := by
  have htext := map_text_place 0 (split ',' text)
  rw [← htext, List.filter_map, List.map_map, entries]
  rfl

/-- The assignments of pieces that are joined are those of the pieces that are not empty. -/
theorem map_assignment_entries_join {pieces : List (List Char)} (h : ∀ piece ∈ pieces, ',' ∉ piece) :
    (entries (join ',' pieces)).map Entry.assignment = (pieces.filter (· ≠ [])).map Assignment.ofText := by
  rw [map_assignment_entries]
  by_cases hpieces : pieces = []
  · subst pieces
    rfl
  · rw [Text.split_join hpieces h]

theorem map_assignment_cleaned (text : String) : (entries (cleaned text).toList).map Entry.assignment =
    ((entries text.toList).map Entry.assignment).filter fun a => ¬ a.IsSkipped := by
  have hcommas : ∀ piece ∈ ((place 0 (split ',' text.toList)).filter fun e => ¬ e.IsReported (parse text).2).map
      Entry.text, ',' ∉ piece := by
    intro piece hpiece
    obtain ⟨e, he, rfl⟩ := List.mem_map.1 hpiece
    obtain ⟨_, _, _, _, hcomma, _⟩ := mem_place_split_iff.1 (List.mem_filter.1 he).1
    exact hcomma
  have hkept : ((entries text.toList).filter fun e => ¬ e.IsReported (parse text).2) =
      (entries text.toList).filter fun e => ¬ e.assignment.IsSkipped :=
    List.filter_congr fun e he => decide_eq_decide.2 (not_congr (isReported_parse_iff he))
  rw [cleaned, String.toList_ofList, map_assignment_entries_join hcommas, List.filter_map, List.map_map,
    List.filter_map, List.filter_comm]
  exact congrArg (List.map Entry.assignment) hkept

theorem parse_cleaned (text : String) : parse (cleaned text) = ((parse text).1, {}) := by
  have hfindings : (entries (cleaned text).toList).filterMap Entry.finding? = [] := by
    rw [List.filterMap_eq_nil_iff]
    intro e he
    have hmem : e.assignment ∈ (entries (cleaned text).toList).map Entry.assignment := List.mem_map_of_mem he
    rw [map_assignment_cleaned, List.mem_filter] at hmem
    exact finding?_eq_none_iff.2 (of_decide_eq_true hmem.2)
  rw [parse_eq, parse_eq, read_eq, read_eq, hfindings, map_assignment_cleaned, Settings.assign_filter]
  rfl

theorem parseStrict_eq (text : String) : parseStrict text =
    if (read text).2.isEmpty then .ok (read text).1
    else .error ⟨({ strict := true } : Log).reportAll (read text).2⟩ := rfl

theorem length_findings (text : List Char) : ((entries text).filterMap Entry.finding?).length =
    ((entries text).filter fun e => e.assignment.IsSkipped).length := by
  have hentries : ∀ e ∈ entries text, e.StandsIn text ∧ e.text ≠ [] := fun e => mem_entries_iff.1
  have hlength := (forall₂_pinpoints hentries .warning).length_eq
  rwa [List.length_map] at hlength

/-- The parameter without its skipped entries sets the same, with nothing to report. The strict reading
refuses a parameter exactly if an entry is skipped, with the same diagnostics, as errors. -/
theorem parse_without_skipped (text : String) :
    let settings := (parse text).1
    let diagnostics := (parse text).2.diagnostics
    let skipped := (entries text.toList).filter fun e => e.assignment.IsSkipped
    parse (cleaned text) = (settings, {}) ∧
    (∀ chosen, parseStrict text = .ok chosen ↔ settings = chosen ∧ diagnostics = []) ∧
    (diagnostics ≠ [] → ∃ rejection, parseStrict text = .error rejection ∧
      rejection.log.diagnostics = diagnostics.map (fun d => { d with severity := .error }) ∧
      rejection.log.errorCount = skipped.length ∧
      rejection.message = "generator parameter rejected with " ++ toString skipped.length ++ " errors") := by
  intro settings diagnostics skipped
  have hfindings : (read text).2 = (entries text.toList).filterMap Entry.finding? := by rw [read_eq]
  have hdiagnostics : diagnostics = (read text).2.map (Diagnostic.mk .warning) := by
    rw [hfindings]
    exact diagnostics_parse text
  refine ⟨parse_cleaned text, fun chosen => ?_, fun hreported => ?_⟩
  · rw [parseStrict_eq, hdiagnostics, List.map_eq_nil_iff]
    cases hread : (read text).2 with
    | nil => simp [settings, parse_eq]
    | cons f findings => simp
  · have hsome : (read text).2.isEmpty = false := by
      rw [hdiagnostics, ne_eq, List.map_eq_nil_iff] at hreported
      simpa using hreported
    have hcount : (({ strict := true } : Log).reportAll (read text).2).errorCount = skipped.length := by
      rw [Log.errorCount_reportAll_new, if_pos rfl, hfindings, length_findings]
    refine ⟨⟨({ strict := true } : Log).reportAll (read text).2⟩, ?_, ?_, hcount, ?_⟩
    · rw [parseStrict_eq, hsome, if_neg Bool.false_ne_true]
    · rw [Log.reportAll_new, hdiagnostics, List.map_map]
      rfl
    · rw [← hcount]
      rfl

/-- Entries of each kind that is skipped, one of them with an empty key, between others that are not. -/
theorem parse_without_skipped_four :
    let text := "style,no_namespace=false,=ü,,style=grpc-js,ä=1,style=x"
    cleaned text = "no_namespace=false,,style=grpc-js" ∧
      parse "no_namespace=false,,style=grpc-js" = ({ noNamespace := false, style := .grpcJs }, {}) ∧
      (parse text).2.diagnostics ≠ [] ∧ ∃ rejection, parseStrict text = .error rejection ∧
        rejection.log.errorCount = 4 ∧ rejection.message = "generator parameter rejected with 4 errors" := by
  intro text
  have hcleaned : cleaned text = "no_namespace=false,,style=grpc-js" := by decide +kernel
  have hreported : (parse text).2.diagnostics ≠ [] := by decide +kernel
  obtain ⟨hsame, -, hrefused⟩ := parse_without_skipped text
  have hsettings : (parse text).1 = { noNamespace := false, style := .grpcJs } := by decide +kernel
  have hcount : ((entries text.toList).filter fun e => e.assignment.IsSkipped).length = 4 := by decide +kernel
  obtain ⟨rejection, hstrict, -, herrors, hmessage⟩ := hrefused hreported
  rw [hcleaned, hsettings] at hsame
  rw [hcount] at herrors hmessage
  exact ⟨hcleaned, hsame, hreported, rejection, hstrict, herrors, hmessage⟩

end Parameter
end ProtoLink
