import Mathlib.Data.List.Forall2
import ProtoLink.Diagnostic.Rendering
import ProtoLink.Proofs.Log
import ProtoLink.Proofs.Settings.Reading
import ProtoLink.Proofs.Text.Span

/-! Where the diagnostics of a parameter point. There is one for each entry that is skipped, in order, and it marks
the key of the entry or all of it, so that it can be drawn into the parameter. -/
namespace ProtoLink.Parameter

open Diagnostic (Finding Kind)
open Text (byteLength)

/-- What is found amiss with an entry. -/
def Entry.finding? (e : Entry) : Option Finding :=
  match e.read with
  | .ok _ => none
  | .error finding => some finding

/-- A span points at a part of a text. It covers just that, ends between characters, and has something to show when
it is drawn, at which it still ends between characters. -/
structure Points (span : Text.Span) (text part : List Char) : Prop where
  stop_le : span.stop ≤ byteLength text
  fits : span.fits text
  covered : span.covered text = part
  visible_lt : (span.visible (byteLength text)).start < (span.visible (byteLength text)).stop
  visible_le : (span.visible (byteLength text)).stop ≤ byteLength text
  visible_fits : (span.visible (byteLength text)).fits text

/-- A diagnostic says what is amiss with an entry of a text. It points at the key of the entry if that is unknown,
and else at all of it. -/
def Pinpoints (text : List Char) (d : Diagnostic) (e : Entry) : Prop :=
  ∃ a span, Assigns e.text a ∧ a.IsAmiss d.kind ∧ d.span? = some span ∧ span.start = e.start ∧
    Points span text (if d.kind = .unknownOption then a.key.toList else e.text)

variable {text : List Char} {e : Entry} {f : Finding}

theorem concerns_of_finding? (h : e.finding? = some f) : Concerns f e := by
  have hagrees := agrees_read e
  rw [Entry.finding?] at h
  cases hread : e.read with
  | ok setting => simp [hread] at h
  | error finding =>
    simp only [hread, Option.some.injEq] at h
    rw [hread] at hagrees
    exact h ▸ hagrees

theorem finding?_eq_none_iff : e.finding? = none ↔ ¬ e.assignment.IsSkipped := by
  have hagrees := agrees_read e
  rw [Entry.finding?]
  cases hread : e.read with
  | ok setting =>
    rw [hread] at hagrees
    simp [hagrees.1]
  | error finding =>
    rw [hread] at hagrees
    simp [hagrees.1.isSkipped]

theorem foldl_step_snd (es : List Entry) (state : Settings × List Finding) :
    (es.foldl step state).2 = state.2 ++ es.filterMap Entry.finding? := by
  induction es generalizing state with
  | nil => simp
  | cons e es ih =>
    rw [List.foldl_cons, ih, step, List.filterMap_cons, Entry.finding?]
    cases e.read <;> simp

theorem read_eq (text : String) : read text =
    (({} : Settings).assign ((entries text.toList).map Entry.assignment),
      (entries text.toList).filterMap Entry.finding?) :=
  Prod.ext (foldl_step_fst _ _) (foldl_step_snd _ _)

theorem parse_eq (text : String) : parse text = ((read text).1, ({} : Log).reportAll (read text).2) := rfl

theorem diagnostics_parse (text : String) : (parse text).2.diagnostics =
    ((entries text.toList).filterMap Entry.finding?).map (Diagnostic.mk .warning) := by
  rw [parse_eq, read_eq, Log.reportAll_new]
  rfl

/-! The spans of entries -/

/-- Behind its key an entry ends or goes on with an equals sign. -/
theorem exists_text_eq (e : Entry) : ∃ rest, e.text = e.key ++ rest ∧ ∀ c ∈ rest.head?, c = '=' := by
  obtain ⟨key, parts, hparts⟩ := List.exists_cons_of_ne_nil (Text.split_ne_nil '=' e.text)
  have hkey : e.key = key := by rw [Entry.key, Entry.parts, hparts, List.headD_cons]
  rw [hkey, ← Text.join_split '=' e.text, hparts]
  exact Text.exists_join_cons '=' key parts

theorem Entry.StandsIn.marks_span (h : e.StandsIn text) : e.span.Marks text e.text := by
  obtain ⟨front, back, htext, hstart, -⟩ := h
  exact ⟨front, back, htext, hstart, by rw [Entry.span, hstart]⟩

theorem Entry.StandsIn.marks_keySpan (h : e.StandsIn text) : e.keySpan.Marks text e.key := by
  obtain ⟨front, back, htext, hstart, -⟩ := h
  obtain ⟨rest, hkey, -⟩ := exists_text_eq e
  refine ⟨front, rest ++ back, ?_, hstart, by rw [Entry.keySpan, hstart]⟩
  rw [htext, hkey]
  simp only [List.append_assoc]

/-- In place of an empty key the equals sign behind it is shown. -/
theorem Entry.StandsIn.marks_visible (h : e.StandsIn text) (hne : e.text ≠ []) (hkey : e.key = []) :
    (e.keySpan.visible (byteLength text)).Marks text ['='] := by
  have hlimit : e.start < byteLength text :=
    Nat.lt_of_lt_of_le (h.marks_span.start_lt_stop hne) h.marks_span.stop_le
  have hempty : e.keySpan.stop = e.keySpan.start := by simp [Entry.keySpan, hkey]
  obtain ⟨front, back, htext, hstart, -⟩ := h
  obtain ⟨rest, hrest, hhead⟩ := exists_text_eq e
  rw [hkey, List.nil_append] at hrest
  obtain ⟨c, rest, rfl⟩ := List.exists_cons_of_ne_nil (hrest ▸ hne)
  obtain rfl : c = '=' := hhead c rfl
  rw [Text.Span.visible_of_eq hempty hlimit]
  refine ⟨front, rest ++ back, ?_, hstart, ?_⟩
  · rw [htext, hrest]
    simp
  · simp only [Entry.keySpan, hstart]
    rfl

/-- A span that marks a part points at it, if what is shown of it marks something. -/
theorem points_of_marks {span : Text.Span} {part shown : List Char} (h : span.Marks text part)
    (hshown : (span.visible (byteLength text)).Marks text shown) (hne : shown ≠ []) : Points span text part where
  stop_le := h.stop_le
  fits := h.fits
  covered := h.covered
  visible_lt := hshown.start_lt_stop hne
  visible_le := hshown.stop_le
  visible_fits := hshown.fits

theorem Entry.StandsIn.points_span (h : e.StandsIn text) (hne : e.text ≠ []) : Points e.span text e.text := by
  have hmarks := h.marks_span
  have hvisible := hmarks.visible hne
  exact points_of_marks hmarks (hvisible.symm ▸ hmarks) hne

theorem Entry.StandsIn.points_keySpan (h : e.StandsIn text) (hne : e.text ≠ []) : Points e.keySpan text e.key := by
  have hmarks := h.marks_keySpan
  by_cases hkey : e.key = []
  · exact points_of_marks hmarks (h.marks_visible hne hkey) (List.cons_ne_nil _ _)
  · have hvisible := hmarks.visible hkey
    exact points_of_marks hmarks (hvisible.symm ▸ hmarks) hkey

theorem pinpoints_of_concerns (h : e.StandsIn text) (hne : e.text ≠ []) (hf : Concerns f e) (severity : Severity) :
    Pinpoints text ⟨severity, f⟩ e := by
  refine ⟨e.assignment, _, assigns_iff.2 rfl, hf.1, hf.2, ?_, ?_⟩
  · split <;> rfl
  · have hkey : e.assignment.key.toList = e.key := String.toList_ofList
    change Points _ text (if f.kind = .unknownOption then e.assignment.key.toList else e.text)
    split
    · rw [hkey]
      exact h.points_keySpan hne
    · exact h.points_span hne

/-- The entries with something amiss are those that are skipped. -/
theorem forall₂_pinpoints {es : List Entry} (hes : ∀ e ∈ es, e.StandsIn text ∧ e.text ≠ []) (severity : Severity) :
    List.Forall₂ (Pinpoints text) ((es.filterMap Entry.finding?).map (Diagnostic.mk severity))
      (es.filter fun e => e.assignment.IsSkipped) := by
  induction es with
  | nil => exact .nil
  | cons e es ih =>
    rw [List.forall_mem_cons] at hes
    cases hfinding : e.finding? with
    | none =>
      have hkept := finding?_eq_none_iff.1 hfinding
      rw [List.filterMap_cons_none hfinding, List.filter_cons_of_neg (by simpa using hkept)]
      exact ih hes.2
    | some finding =>
      have hconcerns := concerns_of_finding? hfinding
      have hpinpoints := pinpoints_of_concerns hes.1.1 hes.1.2 hconcerns severity
      rw [List.filterMap_cons_some hfinding, List.map_cons,
        List.filter_cons_of_pos (by simpa using hconcerns.1.isSkipped)]
      exact .cons hpinpoints (ih hes.2)

/-- A finding starts where its entry does, and ends within it. -/
theorem Concerns.within (h : Concerns f e) {span : Text.Span} (hspan : span ∈ f.span?) :
    span.start = e.start ∧ span.stop ≤ e.span.stop := by
  rw [h.2, Option.mem_some_iff] at hspan
  subst hspan
  obtain ⟨rest, htext, -⟩ := exists_text_eq e
  have hlength : byteLength e.text = byteLength e.key + byteLength rest := by rw [htext, Text.byteLength_append]
  split
  · exact ⟨rfl, by simp only [Entry.keySpan, Entry.span]; omega⟩
  · exact ⟨rfl, Nat.le_refl _⟩

theorem pairwise_findings (text : List Char) : ((entries text).filterMap Entry.finding?).Pairwise
    fun f later => ∀ span ∈ f.span?, ∀ next ∈ later.span?, span.stop < next.start := by
  rw [List.pairwise_filterMap]
  refine (pairwise_entries text).imp fun {d e} h f hf later hlater span hspan next hnext => ?_
  have hbefore := (concerns_of_finding? hf).within hspan
  have hbehind := (concerns_of_finding? hlater).within hnext
  omega

theorem Pinpoints.isDrawable {d : Diagnostic} {source : String} (h : Pinpoints source.toList d e)
    (path? : Option String) (coloured : Bool) :
    d.isDrawable { source? := some source, path?, coloured } = true := by
  obtain ⟨a, span, -, -, hspan, -, hpoints⟩ := h
  simp only [Diagnostic.isDrawable, Diagnostic.snippet?, hspan]
  exact hpoints.visible_fits

/-- There is one diagnostic for each entry with something amiss, in order. It points at the key if that is
unknown and else at the whole entry, behind where the one before ends, and can be drawn into the parameter. -/
theorem pinpoints_parse (text : String) :
    let diagnostics := (parse text).2.diagnostics
    (∃ skipped : List Entry,
      (∀ e, e ∈ skipped ↔ e.StandsIn text.toList ∧ e.text ≠ [] ∧ ∃ a, Assigns e.text a ∧ a.IsSkipped) ∧
      skipped.Pairwise (fun d e => d.start < e.start) ∧
      List.Forall₂ (Pinpoints text.toList) diagnostics skipped) ∧
    diagnostics.Pairwise (fun d later => ∀ span ∈ d.span?, ∀ next ∈ later.span?, span.stop < next.start) ∧
    ∀ path? coloured, ((parse text).2.render? { source? := some text, path?, coloured }).isSome := by
  intro diagnostics
  have hentries : ∀ e ∈ entries text.toList, e.StandsIn text.toList ∧ e.text ≠ [] := fun e => mem_entries_iff.1
  have hdiagnostics : diagnostics = ((entries text.toList).filterMap Entry.finding?).map (Diagnostic.mk .warning) :=
    diagnostics_parse text
  have hpinpoints := forall₂_pinpoints hentries .warning
  rw [← hdiagnostics] at hpinpoints
  refine ⟨⟨_, fun e => ?_, (pairwise_start_entries text.toList).filter _, hpinpoints⟩, ?_, fun path? coloured => ?_⟩
  · simp [mem_entries_iff, assigns_iff, and_assoc]
  · rw [hdiagnostics, List.pairwise_map]
    exact pairwise_findings text.toList
  · have hdrawable := hpinpoints.imp fun d e h => And.intro (h.isDrawable path? coloured) h
    have hall := List.all_eq_true.2 ((List.forall₂_and_left _ _).1 hdrawable).1
    rw [Log.render?, if_pos hall]
    rfl

/-- An empty key is pointed at where it would stand, and the equals sign is shown for it. -/
example : ((parse "ä=1,=ü").2.diagnostics.map fun d => (d.kind, d.span?)) =
    [(.unknownOption, some ⟨0, 2⟩), (.unknownOption, some ⟨5, 5⟩)] ∧
      (⟨5, 5⟩ : Text.Span).visible (byteLength "ä=1,=ü".toList) = ⟨5, 6⟩ := by decide

end ProtoLink.Parameter
