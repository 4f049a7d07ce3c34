import Mathlib.Data.List.Induction
import ProtoLink.CommandLine.Run
import ProtoLink.Proofs.Name
import ProtoLink.Proofs.Table

/-! The imports after a run of changes: a path is bound to the handle that it was registered with last since the
last reset. Whether a reference is qualified is settled by that, and by nothing that was done before the reset. -/
namespace ProtoLink

namespace Imports

/-- The imports after one change after the other. They are empty before the first. -/
def after (changes : List Change) : Imports := changes.foldl apply ∅

/-- The path was registered with the handle, and since then neither again nor were the imports reset. -/
def LastGives (changes : List Change) (path handle : String) : Prop :=
  ∃ earlier later, changes = earlier ++ .register path handle :: later ∧
    .reset ∉ later ∧ ∀ other, .register path other ∉ later

/-- A change that leaves alone what a path is bound to. -/
def Change.Spares (path : String) (change : Change) : Prop :=
  change ≠ .reset ∧ ∀ other, change ≠ .register path other

variable {imports : Imports} {changes : List Change} {change : Change} {path handle : String}

theorem get?_apply : (imports.apply change).get? path = some handle ↔
    change = .register path handle ∨ imports.get? path = some handle ∧ change.Spares path := by
  cases change with
  | register path' handle' =>
    rw [apply, Table.get?_insert]
    by_cases hpath : path' = path <;> simp [Change.Spares, hpath]
  | reset => simp [apply, Change.Spares]

theorem lastGives_nil : ¬ LastGives [] path handle := by
  rintro ⟨earlier, later, h, _⟩
  simp at h

theorem lastGives_concat : LastGives (changes ++ [change]) path handle ↔
    change = .register path handle ∨ LastGives changes path handle ∧ change.Spares path := by
  constructor
  · rintro ⟨earlier, later, h, hreset, hregister⟩
    rcases List.eq_nil_or_concat later with rfl | ⟨later, last, rfl⟩
    · have hlast := List.append_inj' h rfl
      exact Or.inl (List.singleton_inj.1 hlast.2)
    · rw [List.concat_eq_append, ← List.cons_append, ← List.append_assoc] at h
      obtain ⟨hfront, hlast⟩ := List.append_inj' h rfl
      obtain rfl := List.singleton_inj.1 hlast
      simp only [List.concat_eq_append, List.mem_append, List.mem_singleton, not_or] at hreset hregister
      refine Or.inr ⟨⟨earlier, later, hfront, hreset.1, fun other => (hregister other).1⟩, ?_⟩
      exact ⟨Ne.symm hreset.2, fun other => Ne.symm (hregister other).2⟩
  · rintro (rfl | ⟨⟨earlier, later, rfl, hreset, hregister⟩, hspares⟩)
    · exact ⟨changes, [], rfl, List.not_mem_nil, fun _ => List.not_mem_nil⟩
    · refine ⟨earlier, later ++ [change], by simp, ?_, ?_⟩
      · simpa [hreset] using Ne.symm hspares.1
      · intro other
        simpa [hregister other] using Ne.symm (hspares.2 other)

theorem after_concat : after (changes ++ [change]) = (after changes).apply change := by
  rw [after, List.foldl_append]
  rfl

/-- What a path is bound to in the end is what it was registered with last since the last reset. -/
theorem get?_after : (after changes).get? path = some handle ↔ LastGives changes path handle := by
  induction changes using List.reverseRecOn with
  | nil => exact iff_of_false (by simp [after]) lastGives_nil
  | append_singleton changes change ih => rw [after_concat, get?_apply, lastGives_concat, ih]

/-- Nothing that was done before a reset is left. -/
theorem after_append_reset (earlier changes : List Change) :
    after (earlier ++ .reset :: changes) = after changes := by
  rw [after, List.foldl_append]
  rfl

/-- The imports of a command line are registered one after the other. -/
theorem importTable_eq_after (c : CommandLine.ResolveCommand) :
    c.importTable = after (c.imports.map fun pair => .register pair.1 pair.2) := by
  rw [after, List.foldl_map]
  rfl

end Imports

namespace Batch

/-- A reference does not show whether the name was given with its leading dot. -/
theorem refer_congr (b : Batch) (imports : Imports) (root : ProtoFile) {name other : String}
    (h : unrooted name = unrooted other) : b.refer imports root name = b.refer imports root other := by
  simp only [refer, NameTable.get?, h]

theorem exists_refer_eq_unknown_iff {b : Batch} {imports : Imports} {root : ProtoFile} {name : String} :
    (∃ spelled, b.refer imports root name = .bare spelled .unknown) ↔ unrooted name ∉ b.symbols.names := by
  rw [← NameTable.contains_iff, Bool.not_eq_true, ← Bool.not_eq_true', ← isUnknown_refer b imports root]
  cases b.refer imports root name with
  | bare spelled reason => cases reason <;> simp [Reference.isUnknown]
  | qualified handle tail => simp [Reference.isUnknown]

/-- A reference is qualified exactly if the name is a symbol whose path was registered since the last reset,
and with the last such handle. Nothing before the reset matters, nor does a leading dot. -/
theorem refer_after (b : Batch) (root : ProtoFile) (name : String) (changes : List Imports.Change) :
    let reference := b.refer (Imports.after changes) root name
    (∀ handle, (∃ tail, reference = .qualified handle tail) ↔
      ∃ path, (unrooted name, path) ∈ b.symbols.entries ∧ Imports.LastGives changes path handle) ∧
    ((∃ spelled reason, reference = .bare spelled reason) ↔
      ¬ ∃ handle path, (unrooted name, path) ∈ b.symbols.entries ∧ Imports.LastGives changes path handle) ∧
    ((∃ spelled, reference = .bare spelled .unknown) ↔ unrooted name ∉ b.symbols.names) ∧
    (∀ earlier, b.refer (Imports.after (earlier ++ .reset :: changes)) root name = reference) ∧
    (leadingDots name = 0 → b.refer (Imports.after changes) root ("." ++ name) = reference) := by
  intro reference
  have hqualified : ∀ handle, (∃ tail, reference = .qualified handle tail) ↔
      ∃ path, (unrooted name, path) ∈ b.symbols.entries ∧ Imports.LastGives changes path handle := by
    intro handle
    simp only [reference, refer_eq_qualified_iff, NameTable.get?_eq_some_iff, Imports.get?_after]
    constructor
    · rintro ⟨_, path, hpath, hgives, _⟩
      exact ⟨path, hpath, hgives⟩
    · rintro ⟨path, hpath, hgives⟩
      exact ⟨_, path, hpath, hgives, rfl⟩
  refine ⟨hqualified, ?_, exists_refer_eq_unknown_iff, fun earlier => ?_, fun hdots => ?_⟩
  · simp only [← hqualified]
    cases reference with
    | bare spelled reason => simp
    | qualified handle tail => simp
  · rw [Imports.after_append_reset]
  · apply refer_congr
    rw [unrooted_dot_append, unrooted_eq_self_iff.2 hdots]

/-- The handle from before the reset is forgotten, and the later one of two counts. -/
theorem refer_after_reset :
    let file : ProtoFile := { name := "b", package := "p", messages := [{ name := "X" }] }
    let b := load { settings := {} } ⟨[file]⟩
    let changes : List Imports.Change := [.register "b" "h", .register "c" "l", .register "b" "k", .register "c" "h"]
    leadingDots "p.X" = 0 ∧
      (∃ tail, b.refer (Imports.after changes) file "p.X" = .qualified "k" tail) ∧
      b.refer (Imports.after ([.register "b" "old", .reset] ++ changes)) file "p.X" =
        b.refer (Imports.after changes) file ".p.X" := by
  intro file b changes
  have hdots : leadingDots "p.X" = 0 := by decide
  obtain ⟨hqualified, _, _, hreset, hdot⟩ := refer_after b file "p.X" changes
  have hpath : (unrooted "p.X", "b") ∈ b.symbols.entries := by decide
  have hgives : Imports.LastGives changes "b" "k" :=
    ⟨[.register "b" "h", .register "c" "l"], [.register "c" "h"], rfl, by simp, by simp⟩
  exact ⟨hdots, (hqualified "k").2 ⟨"b", hpath, hgives⟩, (hreset [.register "b" "old"]).trans (hdot hdots).symm⟩

end Batch
end ProtoLink
