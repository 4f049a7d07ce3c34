import ProtoLink.Batch.Opening
import ProtoLink.Proofs.Loading
import ProtoLink.Proofs.Redeclaration

/-! How the parts of a batch belong together. The tables are filled while the files are walked, and the files are
kept only after that, yet with every load each table speaks of the files that the batch holds by then. -/
namespace ProtoLink

namespace Message

theorem isMapEntry_of_mem_filter {ms : List Message} {e : List String × Message}
    (h : e ∈ (ms.filter isMapEntry).map fun m => ([m.name], m)) : e.2.isMapEntry = true := by
  obtain ⟨m, hm, rfl⟩ := List.mem_map.1 h
  exact (List.mem_filter.1 hm).2

mutual

theorem isMapEntry_of_mem_entries : (m : Message) → ∀ e ∈ m.entries, e.2.isMapEntry = true
  | ⟨_, _, messages, _, _⟩ => by
    intro e he
    rcases List.mem_append.1 he with he | he
    · exact isMapEntry_of_mem_filter he
    · exact isMapEntry_of_mem_allEntries messages e he

theorem isMapEntry_of_mem_allEntries : (ms : List Message) → ∀ e ∈ allEntries ms, e.2.isMapEntry = true
  | [] => by
    intro e he
    exact absurd he List.not_mem_nil
  | m :: ms => by
    intro e he
    rw [allEntries] at he
    split at he
    · exact isMapEntry_of_mem_allEntries ms e he
    · rcases List.mem_append.1 he with he | he
      · obtain ⟨inner, hinner, rfl⟩ := List.mem_map.1 he
        exact isMapEntry_of_mem_entries m inner hinner
      · exact isMapEntry_of_mem_allEntries ms e he

end

end Message

theorem ProtoFile.isMapEntry_of_mem_entries {f : ProtoFile} {e : List String × Message} (h : e ∈ f.entries) :
    e.2.isMapEntry = true := by
  rcases List.mem_append.1 h with h | h
  · exact Message.isMapEntry_of_mem_filter h
  · exact Message.isMapEntry_of_mem_allEntries f.messages e h

namespace Batch

/-- What the parts of a batch say about each other. -/
structure IsConsistent (b : Batch) : Prop where
  /-- The packages are those of the files. -/
  packages : b.packages = b.files.map ProtoFile.package
  /-- Beside each name stands the path of a file that still declares it. -/
  symbols : ∀ name path, (name, path) ∈ b.symbols.entries → ∃ f ∈ b.files, f.name = path ∧
    ∃ chain ∈ f.chains, name = unrooted (nameAlong f.package chain)
  /-- Map entries are entered apart, and nothing else is. -/
  mapEntries : ∀ name m, (name, m) ∈ b.mapEntries.entries → m.isMapEntry = true

theorem isConsistent_empty (settings : Settings) : ({ settings } : Batch).IsConsistent := by
  refine ⟨rfl, ?_, ?_⟩
  · intro name path h
    exact absurd h List.not_mem_nil
  · intro name m h
    exact absurd h List.not_mem_nil

/-- A load keeps the files that its declarations came from, and prunes them only of what is no type. -/
theorem IsConsistent.load {b : Batch} (h : b.IsConsistent) (set : FileSet) : (b.load set).IsConsistent := by
  refine ⟨?_, ?_, ?_⟩
  · rw [packages_load, files_load, List.map_append, ProtoFile.map_package_pruned, h.packages]
  · intro name path hentry
    rw [files_load]
    have hentry : (name, path) ∈ (b.load set).symbols.table.entries := hentry
    rw [symbols_load] at hentry
    rcases Table.mem_of_mem_insertAll hentry with hnew | hold
    · obtain ⟨f, hf, hdeclared⟩ := List.mem_flatMap.1 hnew
      obtain ⟨chain, hchain, heq⟩ := List.mem_map.1 hdeclared
      obtain ⟨rfl, rfl⟩ := Prod.ext_iff.1 heq
      have hkept : f.pruned ∈ b.files ++ set.files.map ProtoFile.pruned :=
        List.mem_append_right _ (List.mem_map.2 ⟨f, hf, rfl⟩)
      have hstill : chain ∈ f.pruned.chains := by rwa [ProtoFile.chains_pruned]
      exact ⟨f.pruned, hkept, rfl, chain, hstill, rfl⟩
    · obtain ⟨f, hf, hdeclared⟩ := h.symbols name path hold
      exact ⟨f, List.mem_append_left _ hf, hdeclared⟩
  · intro name m hentry
    have hentry : (name, m) ∈ (b.load set).mapEntries.table.entries := hentry
    rw [mapEntries_load] at hentry
    rcases Table.mem_of_mem_insertAll hentry with hnew | hold
    · obtain ⟨f, _, hentered⟩ := List.mem_flatMap.1 hnew
      obtain ⟨e, he, heq⟩ := List.mem_map.1 hentered
      obtain ⟨_, rfl⟩ := Prod.ext_iff.1 heq
      exact ProtoFile.isMapEntry_of_mem_entries he
    · exact h.mapEntries name m hold

theorem IsConsistent.loadAll {b : Batch} (h : b.IsConsistent) (sets : List FileSet) :
    (b.loadAll sets).IsConsistent := by
  induction sets generalizing b with
  | nil => exact h
  | cons set sets ih => exact ih (h.load set)

/-- The file that the symbols name for a type is part of the batch. -/
theorem IsConsistent.findFile {b : Batch} (h : b.IsConsistent) {name path : String}
    (hpath : b.symbols.get? name = some path) :
    ∃ f ∈ b.files, b.findFile path = .ok f ∧ f.name = path := by
  obtain ⟨f, hf, hname, _⟩ := h.symbols _ path (NameTable.get?_eq_some_iff.1 hpath)
  have hfound : (b.files.find? fun f => f.name = path).isSome = true := by
    rw [List.find?_isSome]
    exact ⟨f, hf, decide_eq_true hname⟩
  obtain ⟨found, hfound⟩ := Option.isSome_iff_exists.1 hfound
  have hsame := List.find?_some hfound
  refine ⟨found, List.mem_of_find?_eq_some hfound, ?_, of_decide_eq_true hsame⟩
  rw [Batch.findFile, file?, hfound]

/-- After any run of loads the parts of the batch belong together, and the path of every symbol leads to a file. -/
theorem isConsistent_loadAll (settings : Settings) (sets : List FileSet) :
    let b := loadAll { settings } sets
    b.IsConsistent ∧ ∀ name path, b.symbols.get? name = some path →
      ∃ f ∈ b.files, b.findFile path = .ok f ∧ f.name = path := by
  intro b
  have hconsistent : b.IsConsistent := (isConsistent_empty settings).loadAll sets
  exact ⟨hconsistent, fun _ _ hpath => hconsistent.findFile hpath⟩

end Batch
end ProtoLink
