import ProtoLink.Proofs.Name
import ProtoLink.Proofs.Pruning

/-! Batches after a run of loads, and what becomes of their names if the files are well named. -/
namespace ProtoLink

namespace Batch

/-- Takes in one set of files after the other. -/
def loadAll (b : Batch) (sets : List FileSet) : Batch := sets.foldl load b

variable (b : Batch)

theorem symbols_load (set : FileSet) :
    (b.load set).symbols.table = b.symbols.table.insertAll (set.files.flatMap ProtoFile.declarations) :=
  b.symbols_registerAll set.files

theorem mapEntries_load (set : FileSet) :
    (b.load set).mapEntries.table = b.mapEntries.table.insertAll (set.files.flatMap ProtoFile.mapEntries) :=
  b.mapEntries_registerAll set.files

theorem packages_load (set : FileSet) :
    (b.load set).packages = b.packages ++ set.files.map ProtoFile.package :=
  b.packages_registerAll set.files

theorem settings_load (set : FileSet) : (b.load set).settings = b.settings :=
  b.settings_registerAll set.files

theorem files_load (set : FileSet) : (b.load set).files = b.files ++ set.files.map ProtoFile.pruned := by
  simp only [load, registerAll_snd, files_registerAll]

/-- Loading registers the files and keeps them without their map entries. -/
theorem load_eq (set : FileSet) :
    b.load set = { (b.registerAll set.files).1 with files := b.files ++ set.files.map ProtoFile.pruned } := by
  rw [load, ← registerAll_snd b, ← files_registerAll b set.files]

theorem log_load (set : FileSet) :
    (b.load set).log = b.log.reportAll (redeclared b.symbols (set.files.flatMap ProtoFile.registrations)) := by
  rw [load_eq, registerAll_fst]

theorem load_nil : b.load ⟨[]⟩ = b := by
  simp [load, registerAll]

theorem load_load (first second : FileSet) :
    (b.load first).load second = b.load ⟨first.files ++ second.files⟩ := by
  simp only [load_eq, registerAll_fst, List.flatMap_append, List.map_append, NameTable.insertAll_append,
    redeclared_append, Log.reportAll_append, List.append_assoc]

/-- Sets that are loaded one after the other leave what all of their files leave at once. -/
theorem loadAll_eq_load (sets : List FileSet) : b.loadAll sets = b.load ⟨sets.flatMap FileSet.files⟩ := by
  induction sets generalizing b with
  | nil => exact b.load_nil.symm
  | cons set sets ih =>
    calc b.loadAll (set :: sets)
        = (b.load set).loadAll sets := rfl
      _ = (b.load set).load ⟨sets.flatMap FileSet.files⟩ := ih (b.load set)
      _ = b.load ⟨set.files ++ sets.flatMap FileSet.files⟩ := b.load_load _ _
      _ = b.load ⟨(set :: sets).flatMap FileSet.files⟩ := by rw [List.flatMap_cons]

theorem symbols_loadAll (sets : List FileSet) :
    (b.loadAll sets).symbols.table =
      b.symbols.table.insertAll ((sets.flatMap FileSet.files).flatMap ProtoFile.declarations) := by
  rw [loadAll_eq_load, symbols_load]

theorem mapEntries_loadAll (sets : List FileSet) :
    (b.loadAll sets).mapEntries.table =
      b.mapEntries.table.insertAll ((sets.flatMap FileSet.files).flatMap ProtoFile.mapEntries) := by
  rw [loadAll_eq_load, mapEntries_load]

theorem packages_loadAll (sets : List FileSet) :
    (b.loadAll sets).packages = b.packages ++ (sets.flatMap FileSet.files).map ProtoFile.package := by
  rw [loadAll_eq_load, packages_load]

theorem settings_loadAll (sets : List FileSet) : (b.loadAll sets).settings = b.settings := by
  rw [loadAll_eq_load, settings_load]

theorem files_loadAll (sets : List FileSet) :
    (b.loadAll sets).files = b.files ++ (sets.flatMap FileSet.files).map ProtoFile.pruned := by
  rw [loadAll_eq_load, files_load]

end Batch

namespace Message

theorem ne_nil_of_mem_allChains {ms : List Message} {chain : List String} (h : chain ∈ allChains ms) :
    chain ≠ [] := by
  induction ms with
  | nil => simp [allChains] at h
  | cons m ms ih =>
    rw [allChains] at h
    split at h
    · exact ih h
    · simp only [List.cons_append, List.mem_cons, List.mem_append, List.mem_map] at h
      obtain rfl | ⟨_, _, rfl⟩ | h := h
      · simp
      · simp
      · exact ih h

theorem ne_nil_of_mem_allEntries {ms : List Message} {e : List String × Message}
    (h : e ∈ allEntries ms) : e.1 ≠ [] := by
  induction ms with
  | nil => cases h
  | cons m ms ih =>
    rw [allEntries] at h
    split at h
    · exact ih h
    · obtain h | h := List.mem_append.1 h
      · obtain ⟨_, _, rfl⟩ := List.mem_map.1 h
        exact List.cons_ne_nil _ _
      · exact ih h

end Message

namespace ProtoFile

variable {f : ProtoFile} {chain : List String}

theorem ne_nil_of_mem_chains (h : chain ∈ f.chains) : chain ≠ [] := by
  obtain h | h := List.mem_append.1 h
  · obtain ⟨_, _, rfl⟩ := List.mem_map.1 h
    simp
  · exact Message.ne_nil_of_mem_allChains h

theorem ne_nil_of_mem_entries {e : List String × Message} (h : e ∈ f.entries) : e.1 ≠ [] := by
  obtain h | h := List.mem_append.1 h
  · obtain ⟨_, _, rfl⟩ := List.mem_map.1 h
    exact List.cons_ne_nil _ _
  · exact Message.ne_nil_of_mem_allEntries h

/-- The name of a type in full: its chain, behind the package if the file has one. -/
def qualified (f : ProtoFile) (chain : List String) : String :=
  if f.package = "" then dotted chain else f.package ++ "." ++ dotted chain

/-- The names in full of the types of a file. -/
def typeNames (f : ProtoFile) : List String := f.chains.map f.qualified

/-- The names in full of the map entries of a file. -/
def entryNames (f : ProtoFile) : List String := f.entries.map fun e => f.qualified e.1

/-- A file whose package is made of segments, and whose types have segments as their names. -/
structure IsWellNamed (f : ProtoFile) : Prop where
  package : ∃ segments, (∀ s ∈ segments, IsSegment s) ∧ f.package = dotted segments
  names : ∀ chain ∈ f.chains, ∀ name ∈ chain, IsSegment name

/-- The segments of a package are those between its dots. -/
theorem isWellNamed_iff : f.IsWellNamed ↔
    (f.package = "" ∨ ∀ s ∈ nameSegments f.package, IsSegment s) ∧
      ∀ chain ∈ f.chains, ∀ name ∈ chain, IsSegment name := by
  constructor
  · rintro ⟨hpackage, hnames⟩
    exact ⟨exists_segments_iff.1 hpackage, hnames⟩
  · rintro ⟨hpackage, hnames⟩
    exact ⟨exists_segments_iff.2 hpackage, hnames⟩

instance : DecidablePred IsWellNamed := fun _ => decidable_of_iff' _ isWellNamed_iff

theorem qualified_eq_dotted {segments : List String} (hs : ∀ s ∈ segments, IsSegment s)
    (hp : f.package = dotted segments) (hc : chain ≠ []) :
    f.qualified chain = dotted (segments ++ chain) := by
  by_cases he : segments = []
  · subst segments
    rw [dotted_nil] at hp
    rw [qualified, if_pos hp, List.nil_append]
  · rw [qualified, hp, if_neg (dotted_ne_empty hs he), dotted_append he hc]

/-- The scopes of a well named file build up names in full from segments. -/
theorem IsWellNamed.nameAlong_of_segments (hf : f.IsWellNamed) (hne : chain ≠ [])
    (hchain : ∀ name ∈ chain, IsSegment name) :
    nameAlong f.package chain = f.qualified chain ∧ unrooted (f.qualified chain) = f.qualified chain := by
  obtain ⟨segments, hs, hp⟩ := hf.package
  rw [qualified_eq_dotted hs hp hne]
  constructor
  · rw [nameAlong, hp, foldl_nameWithin_dotted hs hchain]
  · exact unrooted_dotted (List.forall_mem_append.2 ⟨hs, hchain⟩)

theorem IsWellNamed.nameAlong_eq (hf : f.IsWellNamed) (hc : chain ∈ f.chains) :
    nameAlong f.package chain = f.qualified chain :=
  (hf.nameAlong_of_segments (ne_nil_of_mem_chains hc) (hf.names chain hc)).1

theorem IsWellNamed.unrooted_qualified (hf : f.IsWellNamed) (hc : chain ∈ f.chains) :
    unrooted (f.qualified chain) = f.qualified chain :=
  (hf.nameAlong_of_segments (ne_nil_of_mem_chains hc) (hf.names chain hc)).2

/-- A descriptor spells the name with a dot in front of it. -/
theorem IsWellNamed.unrooted_spelling (hf : f.IsWellNamed) (hc : chain ∈ f.chains) :
    ∀ name ∈ [f.qualified chain, "." ++ f.qualified chain], unrooted name = f.qualified chain := by
  rw [List.forall_mem_cons, List.forall_mem_singleton]
  exact ⟨hf.unrooted_qualified hc, unrooted_dot_append _⟩

theorem IsWellNamed.nameRelativeTo_qualified (hf : f.IsWellNamed) (hc : chain ∈ f.chains) :
    nameRelativeTo f.package (f.qualified chain) = dotted chain := by
  obtain ⟨segments, hs, hp⟩ := hf.package
  rw [qualified_eq_dotted hs hp (ne_nil_of_mem_chains hc), hp]
  exact nameRelativeTo_dotted hs (ne_nil_of_mem_chains hc)

theorem IsWellNamed.declarations_eq (hf : f.IsWellNamed) :
    f.declarations = f.typeNames.map fun name => (name, f.name) := by
  rw [declarations, typeNames, List.map_map]
  apply List.map_congr_left
  intro chain hc
  rw [hf.nameAlong_eq hc, hf.unrooted_qualified hc]
  rfl

theorem flatMap_declarations {files : List ProtoFile} (hnamed : ∀ f ∈ files, f.IsWellNamed) :
    files.flatMap declarations = files.flatMap fun f => f.typeNames.map fun name => (name, f.name) := by
  simp only [List.flatMap_def, List.map_congr_left fun f hf => (hnamed f hf).declarations_eq]

theorem map_fst_flatMap_declarations {files : List ProtoFile} (hnamed : ∀ f ∈ files, f.IsWellNamed) :
    (files.flatMap declarations).map Prod.fst = files.flatMap typeNames := by
  rw [flatMap_declarations hnamed, List.map_flatMap]
  simp [Function.comp_def]

end ProtoFile

namespace Batch

/-- In well named files, each name in full is found under the file that declares it, if only one does. -/
theorem get?_symbols_loadAll (settings : Settings) {sets : List FileSet}
    (hnamed : ∀ f ∈ sets.flatMap FileSet.files, f.IsWellNamed)
    (hdistinct : ((sets.flatMap FileSet.files).flatMap ProtoFile.typeNames).Nodup) {f : ProtoFile}
    (hf : f ∈ sets.flatMap FileSet.files) {chain : List String} (hc : chain ∈ f.chains) :
    (loadAll { settings } sets).symbols.table.get? (f.qualified chain) = some f.name := by
  rw [symbols_loadAll]
  generalize sets.flatMap FileSet.files = files at hnamed hdistinct hf ⊢
  rw [Table.get?_insertAll, Table.last?_of_mem]
  · rfl
  · rw [ProtoFile.map_fst_flatMap_declarations hnamed]
    exact hdistinct
  · rw [ProtoFile.flatMap_declarations hnamed]
    exact List.mem_flatMap.2 ⟨f, hf, List.mem_map.2 ⟨_, List.mem_map.2 ⟨chain, hc, rfl⟩, rfl⟩⟩

/-- The symbols of well named files are the names in full of their types. -/
theorem mem_names_loadAll (settings : Settings) {sets : List FileSet}
    (hnamed : ∀ f ∈ sets.flatMap FileSet.files, f.IsWellNamed) {name : String} :
    name ∈ (loadAll { settings } sets).symbols.names ↔
      ∃ f ∈ sets.flatMap FileSet.files, name ∈ f.typeNames := by
  rw [NameTable.names, symbols_loadAll, Table.mem_keys_insertAll,
    ProtoFile.map_fst_flatMap_declarations hnamed, List.mem_flatMap]
  exact or_iff_right (List.not_mem_nil)

end Batch
end ProtoLink
