import ProtoLink.Proofs.Lookup
import ProtoLink.Proofs.Redeclaration

/-! What the arrangement of files matters for. How they are divided into sets that are loaded one after the other
never matters. Their order does not matter for what is found as long as no name is declared twice. -/
namespace ProtoLink

namespace ProtoFile

variable {files : List ProtoFile}

theorem map_unrooted_registrations (hnamed : ∀ f ∈ files, f.IsWellNamed) :
    ((files.flatMap registrations).map fun d => unrooted d.1) = files.flatMap typeNames := by
  rw [← map_fst_flatMap_declarations hnamed, declarations_eq_map, List.map_map]
  rfl

theorem map_unrooted_entryRegistrations (hnamed : ∀ f ∈ files, f.IsWellNamed)
    (hentries : ∀ f ∈ files, ∀ e ∈ f.entries, ∀ name ∈ e.1, IsSegment name) :
    ((files.flatMap entryRegistrations).map fun e => unrooted e.1) = files.flatMap entryNames := by
  rw [← map_fst_flatMap_mapEntries hnamed hentries, mapEntries_eq_map, List.map_map]
  rfl

end ProtoFile

namespace Batch

variable (b : Batch)

/-- If no name is entered twice, files lead to the same answers in any order. -/
theorem get?_load_perm {files others : List ProtoFile} (hperm : others.Perm files)
    (hsymbols : ((files.flatMap ProtoFile.registrations).map fun d => unrooted d.1).Nodup)
    (hentries : ((files.flatMap ProtoFile.entryRegistrations).map fun e => unrooted e.1).Nodup) (name : String) :
    (b.load ⟨others⟩).symbols.get? name = (b.load ⟨files⟩).symbols.get? name ∧
      (b.load ⟨others⟩).mapEntries.get? name = (b.load ⟨files⟩).mapEntries.get? name := by
  simp only [load_eq, registerAll_fst]
  constructor
  · exact (b.symbols.get?_insertAll_perm hsymbols (hperm.symm.flatMap_right _) name).symm
  · exact (b.mapEntries.get?_insertAll_perm hentries (hperm.symm.flatMap_right _) name).symm

/-- In a new batch nothing is amiss exactly if no type is declared twice. -/
theorem log_load_eq_empty_iff (settings : Settings) (files : List ProtoFile) :
    (load { settings } ⟨files⟩).log = {} ↔
      ((files.flatMap ProtoFile.registrations).map fun d => unrooted d.1).Nodup := by
  have hnew : ∀ d ∈ files.flatMap ProtoFile.registrations, (∅ : NameTable String).contains d.1 = false :=
    fun _ _ => rfl
  have hlog : (load { settings } ⟨files⟩).log =
      Log.reportAll {} (redeclared ∅ (files.flatMap ProtoFile.registrations)) := log_load { settings } ⟨files⟩
  rw [hlog, Log.reportAll_eq_self_iff, redeclared_eq_nil_iff]
  exact and_iff_left hnew

/-- Files in the same order make the same batch, however they are divided into sets. In another order well
named files with different names make a batch in which every name finds the same. -/
theorem loadAll_rearranged (settings : Settings) (sets others : List FileSet) :
    let files := sets.flatMap FileSet.files
    let b := loadAll { settings } sets
    let rearranged := loadAll { settings } others
    (others.flatMap FileSet.files = files → rearranged = b) ∧
    ((others.flatMap FileSet.files).Perm files → (∀ f ∈ files, f.IsWellNamed) →
      (∀ f ∈ files, ∀ e ∈ f.entries, ∀ name ∈ e.1, IsSegment name) →
      (files.flatMap ProtoFile.typeNames).Nodup → (files.flatMap ProtoFile.entryNames).Nodup →
      (∀ name, rearranged.symbols.get? name = b.symbols.get? name ∧
        rearranged.mapEntries.get? name = b.mapEntries.get? name ∧
        rearranged.mapFields? name = b.mapFields? name) ∧
      rearranged.files.Perm b.files ∧ rearranged.packages.Perm b.packages ∧
      rearranged.log = {} ∧ b.log = {}) := by
  intro files b rearranged
  have hb : b = load { settings } ⟨files⟩ := loadAll_eq_load _ sets
  have hrearranged : rearranged = load { settings } ⟨others.flatMap FileSet.files⟩ := loadAll_eq_load _ others
  refine ⟨fun hsame => ?_, fun hperm hnamed hentries htypes hentryNames => ?_⟩
  · rw [hrearranged, hsame, hb]
  · have hregistered : ((files.flatMap ProtoFile.registrations).map fun d => unrooted d.1).Nodup := by
      rwa [ProtoFile.map_unrooted_registrations hnamed]
    have hentered : ((files.flatMap ProtoFile.entryRegistrations).map fun e => unrooted e.1).Nodup := by
      rwa [ProtoFile.map_unrooted_entryRegistrations hnamed hentries]
    rw [hrearranged, hb]
    refine ⟨fun name => ?_, ?_, ?_, ?_, ?_⟩
    · obtain ⟨hsymbol, hentry⟩ := get?_load_perm { settings } hperm hregistered hentered name
      exact ⟨hsymbol, hentry, by rw [mapFields?, mapFields?, hentry]⟩
    · rw [files_load, files_load]
      exact (hperm.map _).append_left _
    · rw [packages_load, packages_load]
      exact (hperm.map _).append_left _
    · rw [log_load_eq_empty_iff]
      exact ((hperm.flatMap_right _).map _).nodup_iff.2 hregistered
    · exact (log_load_eq_empty_iff settings files).2 hregistered

/-- The listing of the names shows the order of two files, and no name finds anything else. -/
theorem loadAll_rearranged_two :
    let entry : Message := { name := "E", options := some { mapEntry := true } }
    let outer : Message := { name := "M", messages := [entry], enums := [{ name := "K" }] }
    let first : ProtoFile := { name := "f", package := "p", messages := [outer] }
    let second : ProtoFile := { name := "g", package := "p.M", messages := [{ name := "E" }] }
    let b := loadAll { settings := {} } [⟨[first, second]⟩]
    let rearranged := loadAll { settings := {} } [⟨[second]⟩, ⟨[]⟩, ⟨[first]⟩]
    b.symbols.names = ["p.M", "p.M.K", "p.M.E"] ∧ rearranged.symbols.names = ["p.M.E", "p.M", "p.M.K"] ∧
      (∀ name, rearranged.symbols.get? name = b.symbols.get? name) ∧
      rearranged.mapEntries.get? ".p.M.E" = b.mapEntries.get? ".p.M.E" ∧
      rearranged = loadAll { settings := {} } [⟨[second, first]⟩] ∧ rearranged.log = {} := by
  intro entry outer first second b rearranged
  have hperm : [second, first].Perm [first, second] := List.Perm.swap first second []
  have hnamed : ∀ f ∈ [first, second], f.IsWellNamed := by decide
  have hentries : ∀ f ∈ [first, second], ∀ e ∈ f.entries, ∀ name ∈ e.1, IsSegment name := by decide
  let others : List FileSet := [⟨[second]⟩, ⟨[]⟩, ⟨[first]⟩]
  obtain ⟨hfound, _, _, hlog, _⟩ :=
    (loadAll_rearranged {} [⟨[first, second]⟩] others).2 hperm hnamed hentries (by decide) (by decide)
  have hgrouped := (loadAll_rearranged {} [⟨[second, first]⟩] others).1 rfl
  exact ⟨by decide, by decide, fun name => (hfound name).1, (hfound ".p.M.E").2.1, hgrouped, hlog⟩

end Batch
end ProtoLink
