import ProtoLink.Descriptor.Build
import ProtoLink.Proofs.Redeclaration

/-! What comes in the place of something else. A type that takes the place of another is reported, with the name and
both paths. A map entry takes the place of another one as well, but no trace of that is left in the log. -/
namespace ProtoLink

/-- What is entered last under a name is found there. -/
theorem NameTable.get?_insertAll_of_last {υ : Type} (t : NameTable υ) {front back : List (String × υ)} {name : String}
    {v : υ} (hlast : unrooted name ∉ back.map fun e => unrooted e.1) :
    (t.insertAll (front ++ (name, v) :: back)).get? name = some v := by
  have hrun : t.insertAll (front ++ (name, v) :: back) = ((t.insertAll front).insert name v).insertAll back :=
    t.insertAll_append front ((name, v) :: back)
  have hkeys : unrooted name ∉ (back.map fun e => (unrooted e.1, e.2)).map Prod.fst := by
    rwa [List.map_map]
  rw [hrun, get?, table_insertAll, Table.get?_insertAll, Table.last?_of_notMem hkeys, Option.none_or]
  exact (get?_insert _ _ _ _).trans (if_pos rfl)

namespace Batch

/-- The log grows by the types that take the place of others, and by nothing else. Files that differ only in
their map entries leave the same log, while the last map entry of a name counts. -/
theorem registerAll_replacing (b : Batch) (files : List ProtoFile) :
    let after := (b.registerAll files).1
    (∃ findings, after.log = b.log.reportAll findings ∧ ∀ finding, finding ∈ findings ↔
      ∃ front name path back previous,
        files.flatMap ProtoFile.registrations = front ++ (name, path) :: back ∧
        (b.symbols.insertAll front).get? name = some previous ∧ finding = duplicate name previous path) ∧
    (∀ others mapEntries, others.map ProtoFile.pruned = files.map ProtoFile.pruned →
      (({ b with mapEntries } : Batch).registerAll others).1.log = after.log) ∧
    ∀ front name entry back, files.flatMap ProtoFile.entryRegistrations = front ++ (name, entry) :: back →
      unrooted name ∉ back.map (fun e => unrooted e.1) → after.mapEntries.get? name = some entry := by
  intro after
  have hlog : after.log = b.log.reportAll (redeclared b.symbols (files.flatMap ProtoFile.registrations)) :=
    congrArg log (b.registerAll_fst files)
  refine ⟨⟨_, hlog, fun _ => mem_redeclared_iff⟩, ?_, ?_⟩
  · intro others mapEntries hpruned
    have hsame : others.flatMap ProtoFile.registrations = files.flatMap ProtoFile.registrations := by
      rw [← ProtoFile.flatMap_registrations_pruned others, hpruned, ProtoFile.flatMap_registrations_pruned]
    rw [hlog, registerAll_fst, hsame]
  · intro front name entry back hentered hlast
    have hentries : after.mapEntries = b.mapEntries.insertAll (front ++ (name, entry) :: back) := by
      rw [← hentered]
      exact congrArg mapEntries (b.registerAll_fst files)
    rw [hentries]
    exact b.mapEntries.get?_insertAll_of_last hlast

/-- Of a message and the map entry inside it, both declared twice, only the message is reported. -/
theorem mapEntry_replaced_unreported :
    let entry (type : String) : Message := Message.ofMap "TagsEntry" "TYPE_STRING" type none
    let file (path type : String) : ProtoFile :=
      { name := path, package := "p", messages := [{ name := "M", messages := [entry type] }] }
    let b := load { settings := {} } ⟨[file "a" "TYPE_BOOL"]⟩
    let after := (b.registerAll [file "b" "TYPE_BYTES"]).1
    b.mapEntries.get? "p.M.TagsEntry" = some (entry "TYPE_BOOL") ∧
      after.mapEntries.get? "p.M.TagsEntry" = some (entry "TYPE_BYTES") ∧ b.log = {} ∧
      after.log = Log.report {} (duplicate "p.M" "a" "b") := by
  decide

end Batch
end ProtoLink
