import ProtoLink.Proofs.Pruning
import ProtoLink.Proofs.Shortening
import ProtoLink.Reference

/-! Registering finds nothing amiss exactly if no type is declared twice. The files that it keeps can be registered
again: then every type of theirs is reported, and nothing changes that a reference depends on. -/
namespace ProtoLink

namespace ProtoFile

theorem flatMap_registrations_pruned (files : List ProtoFile) :
    (files.map pruned).flatMap registrations = files.flatMap registrations := by
  rw [List.flatMap_map]
  congr 1
  funext f
  rw [registrations, chains_pruned]
  rfl

theorem flatMap_entryRegistrations_pruned (files : List ProtoFile) :
    (files.map pruned).flatMap entryRegistrations = [] := by
  rw [List.flatMap_map, List.flatMap_eq_nil_iff]
  intro f _
  rw [entryRegistrations, entries_pruned, List.map_nil]

theorem map_package_pruned (files : List ProtoFile) : (files.map pruned).map package = files.map package := by
  rw [List.map_map]
  rfl

end ProtoFile

namespace Batch

variable {symbols : NameTable String} {ds : List (String × String)} {finding : Diagnostic.Finding}

theorem redeclared_cons_eq_nil_iff {d : String × String} : redeclared symbols (d :: ds) = [] ↔
    symbols.contains d.1 = false ∧ redeclared (symbols.insert d.1 d.2) ds = [] := by
  rw [redeclared, NameTable.contains]
  cases symbols.get? d.1 <;> simp

/-- Nothing is amiss exactly if all names are new and none comes twice. -/
theorem redeclared_eq_nil_iff : redeclared symbols ds = [] ↔
    (ds.map fun d => unrooted d.1).Nodup ∧ ∀ d ∈ ds, symbols.contains d.1 = false := by
  induction ds generalizing symbols with
  | nil => simp [redeclared]
  | cons d ds ih =>
    -- behind the first declaration its name is no longer new
    have hlater : (∀ e ∈ ds, (symbols.insert d.1 d.2).contains e.1 = false) ↔
        unrooted d.1 ∉ ds.map (fun e => unrooted e.1) ∧ ∀ e ∈ ds, symbols.contains e.1 = false := by
      simp only [NameTable.contains_insert, Bool.or_eq_false_iff, decide_eq_false_iff_not, List.mem_map,
        not_exists, not_and]
      constructor
      · intro h
        exact ⟨fun e he => Ne.symm (h e he).1, fun e he => (h e he).2⟩
      · rintro ⟨hne, hnew⟩ e he
        exact ⟨Ne.symm (hne e he), hnew e he⟩
    rw [redeclared_cons_eq_nil_iff, ih, hlater, List.map_cons, List.nodup_cons, List.forall_mem_cons]
    constructor
    · rintro ⟨hd, hnodup, hfirst, hnew⟩
      exact ⟨⟨hfirst, hnodup⟩, hd, hnew⟩
    · rintro ⟨⟨hfirst, hnodup⟩, hd, hnew⟩
      exact ⟨hd, hnodup, hfirst, hnew⟩

/-- If every name is known before, each declaration is amiss. -/
theorem redeclared_of_known (h : ∀ d ∈ ds, symbols.contains d.1 = true) :
    (redeclared symbols ds).map (fun finding => (finding.kind, finding.detail?)) =
      ds.map fun d => (.duplicateSymbol, some d.1) := by
  induction ds generalizing symbols with
  | nil => rfl
  | cons d ds ih =>
    rw [List.forall_mem_cons] at h
    obtain ⟨previous, hprevious⟩ := Option.isSome_iff_exists.1 h.1
    have hlater : ∀ e ∈ ds, (symbols.insert d.1 d.2).contains e.1 = true := by
      intro e he
      rw [NameTable.contains_insert, h.2 e he, Bool.or_true]
    rw [redeclared, hprevious]
    exact congrArg (_ :: ·) (ih hlater)

/-- One declaration is amiss exactly if its name is there by then, and the finding gives the path that is there. -/
theorem mem_redeclared_iff : finding ∈ redeclared symbols ds ↔
    ∃ front name path back previous, ds = front ++ (name, path) :: back ∧
      (symbols.insertAll front).get? name = some previous ∧ finding = duplicate name previous path := by
  constructor
  · intro h
    induction ds generalizing symbols with
    | nil => exact absurd h List.not_mem_nil
    | cons d ds ih =>
      have hlater : finding ∈ redeclared (symbols.insert d.1 d.2) ds →
          ∃ front name path back previous, d :: ds = front ++ (name, path) :: back ∧
            (symbols.insertAll front).get? name = some previous ∧ finding = duplicate name previous path := by
        intro hmem
        obtain ⟨front, name, path, back, previous, rfl, hprevious, rfl⟩ := ih hmem
        exact ⟨d :: front, name, path, back, previous, rfl, hprevious, rfl⟩
      rw [redeclared] at h
      cases hprevious : symbols.get? d.1 with
      | none =>
        rw [hprevious] at h
        exact hlater h
      | some previous =>
        rw [hprevious] at h
        rcases List.mem_cons.1 h with rfl | h
        · exact ⟨[], d.1, d.2, ds, previous, rfl, hprevious, rfl⟩
        · exact hlater h
  · rintro ⟨front, name, path, back, previous, rfl, hprevious, rfl⟩
    rw [redeclared_append, redeclared, hprevious]
    exact List.mem_append_right _ List.mem_cons_self

variable (b : Batch)

theorem contains_registerAll {files : List ProtoFile} {d : String × String}
    (hd : d ∈ files.flatMap ProtoFile.registrations) : (b.registerAll files).1.symbols.contains d.1 = true := by
  rw [NameTable.contains_iff, registerAll_fst]
  exact NameTable.mem_names_insertAll.2 (Or.inr (List.mem_map.2 ⟨d, hd, rfl⟩))

/-! The kept files once more -/

/-- In another new batch the kept files leave all that the files leave, but for the map entries. -/
theorem registerAll_pruned (settings others : Settings) (files : List ProtoFile) :
    (registerAll { settings := others } (files.map ProtoFile.pruned)).1 =
      { (registerAll { settings } files).1 with settings := others, mapEntries := ∅ } := by
  rw [registerAll_fst, registerAll_fst, ProtoFile.flatMap_registrations_pruned,
    ProtoFile.flatMap_entryRegistrations_pruned, ProtoFile.map_package_pruned]
  rfl

/-- In the same batch only the packages and the log go on. -/
theorem registerAll_registerAll_pruned (files : List ProtoFile) :
    let after := (b.registerAll files).1
    (after.registerAll (files.map ProtoFile.pruned)).1 =
      { after with
        packages := after.packages ++ files.map ProtoFile.package
        log := after.log.reportAll (redeclared after.symbols (files.flatMap ProtoFile.registrations)) } := by
  intro after
  have hafter : after.symbols = b.symbols.insertAll (files.flatMap ProtoFile.registrations) :=
    congrArg symbols (b.registerAll_fst files)
  have hsymbols : after.symbols.insertAll (files.flatMap ProtoFile.registrations) = after.symbols := by
    rw [hafter, NameTable.insertAll_insertAll]
  rw [registerAll_fst after, ProtoFile.flatMap_registrations_pruned,
    ProtoFile.flatMap_entryRegistrations_pruned, ProtoFile.map_package_pruned, hsymbols]
  rfl

/-- A package that is there twice shortens no other names than before. -/
theorem shorten_registerAll_pruned (files : List ProtoFile) (name : String) :
    let after := (b.registerAll files).1
    (after.registerAll (files.map ProtoFile.pruned)).1.shorten name = after.shorten name := by
  intro after
  have hpackages : after.packages = b.packages ++ files.map ProtoFile.package := packages_registerAll b files
  have hname : nameShortened (after.packages ++ files.map ProtoFile.package) name =
      nameShortened after.packages name := by
    apply nameShortened_congr
    rw [hpackages, leadingPackage?_append, leadingPackage?_append, Option.or_assoc, Option.or_self]
  rw [registerAll_registerAll_pruned, shorten, hname]
  rfl

/-- The kept files can be registered again. Elsewhere they leave the same symbols, packages and findings; in
the same batch every type of theirs is reported once, and neither the tables nor the references change. -/
theorem registerAll_kept (settings others : Settings) (files : List ProtoFile) :
    let b := (registerAll { settings } files).1
    let kept := (registerAll { settings } files).2
    let again := (b.registerAll kept).1
    (registerAll { settings := others } kept).1 = { b with settings := others, mapEntries := ∅ } ∧
      (b.registerAll kept).2 = kept ∧
      again.symbols = b.symbols ∧ again.mapEntries = b.mapEntries ∧
      again.packages = b.packages ++ files.map ProtoFile.package ∧
      (∃ findings, again.log = b.log.reportAll findings ∧
        findings.map (fun finding => (finding.kind, finding.detail?)) =
          (files.flatMap ProtoFile.registrations).map fun d => (.duplicateSymbol, some d.1)) ∧
      ∀ imports root name, again.refer imports root name = b.refer imports root name := by
  intro b kept again
  have hkept : kept = files.map ProtoFile.pruned := registerAll_snd _ files
  have hagain : again = (b.registerAll (files.map ProtoFile.pruned)).1 := by rw [← hkept]
  have hwhole : again = { b with
      packages := b.packages ++ files.map ProtoFile.package
      log := b.log.reportAll (redeclared b.symbols (files.flatMap ProtoFile.registrations)) } :=
    hagain.trans (registerAll_registerAll_pruned _ files)
  have hsymbols : again.symbols = b.symbols := by rw [hwhole]
  have hshorten : ∀ name, again.shorten name = b.shorten name := by
    intro name
    rw [hagain]
    exact shorten_registerAll_pruned _ files name
  refine ⟨?_, ?_, hsymbols, by rw [hwhole], by rw [hwhole], ⟨_, by rw [hwhole], ?_⟩, ?_⟩
  · rw [hkept, registerAll_pruned settings]
  · rw [registerAll_snd, hkept, List.map_map]
    exact List.map_congr_left fun f _ => f.pruned_pruned
  · exact redeclared_of_known fun d hd => contains_registerAll _ hd
  · intro imports root name
    simp only [refer, hsymbols, hshorten]

end Batch
end ProtoLink
