import ProtoLink.Proofs.Reference

/-! References after further loads. The name of a type starts with the package of its file, so the first package
that it starts with is found among those loaded with it, whatever packages come later. -/
namespace ProtoLink

theorem isSome_leadingPackage?_iff {packages : List String} {name : String} :
    (leadingPackage? packages name).isSome = true ↔ ∃ package ∈ packages, Leads package name := by
  rw [leadingPackage?, List.find?_isSome]
  simp only [decide_eq_true_iff]

theorem ProtoFile.leads_package_qualified (f : ProtoFile) (chain : List String) :
    Leads f.package (f.qualified chain) := by
  rw [leads_iff, qualified]
  split
  · rename_i hempty
    exact ⟨dotted chain, by rw [hempty, String.empty_append]⟩
  · exact ⟨"." ++ dotted chain, String.append_assoc ..⟩

/-- Later packages do not matter for a name that starts with one of the earlier. -/
theorem nameShortened_append_packages {packages : List String} {name : String}
    (h : (leadingPackage? packages name).isSome = true) (later : List String) :
    nameShortened (packages ++ later) name = nameShortened packages name := by
  apply nameShortened_congr
  rw [leadingPackage?_append, Option.or_of_isSome h]

namespace Batch

theorem get?_symbols_loadAll_of_notMem (b : Batch) {later : List FileSet} {name : String}
    (hnew : ∀ f ∈ later.flatMap FileSet.files, unrooted name ∉ f.declarations.map Prod.fst) :
    (b.loadAll later).symbols.get? name = b.symbols.get? name := by
  rw [NameTable.get?, symbols_loadAll, Table.get?_insertAll, Table.last?_of_notMem, Option.none_or]
  · rfl
  · rw [List.map_flatMap, List.mem_flatMap]
    rintro ⟨f, hf, hname⟩
    exact hnew f hf hname

variable (settings : Settings) {sets : List FileSet} {name : String}

/-- In well named files every symbol starts with a package that is there. -/
theorem isSome_leadingPackage?_loadAll (hnamed : ∀ f ∈ sets.flatMap FileSet.files, f.IsWellNamed)
    (hname : name ∈ (loadAll { settings } sets).symbols.names) :
    (leadingPackage? (loadAll { settings } sets).packages name).isSome = true := by
  obtain ⟨f, hf, htype⟩ := (mem_names_loadAll settings hnamed).1 hname
  obtain ⟨chain, _, rfl⟩ := List.mem_map.1 htype
  rw [isSome_leadingPackage?_iff, packages_loadAll]
  exact ⟨f.package, List.mem_append_right _ (List.mem_map.2 ⟨f, hf, rfl⟩), f.leads_package_qualified chain⟩

/-- So each symbol is shortened as before, whatever is loaded later. -/
theorem shorten_loadAll (hnamed : ∀ f ∈ sets.flatMap FileSet.files, f.IsWellNamed)
    (hname : name ∈ (loadAll { settings } sets).symbols.names) (later : List FileSet) :
    ((loadAll { settings } sets).loadAll later).shorten name = (loadAll { settings } sets).shorten name := by
  have hleading := isSome_leadingPackage?_loadAll settings hnamed hname
  rw [shorten, shorten, settings_loadAll, packages_loadAll _ later, nameShortened_append_packages hleading]

/-- A reference that is qualified, or that is to a type of the very file that refers to it, stays as it is when more
files are loaded, of whatever kind, as long as none of them declares a type of that name. -/
theorem refer_loadAll (sets later : List FileSet) (hnamed : ∀ f ∈ sets.flatMap FileSet.files, f.IsWellNamed)
    (imports : Imports) (root : ProtoFile) (name : String)
    (hnew : ∀ f ∈ later.flatMap FileSet.files, unrooted name ∉ f.declarations.map Prod.fst) :
    let b := loadAll { settings } sets
    (∃ handle tail, b.refer imports root name = .qualified handle tail) ∨
        b.symbols.get? name = some root.name →
      (b.loadAll later).refer imports root name = b.refer imports root name := by
  intro b hknown
  have hpath : (b.loadAll later).symbols.get? name = b.symbols.get? name :=
    b.get?_symbols_loadAll_of_notMem hnew
  have hshorten : b.symbols.contains name = true →
      (b.loadAll later).shorten (unrooted name) = b.shorten (unrooted name) := by
    intro hname
    exact shorten_loadAll settings hnamed (NameTable.contains_iff.1 hname) later
  rcases hknown with ⟨handle, tail, href⟩ | hroot
  · obtain ⟨path, hsymbol, himported, htail⟩ := refer_eq_qualified_iff.1 href
    have hsame := (hshorten (NameTable.contains_of_get?_eq_some hsymbol)).trans htail
    rw [href]
    exact refer_eq_qualified_iff.2 ⟨path, hpath.trans hsymbol, himported, hsame⟩
  · have hsame := hshorten (NameTable.contains_of_get?_eq_some hroot)
    simp only [refer, hpath, hroot, hsame, if_true]

/-- Packages that come later and stand at the start of both spellings take nothing off them. -/
theorem refer_loadAll_packages :
    let outer : Message := { name := "M", messages := [{ name := "X" }] }
    let first : ProtoFile := { name := "b", package := "pkg.b", messages := [{ name := "Bar" }] }
    let root : ProtoFile := { name := "a", package := "x", messages := [outer] }
    let later : List FileSet := [⟨[{ name := "c", package := "pkg" }]⟩, ⟨[{ name := "d", package := "M" }]⟩]
    let b := loadAll { settings := {} } [⟨[first, root]⟩]
    let imports : Imports := (∅ : Imports).insert "b" "h"
    (b.loadAll later).refer imports root ".pkg.b.Bar" = .qualified "h" "Bar" ∧
      (b.loadAll later).refer imports root ".x.M.X" = .bare "M.X" .notImported := by
  intro outer first root later b imports
  have hnamed : ∀ f ∈ [first, root], f.IsWellNamed := by decide
  have hbar : b.refer imports root ".pkg.b.Bar" = .qualified "h" "Bar" := by decide
  have hx : b.refer imports root ".x.M.X" = .bare "M.X" .notImported := by decide
  have hqualified := refer_loadAll {} [⟨[first, root]⟩] later hnamed imports root ".pkg.b.Bar" (by decide)
    (Or.inl ⟨"h", "Bar", hbar⟩)
  have hown := refer_loadAll {} [⟨[first, root]⟩] later hnamed imports root ".x.M.X" (by decide)
    (Or.inr (by decide))
  exact ⟨hqualified.trans hbar, hown.trans hx⟩

/-- The bare name of a type of another file is shortened by a package that comes later. -/
example :
    let outer : Message := { name := "M", messages := [{ name := "X" }] }
    let other : ProtoFile := { name := "b", package := "x", messages := [outer] }
    let root : ProtoFile := { name := "a", package := "x" }
    let b := loadAll { settings := {} } [⟨[other, root]⟩]
    b.refer ∅ root ".x.M.X" = .bare "M.X" .notImported ∧
      (b.load ⟨[{ name := "d", package := "M" }]⟩).refer ∅ root ".x.M.X" = .bare "X" .notImported := by
  decide

end Batch
end ProtoLink
