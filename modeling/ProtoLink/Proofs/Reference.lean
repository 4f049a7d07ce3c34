import ProtoLink.Proofs.Loading
import ProtoLink.Proofs.Shortening
import ProtoLink.Reference

/-! How types are spelled in the files that refer to them, and which names are reported as unknown. -/
namespace ProtoLink

/-- The file's own package comes off the name of a type, and leaves its chain. -/
theorem ProtoFile.nameShortened_qualified {f : ProtoFile} {packages chain : List String}
    (h : leadingPackage? packages (f.qualified chain) = some f.package) :
    nameShortened packages (f.qualified chain) = dotted chain := by
  by_cases hempty : f.package = ""
  · have hself : f.qualified chain = dotted chain := if_pos hempty
    rw [nameShortened_eq_self, hself]
    intro package hpackage
    rw [h, Option.some.injEq] at hpackage
    rw [← hpackage, hempty]
  · have hbehind : f.qualified chain = f.package ++ "." ++ dotted chain := if_neg hempty
    rw [hbehind] at h ⊢
    exact nameShortened_append h hempty

namespace Batch

/-- A type of a loaded file is spelled there by its chain, whatever else is loaded. Its name may be given with or
without the leading dot, and namespaces may be left out or not. -/
theorem refer_own (settings : Settings) (sets : List FileSet)
    (hnamed : ∀ f ∈ sets.flatMap FileSet.files, f.IsWellNamed)
    (hdistinct : ((sets.flatMap FileSet.files).flatMap ProtoFile.typeNames).Nodup)
    {root : ProtoFile} (hroot : root ∈ (loadAll { settings } sets).files) {imports : Imports}
    (himports : imports.get? root.name = none) {chain : List String} (hc : chain ∈ root.chains) :
    (loadAll { settings } sets).refer imports root (root.qualified chain) =
        .bare (dotted chain) .notImported ∧
      (loadAll { settings } sets).refer imports root ("." ++ root.qualified chain) =
        .bare (dotted chain) .notImported := by
  rw [files_loadAll, List.nil_append] at hroot
  obtain ⟨f, hf, rfl⟩ := List.mem_map.1 hroot
  rw [ProtoFile.chains_pruned] at hc
  have hqualified : f.pruned.qualified chain = f.qualified chain := rfl
  have hwell := hnamed f hf
  have hpath : (loadAll { settings } sets).symbols.table.get? (f.qualified chain) = some f.name :=
    get?_symbols_loadAll settings hnamed hdistinct hf hc
  have hspelled : ∀ name, unrooted name = f.qualified chain →
      (loadAll { settings } sets).refer imports f.pruned name = .bare (dotted chain) .notImported := by
    intro name hname
    have hown : nameRelativeTo f.pruned.package (f.qualified chain) = dotted chain :=
      hwell.nameRelativeTo_qualified hc
    have himported : imports.get? f.name = none := himports
    have hroot : f.name = f.pruned.name := rfl
    simp only [refer, NameTable.get?, hname, hpath, hown, himported, if_pos hroot]
  rw [hqualified]
  exact ⟨hspelled _ (hwell.unrooted_qualified hc), hspelled _ (unrooted_dot_append _)⟩

/-- The package `A` and the message `A` in it do not get into each other's way, nor does the package `A.A`. -/
theorem refer_own_namesake :
    let entry : Message := { name := "A", options := some { mapEntry := true } }
    let inner : Message := { name := "A", enums := [{ name := "E" }] }
    let outer : Message := { name := "A", messages := [entry, inner] }
    let first : ProtoFile := { name := "a", package := "A", messages := [outer] }
    let second : ProtoFile := { name := "b", package := "A.A", messages := [{ name := "B" }] }
    (loadAll { settings := {} } [⟨[second]⟩, ⟨[first]⟩]).refer ∅ first.pruned ".A.A.A.E" =
      .bare "A.A.E" .notImported := by
  intro entry inner outer first second
  have hnamed : ∀ f ∈ [second, first], f.IsWellNamed := by
    rintro f (_ | ⟨_, _ | ⟨_, h⟩⟩)
    · exact ⟨⟨["A", "A"], by decide, by decide⟩, by decide⟩
    · exact ⟨⟨["A"], by decide, by decide⟩, by decide⟩
    · cases h
  have hroot : first.pruned ∈ (loadAll { settings := {} } [⟨[second]⟩, ⟨[first]⟩]).files := by
    decide
  have hc : ["A", "A", "E"] ∈ first.pruned.chains := by decide
  exact (refer_own {} [⟨[second]⟩, ⟨[first]⟩] hnamed (by decide) hroot (by decide) hc).2

/-- A type of an imported file is reached through the handle of that file: under its name in full or, where
namespaces are left out and its own package is the first that the name starts with, under its chain. -/
theorem refer_imported (settings : Settings) (sets : List FileSet)
    (hnamed : ∀ f ∈ sets.flatMap FileSet.files, f.IsWellNamed)
    (hdistinct : ((sets.flatMap FileSet.files).flatMap ProtoFile.typeNames).Nodup)
    (root : ProtoFile) {imports : Imports} {f : ProtoFile} (hf : f ∈ sets.flatMap FileSet.files)
    {handle : String} (himported : imports.get? f.name = some handle) {chain : List String}
    (hc : chain ∈ f.chains) :
    let b := loadAll { settings } sets
    ∀ name ∈ [f.qualified chain, "." ++ f.qualified chain],
      (settings.noNamespace = false → b.refer imports root name = .qualified handle (f.qualified chain)) ∧
      (settings.noNamespace = true →
        leadingPackage? ((sets.flatMap FileSet.files).map ProtoFile.package) (f.qualified chain) =
          some f.package →
        b.refer imports root name = .qualified handle (dotted chain)) := by
  intro b name hname
  have hfull : unrooted name = f.qualified chain := (hnamed f hf).unrooted_spelling hc name hname
  have hpath : b.symbols.get? name = some f.name := by
    rw [NameTable.get?, hfull]
    exact get?_symbols_loadAll settings hnamed hdistinct hf hc
  have hspelled : b.refer imports root name = .qualified handle (b.shorten (f.qualified chain)) :=
    refer_eq_qualified_iff.2 ⟨f.name, hpath, himported, congrArg b.shorten hfull⟩
  have hsettings : b.settings = settings := settings_loadAll { settings } sets
  have hpackages : b.packages = (sets.flatMap FileSet.files).map ProtoFile.package :=
    packages_loadAll { settings } sets
  rw [hspelled, shorten, hsettings, hpackages]
  constructor
  · intro hkept
    rw [if_neg (by simp [hkept])]
  · intro hleft hleading
    rw [if_pos hleft, f.nameShortened_qualified hleading]

/-- The package `A` goes and the messages `A` in it stay, though `A.A` is a package too. -/
theorem refer_imported_namesake :
    let inner : Message := { name := "A", enums := [{ name := "E" }] }
    let outer : Message := { name := "A", messages := [inner] }
    let first : ProtoFile := { name := "a", package := "A", messages := [outer] }
    let second : ProtoFile := { name := "b", package := "A.A", messages := [{ name := "B" }] }
    let imports : Imports := (∅ : Imports).insert "a" "h"
    leadingPackage? ["A", "A.A"] "A.A.A.E" = some "A" ∧
      (loadAll { settings := {} } [⟨[first]⟩, ⟨[second]⟩]).refer imports second ".A.A.A.E" =
        .qualified "h" "A.A.E" := by
  intro inner outer first second imports
  have hnamed : ∀ f ∈ [first, second], f.IsWellNamed := by decide
  have hleading : leadingPackage? ["A", "A.A"] "A.A.A.E" = some "A" := by decide
  have hc : ["A", "A", "E"] ∈ first.chains := by decide
  have hspelled := refer_imported {} [⟨[first]⟩, ⟨[second]⟩] hnamed (by decide) second
    List.mem_cons_self (show imports.get? "a" = some "h" by decide) hc ".A.A.A.E" (by decide)
  exact ⟨hleading, hspelled.2 rfl hleading⟩

/-- Behind a handle stands a name from its start or from one of its dots on. Only where its first package ends at a dot
further on is it the name without the first place where that package and a dot stand in it. -/
theorem tail_refer {b : Batch} {imports : Imports} {root : ProtoFile} {name handle tail : String}
    (h : b.refer imports root name = .qualified handle tail) :
    ((b.settings.noNamespace = true → ∀ package, ¬ EndsLater b.packages package (unrooted name)) →
        IsTail tail (unrooted name)) ∧
      (b.settings.noNamespace = true → ∀ package, EndsLater b.packages package (unrooted name) →
        IsCut (package ++ ".") (unrooted name) tail) := by
  obtain ⟨_, _, _, rfl⟩ := refer_eq_qualified_iff.1 h
  rw [shorten]
  constructor
  · intro hfront
    split
    · rename_i hleft
      obtain ⟨front, hloses⟩ := exists_losesFront (hfront hleft)
      exact hloses.isTail
    · exact Or.inl rfl
  · intro hleft package hlater
    rw [if_pos hleft]
    exact isCut_nameShortened hlater.leading hlater.ne_empty

/-- The package `pk` ends at the first dot of `pk.M`, but only at the second one of `pkg.pk.E`. -/
theorem tail_refer_later :
    let pk : Message := { name := "pk", enums := [{ name := "E" }] }
    let first : ProtoFile := { name := "a", package := "pk", messages := [{ name := "M" }] }
    let second : ProtoFile := { name := "b", package := "pkg", messages := [pk] }
    let b := loadAll { settings := {} } [⟨[first, second]⟩]
    let imports : Imports := ((∅ : Imports).insert "a" "k").insert "b" "h"
    b.refer imports second ".pk.M" = .qualified "k" "M" ∧ IsTail "M" "pk.M" ∧
      b.refer imports first ".pkg.pk.E" = .qualified "h" "pkg.E" ∧ EndsLater b.packages "pk" "pkg.pk.E" ∧
      IsCut "pk." "pkg.pk.E" "pkg.E" := by
  intro pk first second b imports
  have hrefer : b.refer imports second ".pk.M" = .qualified "k" "M" := by decide
  have hname : unrooted ".pk.M" = "pk.M" := by decide
  have hfront : ∀ package, ¬ EndsLater b.packages package "pk.M" := by
    intro package hends
    have hleading : leadingPackage? b.packages "pk.M" = some "pk" := by decide
    obtain rfl : "pk" = package := Option.some.inj (hleading.symm.trans hends.leading)
    exact hends.not_leads (by decide)
  have htail := (tail_refer hrefer).1 fun _ => hname ▸ hfront
  have hrefer' : b.refer imports first ".pkg.pk.E" = .qualified "h" "pkg.E" := by decide
  have hname' : unrooted ".pkg.pk.E" = "pkg.pk.E" := by decide
  have hlater : EndsLater b.packages "pk" "pkg.pk.E" :=
    ⟨by decide, by decide, by decide, "pkg.".toList, "E".toList, by decide⟩
  have hcut := (tail_refer hrefer').2 (by decide) "pk" (hname' ▸ hlater)
  rw [hname] at htail
  rw [hname'] at hcut
  exact ⟨hrefer, htail, hrefer', hlater, hcut⟩

/-- Segments are glued together if a package ends inside one, and one in the middle can go. -/
theorem tail_not_isTail :
    let x : Message := { name := "X" }
    let first : ProtoFile := { name := "o", package := "a" }
    let second : ProtoFile := { name := "f", package := "axa", messages := [x] }
    let third : ProtoFile := { name := "g", package := "ab", messages := [{ name := "a", messages := [x] }] }
    let b := loadAll { settings := {} } [⟨[first, second, third]⟩]
    let imports : Imports := ((∅ : Imports).insert "f" "h").insert "g" "k"
    (∀ f ∈ [first, second, third], f.IsWellNamed) ∧
      b.refer imports first ".axa.X" = .qualified "h" "axX" ∧ ¬ IsTail "axX" "axa.X" ∧
      b.refer imports first ".ab.a.X" = .qualified "k" "ab.X" ∧ ¬ IsTail "ab.X" "ab.a.X" := by
  decide

/-- Two types of imported files are never referred to in the same way if their files have different paths, or if
both names lose the same front, which may be nothing. -/
theorem refer_ne_refer {b : Batch} {imports : Imports} (hhandles : (imports.entries.map Prod.snd).Nodup)
    (root : ProtoFile) {name₁ name₂ path₁ path₂ : String} (hne : unrooted name₁ ≠ unrooted name₂)
    (hpath₁ : b.symbols.get? name₁ = some path₁) (hpath₂ : b.symbols.get? name₂ = some path₂)
    (himported₁ : imports.contains path₁ = true) (himported₂ : imports.contains path₂ = true)
    (hapart : path₁ ≠ path₂ ∨ ∃ front, LosesFront b.packages front (unrooted name₁) ∧
      LosesFront b.packages front (unrooted name₂)) :
    b.refer imports root name₁ ≠ b.refer imports root name₂ := by
  obtain ⟨handle₁, hhandle₁⟩ := Option.isSome_iff_exists.1 himported₁
  obtain ⟨handle₂, hhandle₂⟩ := Option.isSome_iff_exists.1 himported₂
  rw [refer_eq_qualified_iff.2 ⟨path₁, hpath₁, hhandle₁, rfl⟩,
    refer_eq_qualified_iff.2 ⟨path₂, hpath₂, hhandle₂, rfl⟩]
  intro hsame
  obtain ⟨hhandle, htail⟩ := Reference.qualified.inj hsame
  obtain hpath | ⟨front, hfront₁, hfront₂⟩ := hapart
  · -- a handle belongs to one path
    rw [← hhandle] at hhandle₂
    exact hpath (Entries.eq_of_get?_eq_some hhandles hhandle₁ hhandle₂)
  · apply hne
    rw [shorten, shorten] at htail
    split at htail
    · rw [hfront₁.eq_append, htail, ← hfront₂.eq_append]
    · exact htail

/-- A type and its namesake inside another type of the package both lose the package, and stay apart. -/
theorem refer_ne_refer_namesake :
    let nested : Message := { name := "Baz", messages := [{ name := "Bar" }] }
    let file : ProtoFile := { name := "b", package := "pkg.b", messages := [{ name := "Bar" }, nested] }
    let b := loadAll { settings := {} } [⟨[file]⟩, ⟨[{ name := "a", package := "pkg" }]⟩]
    let imports : Imports := ((∅ : Imports).insert "b" "h").insert "a" "k"
    LosesFront b.packages "pkg.b." "pkg.b.Bar" ∧ LosesFront b.packages "pkg.b." "pkg.b.Baz.Bar" ∧
      b.refer imports file ".pkg.b.Bar" ≠ b.refer imports file ".pkg.b.Baz.Bar" := by
  intro nested file b imports
  have hleading₁ : leadingPackage? b.packages "pkg.b.Bar" = some "pkg.b" := by decide
  have hleading₂ : leadingPackage? b.packages "pkg.b.Baz.Bar" = some "pkg.b" := by decide
  have hfront₁ : LosesFront b.packages "pkg.b." "pkg.b.Bar" := .package hleading₁ (by decide) (by decide)
  have hfront₂ : LosesFront b.packages "pkg.b." "pkg.b.Baz.Bar" :=
    .package hleading₂ (by decide) (by decide)
  have hpath₁ : b.symbols.get? ".pkg.b.Bar" = some "b" := by decide
  have hpath₂ : b.symbols.get? ".pkg.b.Baz.Bar" = some "b" := by decide
  have hapart := refer_ne_refer (show (imports.entries.map Prod.snd).Nodup by decide) file (by decide)
    hpath₁ hpath₂ (by decide) (by decide) (Or.inr ⟨"pkg.b.", hfront₁, hfront₂⟩)
  exact ⟨hfront₁, hfront₂, hapart⟩

/-- Two types of one file can lose different packages, or one of them a segment from its middle, and meet. -/
theorem refer_eq_refer :
    let x : Message := { name := "X" }
    let first : ProtoFile := { name := "o", package := "a.b" }
    let second : ProtoFile :=
      { name := "f", package := "a", messages := [{ name := "b", messages := [x] }, x] }
    let third : ProtoFile :=
      { name := "g", package := "ab", messages := [{ name := "a", messages := [x] }, x] }
    let b := loadAll { settings := {} } [⟨[first, second, third]⟩]
    let imports : Imports := ((∅ : Imports).insert "f" "h").insert "g" "k"
    (∀ f ∈ [first, second, third], f.IsWellNamed) ∧
      ([first, second, third].flatMap ProtoFile.typeNames).Nodup ∧ b.settings.noNamespace = true ∧
      (imports.entries.map Prod.snd).Nodup ∧
      b.refer imports first ".a.b.X" = .qualified "h" "X" ∧
      b.refer imports first ".a.X" = .qualified "h" "X" ∧
      b.refer imports first ".ab.a.X" = .qualified "k" "ab.X" ∧
      b.refer imports first ".ab.X" = .qualified "k" "ab.X" := by
  decide

/-- A name is reported exactly if no file declares a type of that name. A map entry is no type, and what stands
inside one is not declared. -/
theorem referLogged_eq_report_iff (settings : Settings) (sets : List FileSet)
    (hnamed : ∀ f ∈ sets.flatMap FileSet.files, f.IsWellNamed) (imports : Imports) (root : ProtoFile)
    (log : Log) (name : String) :
    let after := ((loadAll { settings } sets).referLogged imports root log name).2
    (after = log.report (undeclared name) ↔
      ∀ f ∈ sets.flatMap FileSet.files, unrooted name ∉ f.typeNames) ∧
    (after = log ↔ ∃ f ∈ sets.flatMap FileSet.files, unrooted name ∈ f.typeNames) := by
  intro after
  have hafter : after = if (loadAll { settings } sets).symbols.contains name then log
      else log.report (undeclared name) := referLogged_snd _ _ _ _ _
  have hdeclared : (loadAll { settings } sets).symbols.contains name = true ↔
      ∃ f ∈ sets.flatMap FileSet.files, unrooted name ∈ f.typeNames :=
    NameTable.contains_iff.trans (mem_names_loadAll settings hnamed)
  have hundeclared : (∀ f ∈ sets.flatMap FileSet.files, unrooted name ∉ f.typeNames) ↔
      ¬ (loadAll { settings } sets).symbols.contains name = true := by
    rw [hdeclared, not_exists]
    exact forall_congr' fun f => not_and.symm
  have hlonger : log.report (undeclared name) ≠ log := log.report_ne_self _
  rw [hundeclared, ← hdeclared, hafter]
  cases (loadAll { settings } sets).symbols.contains name with
  | true => simp [hlonger.symm]
  | false => simp [hlonger]

/-- The message beside a map entry is known, and the enumeration inside the map entry is not. -/
theorem referLogged_nested :
    let entry : Message := { name := "E", enums := [{ name := "K" }], options := some { mapEntry := true } }
    let outer : Message := { name := "M", messages := [entry, { name := "N" }] }
    let file : ProtoFile := { name := "f", package := "p", messages := [outer] }
    let b := loadAll { settings := {} } [⟨[file]⟩]
    (b.referLogged ∅ file {} ".p.M.N").2 = {} ∧
      (b.referLogged ∅ file {} ".p.M.E.K").2 = Log.report {} (undeclared ".p.M.E.K") := by
  intro entry outer file b
  have hnamed : ∀ f ∈ [file], f.IsWellNamed := by decide
  have hknown := referLogged_eq_report_iff {} [⟨[file]⟩] hnamed ∅ file {} ".p.M.N"
  have hunknown := referLogged_eq_report_iff {} [⟨[file]⟩] hnamed ∅ file {} ".p.M.E.K"
  exact ⟨hknown.2.2 ⟨file, List.mem_cons_self, by decide⟩, hunknown.1.2 (by decide)⟩

/-- The name of a map entry is reported, though a file has a message of that name. -/
theorem referLogged_mapEntry :
    let entry : Message := { name := "E", options := some { mapEntry := true } }
    let file : ProtoFile := { name := "f", package := "p", messages := [entry] }
    let b := loadAll { settings := {} } [⟨[file]⟩]
    file.IsWellNamed ∧ IsSegment entry.name ∧ "p.E" ∈ file.entryNames ∧
      (b.referLogged ∅ file {} ".p.E").2 = Log.report {} (undeclared ".p.E") := by
  decide

end Batch
end ProtoLink
