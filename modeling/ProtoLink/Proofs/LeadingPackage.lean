import ProtoLink.Proofs.Persistence

/-! Which package shortens a name: the first one that the name literally starts with. It is cut out together
with a dot, from where the two come first in the name, and no other package of the list matters. -/
namespace ProtoLink

namespace Name

variable {part cs rest other : List Char}

/-- A text has only one first occurrence of a part. -/
theorem IsCut.unique (h : IsCut part cs rest) (hother : IsCut part cs other) : rest = other := by
  cases h with
  | nowhere hnowhere => exact (hother.eq_self_of_nowhere hnowhere).symm
  | @first front back hfirst =>
    generalize hcs : front ++ part ++ back = cs at hother
    cases hother with
    | nowhere hnowhere => exact absurd ⟨front, back, hcs⟩ hnowhere
    | @first front' back' hfirst' =>
      have hlength : front.length = front'.length :=
        Nat.le_antisymm (hfirst front' back' hcs) (hfirst' front back hcs.symm)
      rw [List.append_assoc, List.append_assoc] at hcs
      obtain ⟨rfl, hbehind⟩ := List.append_inj hcs hlength
      rw [List.append_cancel_left hbehind]

end Name

variable {earlier later : List String} {package name : String}

theorem nameShortened_eq_iff {packages : List String} (h : leadingPackage? packages name = some package)
    (hne : package ≠ "") {rest : String} :
    nameShortened packages name = rest ↔ IsCut (package ++ ".") name rest := by
  have hcut := isCut_nameShortened h hne
  constructor
  · rintro rfl
    exact hcut
  · exact fun hrest => String.toList_inj.1 (Name.IsCut.unique hcut hrest)

/-- A package that is in the list already is never the first one that a name starts with. -/
theorem leadingPackage?_append_cons (h : package ∈ earlier) (later : List String) (name : String) :
    leadingPackage? (earlier ++ package :: later) name = leadingPackage? (earlier ++ later) name := by
  rw [leadingPackage?_append, leadingPackage?_append]
  by_cases hleads : Leads package name
  · have hsome : (leadingPackage? earlier name).isSome = true := isSome_leadingPackage?_iff.2 ⟨package, h, hleads⟩
    rw [Option.or_of_isSome hsome, Option.or_of_isSome hsome]
  · have hskip : leadingPackage? (package :: later) name = leadingPackage? later name :=
      List.find?_cons_of_neg (by simpa using hleads)
    rw [hskip]

namespace Batch

/-- Leaving out namespaces is one replacement: the first package that a name literally starts with is cut out
of it with the dot behind it, from where the two come first. Without such a package, or with an empty one, the
name stays. -/
theorem shorten_eq_iff (b : Batch) (name : String) :
    (b.settings.noNamespace = true → ∀ package, leadingPackage? b.packages name = some package → package ≠ "" →
      ∀ rest, b.shorten name = rest ↔ IsCut (package ++ ".") name rest) ∧
    (b.settings.noNamespace = false ∨ leadingPackage? b.packages name = none ∨
      leadingPackage? b.packages name = some "" → b.shorten name = name) ∧
    (∀ earlier later, b.packages = earlier ++ later → (∃ package ∈ earlier, Leads package name) →
      { b with packages := earlier }.shorten name = b.shorten name) ∧
    ∀ earlier package later, b.packages = earlier ++ package :: later → package ∈ earlier →
      { b with packages := earlier ++ later }.shorten name = b.shorten name := by
  refine ⟨fun hshort package hleading hne rest => ?_, fun hstays => ?_, fun earlier later hpackages hleads => ?_,
    fun earlier package later hpackages hmem => ?_⟩
  · rw [shorten, if_pos hshort, nameShortened_eq_iff hleading hne]
  · rw [shorten]
    split
    · rename_i hshort
      apply nameShortened_eq_self
      intro package hpackage
      rcases hstays with hkept | hnone | hempty
      · simp [hkept] at hshort
      · simp [hnone] at hpackage
      · exact Option.some.inj (hpackage.symm.trans hempty)
    · rfl
  · have hsome := isSome_leadingPackage?_iff.2 hleads
    rw [shorten, shorten, hpackages, nameShortened_append_packages hsome later]
  · rw [shorten, shorten, hpackages, nameShortened_congr (leadingPackage?_append_cons hmem later name)]

/-- The package does not end at a dot where the name starts, and goes from inside of a later segment. -/
theorem shorten_eq_inside :
    let b : Batch := { settings := {}, packages := ["lib", "pk", "pkx.a", "pk"] }
    leadingPackage? b.packages "pkx.apk.pk.X" = some "pk" ∧ IsCut "pk." "pkx.apk.pk.X" "pkx.apk.X" ∧
      { b with packages := ["lib", "pk"] }.shorten "pkx.apk.pk.X" = "pkx.apk.X" ∧
      { b with packages := ["lib", "pk", "pkx.a"] }.shorten "pkx.apk.pk.X" = "pkx.apk.X" ∧
      { b with settings := { noNamespace := false } }.shorten "pkx.apk.pk.X" = "pkx.apk.pk.X" := by
  intro b
  have hleading : leadingPackage? b.packages "pkx.apk.pk.X" = some "pk" := by decide
  have hshorten : b.shorten "pkx.apk.pk.X" = "pkx.apk.X" := by decide
  obtain ⟨hcut, -, hlater, hrepeated⟩ := shorten_eq_iff b "pkx.apk.pk.X"
  have hfirst := hlater ["lib", "pk"] ["pkx.a", "pk"] rfl ⟨"pk", by decide, by decide⟩
  have honce := hrepeated ["lib", "pk", "pkx.a"] "pk" [] rfl (by decide)
  obtain ⟨-, hstays, -⟩ := shorten_eq_iff { b with settings := { noNamespace := false } } "pkx.apk.pk.X"
  exact ⟨hleading, (hcut rfl "pk" hleading (by decide) "pkx.apk.X").1 hshorten, hfirst.trans hshorten,
    honce.trans hshorten, hstays (Or.inl rfl)⟩

end Batch
end ProtoLink
