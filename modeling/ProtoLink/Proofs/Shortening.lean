import ProtoLink.Name

/-! What a name loses when it is shortened by a list of packages. -/
namespace ProtoLink

namespace Name

variable {part cs rest back package name : List Char} {packages : List (List Char)}

/-- What is left of a text without its first occurrence of a part: all of it, if the part is nowhere in it. -/
inductive IsCut (part : List Char) : List Char → List Char → Prop
  | nowhere {cs : List Char} (h : ¬ part <:+: cs) : IsCut part cs cs
  | first {front back : List Char}
    (h : ∀ front' back', front ++ part ++ back = front' ++ part ++ back' → front.length ≤ front'.length) :
    IsCut part (front ++ part ++ back) (front ++ back)

theorem isSome_after?_iff : (after? part cs).isSome = true ↔ part <+: cs := by
  rw [Option.isSome_iff_exists]
  exact exists_congr fun rest => after?_eq_some_iff.trans eq_comm

theorem isCut_append (back : List Char) : IsCut part (part ++ back) back :=
  @IsCut.first part [] back fun _ _ _ => Nat.zero_le _

/-- If the part stands at the start, that is its first occurrence. -/
theorem IsCut.eq_of_append (h : IsCut part (part ++ back) rest) : rest = back := by
  generalize hcs : part ++ back = cs at h
  cases h with
  | nowhere h => exact absurd ⟨[], back, hcs⟩ h
  | @first front behind h =>
    have hlength := h [] back (by rw [List.nil_append, hcs])
    have hfront : front = [] := List.length_eq_zero_iff.1 (Nat.le_zero.1 hlength)
    subst hfront
    exact (List.append_cancel_left hcs).symm

/-- There is nothing to cut out of a text in which the part does not occur. -/
theorem IsCut.eq_self_of_nowhere (h : IsCut part cs rest) (hnowhere : ¬ part <:+: cs) : rest = cs := by
  cases h with
  | nowhere => rfl
  | @first front back => exact absurd ⟨front, back, rfl⟩ hnowhere

theorem isCut_dropFirst (hpart : part ≠ []) (cs : List Char) : IsCut part cs (dropFirst part cs) := by
  induction cs with
  | nil => exact .nowhere fun h => hpart (List.eq_nil_of_infix_nil h)
  | cons c cs ih =>
    rw [dropFirst]
    split
    · rename_i rest hrest
      rw [after?_eq_some_iff.1 hrest]
      exact isCut_append rest
    · rename_i hnone
      have hstart : ¬ part <+: c :: cs := by
        rw [← isSome_after?_iff, hnone]
        exact Bool.false_ne_true
      -- so every occurrence is one in the rest of the text
      generalize dropFirst part cs = rest at ih
      cases ih with
      | nowhere h => exact .nowhere fun hi => (List.infix_cons_iff.1 hi).elim hstart h
      | @first front back h =>
        refine @IsCut.first part (c :: front) back ?_
        intro front' back' he
        cases front' with
        | nil => exact absurd ⟨back', he.symm⟩ hstart
        | cons c' front' => exact Nat.succ_le_succ (h front' back' (List.cons.inj he).2)

/-- Without a package there is nothing to take off. -/
theorem shortened_eq_self
    (h : ∀ package, packages.find? (fun package => (after? package name).isSome) = some package →
      package = []) : shortened packages name = name := by
  rw [shortened]
  split
  · rfl
  · rfl
  · rename_i package hnonempty hfind
    exact absurd (h package hfind) hnonempty

/-- A package and the dot behind it are cut out at the same place by both ways of taking them off. -/
theorem isCut_shortened
    (h : packages.find? (fun package => (after? package name).isSome) = some package) (hne : package ≠ []) :
    IsCut (package ++ ['.']) name (shortened packages name) := by
  rw [shortened, h]
  split
  · rename_i hnone
    cases hnone
  · rename_i hempty
    exact absurd (Option.some.inj hempty) hne
  · rename_i found _ hfound
    obtain rfl : package = found := Option.some.inj hfound
    split
    · rename_i rest hrest
      rw [after?_eq_some_iff.1 hrest]
      exact isCut_append rest
    · exact isCut_dropFirst (by simp) name

end Name

/-- The name literally starts with a text, whether or not one of its segments ends there. -/
def Leads (front name : String) : Prop := front.toList <+: name.toList

instance (front name : String) : Decidable (Leads front name) :=
  inferInstanceAs (Decidable (front.toList <+: name.toList))

/-- The part stands somewhere in the name. -/
def Occurs (part name : String) : Prop := part.toList <:+: name.toList

instance (part name : String) : Decidable (Occurs part name) :=
  inferInstanceAs (Decidable (part.toList <:+: name.toList))

/-- What is left of a name without the first occurrence of a part. -/
def IsCut (part name rest : String) : Prop := Name.IsCut part.toList name.toList rest.toList

/-- The tail begins with a segment of the name: it is the name itself or all that follows one of its dots. -/
def IsTail (tail name : String) : Prop := tail = name ∨ ("." ++ tail).toList <:+ name.toList

instance (tail name : String) : Decidable (IsTail tail name) :=
  inferInstanceAs (Decidable (tail = name ∨ ("." ++ tail).toList <:+ name.toList))

/-- The first of the packages that a name literally starts with. -/
def leadingPackage? (packages : List String) (name : String) : Option String :=
  packages.find? fun package => Leads package name

/-- All that a name loses is a front of it: the first package that it starts with and the dot behind that package.
It loses nothing if there is no such package, or an empty one, or one that stands before no dot of the name. -/
inductive LosesFront (packages : List String) : (front name : String) → Prop
  | nothing {name : String} (h : ∀ package, leadingPackage? packages name = some package →
      package = "" ∨ ¬ Occurs (package ++ ".") name) : LosesFront packages "" name
  | package {package name : String} (h : leadingPackage? packages name = some package) (hne : package ≠ "")
    (hdot : Leads (package ++ ".") name) : LosesFront packages (package ++ ".") name

/-- The first package that a name starts with ends inside one of its segments there, and at a dot further on. -/
structure EndsLater (packages : List String) (package name : String) : Prop where
  leading : leadingPackage? packages name = some package
  ne_empty : package ≠ ""
  not_leads : ¬ Leads (package ++ ".") name
  occurs : Occurs (package ++ ".") name

variable {packages : List String} {package front name rest : String}

theorem leads_iff : Leads front name ↔ ∃ rest, name = front ++ rest := by
  constructor
  · rintro ⟨rest, hrest⟩
    refine ⟨.ofList rest, ?_⟩
    rw [← String.toList_inj, String.toList_append, String.toList_ofList, hrest]
  · rintro ⟨rest, rfl⟩
    rw [Leads, String.toList_append]
    exact List.prefix_append _ _

theorem find?_after? (packages : List String) (name : String) :
    (packages.map String.toList).find? (fun package => (Name.after? package name.toList).isSome) =
      (leadingPackage? packages name).map String.toList := by
  have hleads : (fun package : String => (Name.after? package.toList name.toList).isSome) =
      fun package => decide (Leads package name) := by
    funext package
    rw [Bool.eq_iff_iff, decide_eq_true_iff]
    exact Name.isSome_after?_iff
  rw [List.find?_map, leadingPackage?, ← hleads]
  rfl

/-- Of the packages only the first one that the name starts with matters. -/
theorem nameShortened_congr {others : List String} (h : leadingPackage? others name = leadingPackage? packages name) :
    nameShortened others name = nameShortened packages name := by
  rw [nameShortened, nameShortened, Name.shortened, Name.shortened, find?_after?, find?_after?, h]

theorem leadingPackage?_append (packages others : List String) (name : String) :
    leadingPackage? (packages ++ others) name =
      (leadingPackage? packages name).or (leadingPackage? others name) :=
  List.find?_append

theorem nameShortened_eq_self (h : ∀ package, leadingPackage? packages name = some package → package = "") :
    nameShortened packages name = name := by
  rw [nameShortened, Name.shortened_eq_self, String.ofList_toList]
  intro cs hcs
  rw [find?_after?, Option.map_eq_some_iff] at hcs
  obtain ⟨package, hpackage, rfl⟩ := hcs
  rw [h package hpackage]
  rfl

/-- The package goes together with a dot, and from where the two come first in the name. -/
theorem isCut_nameShortened (h : leadingPackage? packages name = some package) (hne : package ≠ "") :
    IsCut (package ++ ".") name (nameShortened packages name) := by
  rw [IsCut, nameShortened, String.toList_ofList, String.toList_append]
  apply Name.isCut_shortened
  · rw [find?_after?, h]
    rfl
  · simpa using hne

theorem nameShortened_append (h : leadingPackage? packages (package ++ "." ++ rest) = some package)
    (hne : package ≠ "") : nameShortened packages (package ++ "." ++ rest) = rest := by
  have hcut := isCut_nameShortened h hne
  have hname : (package ++ "." ++ rest).toList = (package ++ ".").toList ++ rest.toList :=
    String.toList_append
  rw [IsCut, hname] at hcut
  exact String.toList_inj.1 hcut.eq_of_append

theorem nameShortened_of_not_occurs (h : leadingPackage? packages name = some package)
    (hnowhere : ¬ Occurs (package ++ ".") name) : nameShortened packages name = name := by
  by_cases hne : package = ""
  · apply nameShortened_eq_self
    rintro other hother
    rw [← hne]
    exact (Option.some.inj (h.symm.trans hother)).symm
  · exact String.toList_inj.1 ((isCut_nameShortened h hne).eq_self_of_nowhere hnowhere)

/-- A name consists of the front that it loses and of what it is shortened to. -/
theorem LosesFront.eq_append (h : LosesFront packages front name) :
    name = front ++ nameShortened packages name := by
  cases h with
  | nothing h =>
    rw [String.empty_append]
    cases hleading : leadingPackage? packages name with
    | none => rw [nameShortened_eq_self (by simp [hleading])]
    | some package =>
      obtain hempty | hnowhere := h package hleading
      · rw [nameShortened_eq_self (by simp [hleading, hempty])]
      · rw [nameShortened_of_not_occurs hleading hnowhere]
  | package h hne hdot =>
    obtain ⟨rest, rfl⟩ := leads_iff.1 hdot
    rw [nameShortened_append h hne]

theorem LosesFront.isTail (h : LosesFront packages front name) :
    IsTail (nameShortened packages name) name := by
  have heq := h.eq_append
  cases h with
  | nothing h =>
    rw [String.empty_append] at heq
    exact Or.inl heq.symm
  | @package package name h hne hdot =>
    refine Or.inr ⟨package.toList, ?_⟩
    rw [← String.toList_append, ← String.append_assoc, ← heq]

/-- A name that does not lose a front loses its package from a place further on: there is no third way. -/
theorem exists_losesFront (h : ∀ package, ¬ EndsLater packages package name) :
    ∃ front, LosesFront packages front name := by
  cases hleading : leadingPackage? packages name with
  | none => exact ⟨"", .nothing (by simp [hleading])⟩
  | some package =>
    by_cases hne : package = ""
    · exact ⟨"", .nothing (by simp [hleading, hne])⟩
    by_cases hdot : Leads (package ++ ".") name
    · exact ⟨package ++ ".", .package hleading hne hdot⟩
    have hnowhere : ¬ Occurs (package ++ ".") name := fun hlater => h package ⟨hleading, hne, hdot, hlater⟩
    exact ⟨"", .nothing (by simp [hleading, hnowhere])⟩

end ProtoLink
