import Mathlib.Data.List.Chain
import ProtoLink.Proofs.Name
import ProtoLink.Proofs.Shortening
import ProtoLink.Proofs.Table
import ProtoLink.TypeScript.Node

/-! Names without empty segments. Each of the three cuts that a name goes through on its way into a reference
takes out nothing or a part that ends at a dot, and so leaves no segment empty. -/
namespace ProtoLink

namespace Name

variable {front part back name rest cs : List Char}

/-- A name that is not empty, neither begins nor ends with a dot, and has no two dots side by side. -/
structure IsPlain (cs : List Char) : Prop where
  ne_nil : cs ≠ []
  head : cs.head? ≠ some '.'
  last : cs.getLast? ≠ some '.'
  apart : cs.IsChain fun c d => c ≠ '.' ∨ d ≠ '.'

/-- The text behind a dot of a plain name begins with a segment, so it can follow any front of the name. -/
theorem IsPlain.cut (h : IsPlain (front ++ part ++ '.' :: back)) : IsPlain (front ++ back) := by
  have hback : back ≠ [] := by
    rintro rfl
    have hlast := h.last
    simp at hlast
  obtain ⟨hbefore, hbehind, _⟩ := List.isChain_append.1 h.apart
  obtain ⟨hnext, hback'⟩ := List.isChain_cons.1 hbehind
  have hstart : ∀ c ∈ back.head?, c ≠ '.' := by
    intro c hc
    have hdots := hnext c hc
    rcases hdots with hdot | hdot
    · exact absurd rfl hdot
    · exact hdot
  refine ⟨by simp [hback], ?head, ?last, ?apart⟩
  case head =>
    cases front with
    | nil =>
      intro hdot
      exact hstart '.' hdot rfl
    | cons c front =>
      have hhead := h.head
      simpa using hhead
  case last =>
    have hlast := h.last
    rw [List.append_cons, List.getLast?_append_of_ne_nil _ hback] at hlast
    rwa [List.getLast?_append_of_ne_nil _ hback]
  case apart =>
    have hfront := hbefore.left_of_append
    apply List.isChain_append.2
    exact ⟨hfront, hback', fun _ _ d hd => Or.inr (hstart d hd)⟩

theorem IsCut.isPlain (hcut : IsCut (part ++ ['.']) name rest) (h : IsPlain name) : IsPlain rest := by
  cases hcut with
  | nowhere => exact h
  | first =>
    apply IsPlain.cut
    rwa [List.append_assoc, List.append_assoc, List.singleton_append, ← List.append_assoc] at h

theorem IsPlain.relativeTo (package : List Char) (h : IsPlain name) : IsPlain (relativeTo package name) := by
  rw [Name.relativeTo]
  split
  · exact h
  · split
    · rename_i rest hrest
      rw [after?_eq_some_iff.1 hrest] at h
      have hcut : IsPlain ([] ++ rest) := IsPlain.cut h
      exact hcut
    · exact h

theorem IsPlain.shortened (packages : List (List Char)) (h : IsPlain name) :
    IsPlain (shortened packages name) := by
  by_cases hnone : ∀ package, packages.find? (fun package => (after? package name).isSome) = some package →
      package = []
  · rwa [shortened_eq_self hnone]
  · push Not at hnone
    obtain ⟨package, hfind, hne⟩ := hnone
    exact (isCut_shortened hfind hne).isPlain h

theorem IsSegment.isPlain (h : IsSegment cs) : IsPlain cs := by
  have hdot : ∀ c ∈ cs, c ≠ '.' := by
    rintro c hc rfl
    exact h.2 hc
  refine ⟨h.1, head?_of_notMem h.2, getLast?_of_notMem h.2, ?_⟩
  exact List.Pairwise.isChain (List.pairwise_of_forall_mem_list fun c hc _ _ => Or.inl (hdot c hc))

theorem IsSegment.isPlain_append (h : IsSegment cs) (hback : IsPlain back) : IsPlain (cs ++ '.' :: back) := by
  have hcs := h.isPlain
  refine ⟨by simp, ?_, ?_, ?_⟩
  · rw [List.head?_append_of_ne_nil _ h.1]
    exact hcs.head
  · rw [List.append_cons, List.getLast?_append_of_ne_nil _ hback.ne_nil]
    exact hback.last
  · have hbehind : ('.' :: back).IsChain fun c d => c ≠ '.' ∨ d ≠ '.' := by
      refine List.isChain_cons.2 ⟨fun d hd => Or.inr ?_, hback.apart⟩
      rintro rfl
      exact hback.head hd
    refine List.isChain_append.2 ⟨hcs.apart, hbehind, fun c hc _ _ => Or.inl ?_⟩
    rintro rfl
    exact hcs.last hc

theorem isPlain_join {segments : List (List Char)} (h : ∀ s ∈ segments, IsSegment s) (hne : segments ≠ []) :
    IsPlain (Text.join '.' segments) := by
  induction segments with
  | nil => exact absurd rfl hne
  | cons s segments ih =>
    rw [List.forall_mem_cons] at h
    cases segments with
    | nil => exact h.1.isPlain
    | cons next segments => exact h.1.isPlain_append (ih h.2 (by simp))

/-- An empty piece would stand at an end of the name or between two dots. -/
theorem IsPlain.ne_nil_of_mem_segments (h : IsPlain cs) {s : List Char} (hs : s ∈ segments cs) : s ≠ [] := by
  rintro rfl
  obtain ⟨before, after, hsplit⟩ := List.append_of_mem hs
  have hcs : cs = Text.join '.' (before ++ [] :: after) := by
    rw [← hsplit, segments, Text.join_split]
  by_cases hbefore : before = []
  · subst before
    cases after with
    | nil => exact h.ne_nil hcs
    | cons next after =>
      have hhead := h.head
      simp [hcs, Text.join] at hhead
  · rw [Text.join_append hbefore (by simp)] at hcs
    cases after with
    | nil =>
      have hlast := h.last
      simp [hcs, Text.join] at hlast
    | cons next after =>
      have hapart := h.apart
      simp [hcs, Text.join, List.isChain_append] at hapart

end Name

/-- `Name.IsPlain` on strings. -/
def IsPlain (name : String) : Prop := Name.IsPlain name.toList

variable {name : String}

theorem isPlain_dotted {segments : List String} (h : ∀ s ∈ segments, IsSegment s) (hne : segments ≠ []) :
    IsPlain (dotted segments) := by
  have hplain := Name.isPlain_join (forall_isSegment_iff.1 h) (by simpa using hne)
  rwa [IsPlain, dotted, String.toList_ofList]

theorem IsPlain.ne_empty (h : IsPlain name) : name ≠ "" := by
  rintro rfl
  exact h.ne_nil rfl

theorem IsPlain.ne_empty_of_mem_segments (h : IsPlain name) {s : String} (hs : s ∈ nameSegments name) :
    s ≠ "" := by
  obtain ⟨cs, hcs, rfl⟩ := List.mem_map.1 hs
  have hne := h.ne_nil_of_mem_segments hcs
  simpa using hne

theorem IsPlain.nameRelativeTo (package : String) (h : IsPlain name) :
    IsPlain (nameRelativeTo package name) := by
  have hplain := Name.IsPlain.relativeTo package.toList h
  rwa [IsPlain, ProtoLink.nameRelativeTo, String.toList_ofList]

theorem IsPlain.nameShortened (packages : List String) (h : IsPlain name) :
    IsPlain (nameShortened packages name) := by
  have hplain := Name.IsPlain.shortened (packages.map String.toList) h
  rwa [IsPlain, ProtoLink.nameShortened, String.toList_ofList]

theorem IsPlain.shorten (b : Batch) (h : IsPlain name) : IsPlain (b.shorten name) := by
  rw [Batch.shorten]
  split
  · exact h.nameShortened b.packages
  · exact h

namespace Reference

/-- The name of the type as it is spelled, without the handle in front. -/
def spelling : Reference → String
  | .bare name _ => name
  | .qualified _ tail => tail

theorem ne_empty_of_mem_path {reference : Reference} (hplain : IsPlain reference.spelling)
    (hhandle : ∀ handle tail, reference = .qualified handle tail → handle ≠ "") :
    ∀ s ∈ reference.root :: reference.members, s ≠ "" := by
  intro s hs
  cases reference with
  | bare name reason =>
    obtain rfl : s = name := List.mem_singleton.1 hs
    exact hplain.ne_empty
  | qualified handle tail =>
    rcases List.mem_cons.1 hs with rfl | hs
    · exact hhandle s tail rfl
    · exact hplain.ne_empty_of_mem_segments hs

end Reference

namespace Batch

/-- Neither the package of the file that refers to the type nor any other can leave a segment empty. -/
theorem isPlain_spelling_refer (b : Batch) (imports : Imports) (root : ProtoFile)
    (h : IsPlain (unrooted name)) : IsPlain (b.refer imports root name).spelling := by
  have hown : IsPlain (nameRelativeTo root.package (unrooted name)) := h.nameRelativeTo root.package
  simp only [refer]
  cases b.symbols.get? name with
  | none => exact hown
  | some path =>
    cases himported : imports.get? path with
    | some handle =>
      simp only [himported]
      exact h.shorten b
    | none =>
      simp only [himported, Reference.spelling]
      split
      · exact hown
      · exact hown.shorten b

/-- A name of one or more segments is spelled with one or more segments in every batch, whatever packages there are,
and no name in the nodes is empty if no handle is. -/
theorem isPlain_refer (b : Batch) {imports : Imports}
    (hhandles : ∀ handle ∈ imports.entries.map Prod.snd, handle ≠ "") (root : ProtoFile)
    {segments : List String} (hsegments : ∀ s ∈ segments, IsSegment s) (hne : segments ≠ [])
    (hname : unrooted name = dotted segments) :
    let reference := b.refer imports root name
    IsPlain reference.spelling ∧
      (∀ s ∈ (TypeScript.Expression.ofReference reference).segments, s ≠ "") ∧
      ∀ s ∈ (TypeScript.EntityName.ofReference reference).segments, s ≠ "" := by
  intro reference
  have hplain : IsPlain reference.spelling := by
    apply isPlain_spelling_refer
    rw [hname]
    exact isPlain_dotted hsegments hne
  have hhandle : ∀ handle tail, reference = .qualified handle tail → handle ≠ "" := by
    intro handle tail hreference
    obtain ⟨path, _, himported, _⟩ := refer_eq_qualified_iff.1 hreference
    have hentry := Entries.mem_of_get?_eq_some himported
    exact hhandles handle (List.mem_map.2 ⟨_, hentry, rfl⟩)
  have hpath := Reference.ne_empty_of_mem_path hplain hhandle
  refine ⟨hplain, ?_, ?_⟩
  · rwa [TypeScript.Expression.ofReference, TypeScript.Expression.segments_chain]
  · rwa [TypeScript.EntityName.ofReference, TypeScript.EntityName.segments_chain]

/-- The package `pk` goes from the middle of a name, and an odd package of the root from nowhere. -/
theorem isPlain_refer_later :
    let b : Batch := { symbols := (∅ : NameTable String).insert "pkg.pk.E" "f", packages := ["pk.g.", "pk"] }
    let imports : Imports := (∅ : Imports).insert "f" "h"
    let root : ProtoFile := { name := "r", package := "pkg." }
    b.refer imports root ".pkg.pk.E" = .qualified "h" "pkg.E" ∧ IsPlain "pkg.E" ∧
      ∀ s ∈ (TypeScript.Expression.ofReference (.qualified "h" "pkg.E")).segments, s ≠ "" := by
  intro b imports root
  have href : b.refer imports root ".pkg.pk.E" = .qualified "h" "pkg.E" := by decide
  have hall := isPlain_refer b (show ∀ handle ∈ imports.entries.map Prod.snd, handle ≠ "" by decide) root
    (show ∀ s ∈ ["pkg", "pk", "E"], IsSegment s by decide) (List.cons_ne_nil _ _)
    (show unrooted ".pkg.pk.E" = dotted ["pkg", "pk", "E"] by decide)
  rw [href] at hall
  exact ⟨href, hall.1, hall.2.1⟩

end Batch
end ProtoLink
