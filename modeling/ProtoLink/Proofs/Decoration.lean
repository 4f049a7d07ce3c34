import Mathlib.Tactic.SplitIfs
import ProtoLink.Batch.Listing
import ProtoLink.Batch.Opening
import ProtoLink.Descriptor.Build
import ProtoLink.Proofs.Spelling

/-! Colours only decorate. Each is ended before the next one begins, and without the codes the text is what it
is without colours. Only names that have codes in themselves could change that. -/
namespace ProtoLink

namespace Palette

/-- The character that every code starts with. -/
def escape : Char := '\x1b'

/-- The codes that begin a colour. -/
def openings : List (List Char) := [bright.name.toList, bright.path.toList, bright.mark.toList]

/-- The code that ends a colour. -/
def ending : List Char := bright.reset.toList

/-- All codes of the bright palette. -/
def codes : List (List Char) := ending :: openings

/-- A text without its codes, wherever they are. -/
def erase (text : List Char) : List Char :=
  match text with
  | [] => []
  | c :: cs =>
    match codes.find? fun code => code.isPrefixOf (c :: cs) with
    | some code => erase (cs.drop (code.length - 1))
    | none => c :: erase cs
termination_by text.length
decreasing_by all_goals simp only [List.length_cons, List.length_drop]; omega

/-- Behind the code that begins a colour comes the one that ends it, before another colour begins or the text ends. -/
def IsClosed (text : List Char) : Prop :=
  ∀ front code back, code ∈ openings → text = front ++ code ++ back →
    ∃ inner rest, back = inner ++ ending ++ rest ∧ ∀ next ∈ openings, ¬ next <:+: inner ++ ending

/-! Codes in a text -/

variable {text rest front back code other : List Char}

theorem exists_code_eq (h : code ∈ codes) : ∃ tail, code = escape :: tail ∧ escape ∉ tail := by
  have hall : ∀ code ∈ codes, code = escape :: code.tail ∧ escape ∉ code.tail := by decide
  exact ⟨code.tail, hall code h⟩

theorem mem_codes_of_mem_openings (h : code ∈ openings) : code ∈ codes := List.mem_cons_of_mem _ h

/-- No code is the beginning of another one. -/
theorem eq_of_isPrefixOf (h : code ∈ codes) (hother : other ∈ codes) (hstart : code <+: other) : code = other := by
  have hall : ∀ code ∈ codes, ∀ other ∈ codes, code <+: other → code = other := by decide
  exact hall code h other hother hstart

theorem eq_of_append_eq (h : code ∈ codes) (hother : other ∈ codes) (heq : code ++ rest = other ++ back) :
    code = other := by
  have hcode : code <+: code ++ rest := List.prefix_append _ _
  have hsame : other <+: code ++ rest := heq ▸ List.prefix_append _ _
  rcases List.prefix_or_prefix_of_prefix hcode hsame with hle | hle
  · exact eq_of_isPrefixOf h hother hle
  · exact (eq_of_isPrefixOf hother h hle).symm

theorem erase_code_append (h : code ∈ codes) (rest : List Char) : erase (code ++ rest) = erase rest := by
  obtain ⟨tail, htail, -⟩ := exists_code_eq h
  have hfind : codes.find? (fun other => other.isPrefixOf (code ++ rest)) = some code := by
    cases hfound : codes.find? fun other => other.isPrefixOf (code ++ rest) with
    | none =>
      have hnone := List.find?_eq_none.1 hfound code h
      simp at hnone
    | some other =>
      have hstart := List.find?_some hfound
      obtain ⟨back, hback⟩ := List.isPrefixOf_iff_prefix.1 hstart
      rw [eq_of_append_eq h (List.mem_of_find?_eq_some hfound) hback.symm]
  subst htail
  rw [List.cons_append, erase]
  rw [List.cons_append] at hfind
  simp [hfind]

theorem erase_cons {c : Char} (hc : c ≠ escape) (rest : List Char) : erase (c :: rest) = c :: erase rest := by
  have hfind : codes.find? (fun code => code.isPrefixOf (c :: rest)) = none := by
    rw [List.find?_eq_none]
    intro code h hstart
    obtain ⟨tail, rfl, -⟩ := exists_code_eq h
    obtain ⟨back, hback⟩ := List.isPrefixOf_iff_prefix.1 hstart
    exact hc (List.cons.inj hback).1.symm
  rw [erase, hfind]

theorem erase_append_of_notMem (h : escape ∉ text) (rest : List Char) : erase (text ++ rest) = text ++ erase rest := by
  induction text with
  | nil => rfl
  | cons c text ih =>
    rw [List.mem_cons, not_or] at h
    rw [List.cons_append, erase_cons (Ne.symm h.1), ih h.2, List.cons_append]

/-- A code that comes behind a text without codes does not begin inside it. -/
theorem exists_append_of_notMem (htext : escape ∉ text) (hcode : code ∈ codes)
    (heq : text ++ rest = front ++ code ++ back) : ∃ later, front = text ++ later ∧ rest = later ++ code ++ back := by
  obtain ⟨tail, rfl, -⟩ := exists_code_eq hcode
  rw [List.append_assoc] at heq
  rcases List.append_eq_append_iff.1 heq with ⟨later, hfront, hrest⟩ | ⟨later, htext', hrest⟩
  · exact ⟨later, hfront, by rw [hrest, List.append_assoc]⟩
  · cases later with
    | nil => exact ⟨[], by simpa using htext'.symm, by simpa using hrest.symm⟩
    | cons c later =>
      obtain rfl : escape = c := (List.cons.inj hrest).1
      exact absurd (htext' ▸ List.mem_append_right _ List.mem_cons_self) htext

/-- A code in a text that starts with a code is that one or comes behind it. -/
theorem code_first_or_later (h : code ∈ codes) (hother : other ∈ codes) (heq : code ++ rest = front ++ other ++ back) :
    (code = other ∧ rest = back) ∨ ∃ later, rest = later ++ other ++ back := by
  cases front with
  | nil =>
    have hsame : code = other := eq_of_append_eq h hother heq
    subst hsame
    exact Or.inl ⟨rfl, List.append_cancel_left heq⟩
  | cons c front =>
    obtain ⟨tail, rfl, htail⟩ := exists_code_eq h
    obtain ⟨later, -, hrest⟩ := exists_append_of_notMem htail hother (List.cons.inj heq).2
    exact Or.inr ⟨later, hrest⟩

theorem notMem_openings_ending : ending ∉ openings := by decide

/-- No colour begins in what comes before the end of another one. -/
theorem not_infix_of_notMem (htext : escape ∉ text) (hopening : code ∈ openings) : ¬ code <:+: text ++ ending := by
  rintro ⟨front, back, heq⟩
  have hcode := mem_codes_of_mem_openings hopening
  obtain ⟨later, -, hending⟩ := exists_append_of_notMem htext hcode heq.symm
  have hfirst : ending ++ [] = later ++ code ++ back := by rw [List.append_nil, hending]
  rcases code_first_or_later List.mem_cons_self hcode hfirst with ⟨rfl, -⟩ | ⟨beyond, hnone⟩
  · exact notMem_openings_ending hopening
  · obtain ⟨tail, rfl, -⟩ := exists_code_eq hcode
    simp at hnone

/-! Texts in colour -/

/-- A text without codes, and the same text with stretches of it in colour. -/
inductive Colours : List Char → List Char → Prop where
  | nil : Colours [] []
  | char {c : Char} {plain text : List Char} (hc : c ≠ escape) (h : Colours plain text) :
    Colours (c :: plain) (c :: text)
  | span {opening inner plain text : List Char} (hopening : opening ∈ openings) (hinner : escape ∉ inner)
    (h : Colours plain text) : Colours (inner ++ plain) (opening ++ (inner ++ (ending ++ text)))

namespace Colours

variable {plain plain' text' : List Char}

theorem append (h : Colours plain text) (h' : Colours plain' text') : Colours (plain ++ plain') (text ++ text') := by
  induction h with
  | nil => exact h'
  | char hc _ ih => exact .char hc ih
  | span hopening hinner _ ih =>
    rw [List.append_assoc]
    simp only [List.append_assoc]
    exact .span hopening hinner ih

theorem of_notMem (h : escape ∉ text) : Colours text text := by
  induction text with
  | nil => exact .nil
  | cons c text ih =>
    rw [List.mem_cons, not_or] at h
    exact .char (Ne.symm h.1) (ih h.2)

theorem erase_eq (h : Colours plain text) : erase text = plain := by
  induction h with
  | nil => rw [erase]
  | char hc _ ih => rw [erase_cons hc, ih]
  | span hopening hinner _ ih =>
    rw [erase_code_append (mem_codes_of_mem_openings hopening), erase_append_of_notMem hinner,
      erase_code_append List.mem_cons_self, ih]

theorem isClosed (h : Colours plain text) : IsClosed text := by
  induction h with
  | nil =>
    intro front code back hopening heq
    obtain ⟨tail, rfl, -⟩ := exists_code_eq (mem_codes_of_mem_openings hopening)
    simp at heq
  | @char c _ _ hc _ ih =>
    intro front code back hopening heq
    have hclean : escape ∉ [c] := by simpa using Ne.symm hc
    obtain ⟨later, -, hlater⟩ := exists_append_of_notMem hclean (mem_codes_of_mem_openings hopening) heq
    exact ih later code back hopening hlater
  | @span opening inner _ text hopening hinner _ ih =>
    intro front code back hcode heq
    have hcodes := mem_codes_of_mem_openings hcode
    rcases code_first_or_later (mem_codes_of_mem_openings hopening) hcodes heq with ⟨rfl, hback⟩ | ⟨later, hlater⟩
    · refine ⟨inner, text, ?_, fun next hnext => not_infix_of_notMem hinner hnext⟩
      rw [← hback, List.append_assoc]
    · -- behind its own end the stretch has no code any more
      obtain ⟨beyond, -, hbeyond⟩ := exists_append_of_notMem hinner hcodes hlater
      rcases code_first_or_later List.mem_cons_self hcodes hbeyond with ⟨rfl, -⟩ | ⟨rest, hrest⟩
      · exact absurd hcode notMem_openings_ending
      · exact ih rest code back hcode hrest

end Colours

/-- There are no codes in a text. -/
def IsClean (text : String) : Prop := escape ∉ text.toList

instance : DecidablePred IsClean := fun text => inferInstanceAs (Decidable (escape ∉ text.toList))

theorem isClean_append {text more : String} : IsClean (text ++ more) ↔ IsClean text ∧ IsClean more := by
  rw [IsClean, String.toList_append, List.mem_append, not_or]
  rfl

/-- `Colours` on strings. -/
def Decorates (plain coloured : String) : Prop := Colours plain.toList coloured.toList

namespace Decorates

variable {plain coloured plain' coloured' text : String}

theorem append (h : Decorates plain coloured) (h' : Decorates plain' coloured') :
    Decorates (plain ++ plain') (coloured ++ coloured') := by
  rw [Decorates, String.toList_append, String.toList_append]
  exact Colours.append h h'

theorem of_isClean (h : IsClean text) : Decorates text text := Colours.of_notMem h

theorem painted {opening : String} (hopening : opening.toList ∈ openings) (h : IsClean text) :
    Decorates ("" ++ text ++ "") (opening ++ text ++ bright.reset) := by
  have hspan := Colours.span hopening h .nil
  rw [Decorates, String.empty_append, String.append_empty]
  simpa [ending] using hspan

theorem paintName (h : IsClean text) : Decorates (Palette.plain.paintName text) (bright.paintName text) :=
  painted (by decide) h

theorem paintPath (h : IsClean text) : Decorates (Palette.plain.paintPath text) (bright.paintPath text) :=
  painted (by decide) h

theorem paintMark (h : IsClean text) : Decorates (Palette.plain.paintMark text) (bright.paintMark text) :=
  painted (by decide) h

theorem join {α : Type} {f g : α → String} {xs : List α} (h : ∀ x ∈ xs, Decorates (f x) (g x)) :
    Decorates (String.join (xs.map f)) (String.join (xs.map g)) := by
  induction xs with
  | nil => exact .nil
  | cons x xs ih =>
    rw [List.forall_mem_cons] at h
    rw [List.map_cons, List.map_cons, String.join_cons, String.join_cons]
    exact h.1.append (ih h.2)

end Decorates

/-- Without its codes the one text is the other, and each of its colours is ended. -/
structure IsDecoration (plain coloured : String) : Prop where
  erased : erase coloured.toList = plain.toList
  closed : IsClosed coloured.toList

theorem Decorates.isDecoration {plain coloured : String} (h : Decorates plain coloured) :
    IsDecoration plain coloured :=
  ⟨Colours.erase_eq h, Colours.isClosed h⟩

end Palette

namespace Text

theorem escape_notMem_hexDigits (n : Nat) : Palette.escape ∉ hexDigits n := by
  induction n using Nat.strongRecOn with
  | ind n ih =>
    have hdigit : ∀ d < 16, Palette.escape ≠ d.digitChar := by decide
    by_cases hn : n < 16
    · rw [hexDigits, Nat.toDigits_of_lt_base hn, List.mem_singleton]
      exact hdigit n hn
    · rw [hexDigits, Nat.toDigits_of_base_le (by decide) (by omega), List.mem_append, List.mem_singleton, not_or]
      exact ⟨ih (n / 16) (by omega), hdigit (n % 16) (by omega)⟩

/-- What is quoted has no codes in it, whatever there was before. -/
theorem escape_notMem_reveal (c : Char) : Palette.escape ∉ reveal c := by
  rw [reveal]
  split_ifs with hnull htab hreturn hline hquote hslash hvisible
  any_goals decide
  · rw [List.mem_singleton]
    rintro rfl
    exact absurd hvisible (by decide)
  · have hdigits := escape_notMem_hexDigits c.toNat
    simp only [List.mem_cons, List.mem_append, List.not_mem_nil, or_false, not_or]
    exact ⟨⟨by decide, by decide, by decide, hdigits⟩, by decide⟩

theorem escape_notMem_quoted (text : List Char) : Palette.escape ∉ quoted text := by
  rw [quoted, List.cons_append, List.mem_cons, List.mem_append, List.mem_flatMap, not_or, not_or]
  refine ⟨by decide, ?_, by decide⟩
  rintro ⟨c, -, hc⟩
  exact escape_notMem_reveal c hc

end Text

namespace Batch

open Palette (Decorates isClean_append)

/-- The names, the paths and the types of map entries that a batch shows have no codes in them. -/
structure IsClean (b : Batch) : Prop where
  symbols : ∀ e ∈ b.symbols.entries, Palette.IsClean e.1 ∧ Palette.IsClean e.2
  mapEntries : ∀ name ∈ b.mapEntries.names, Palette.IsClean name
  types : ∀ name ∈ b.mapEntries.names, ∀ fields ∈ b.mapFields? name,
    (∀ type ∈ fields.key.type, Palette.IsClean type) ∧ ∀ type ∈ fields.valueType?, Palette.IsClean type

theorem isClean_getD {type? : Option String} (h : ∀ type ∈ type?, Palette.IsClean type) :
    Palette.IsClean (type?.getD "?") := by
  cases type? with
  | none => decide
  | some type => exact h type rfl

theorem decorates_symbolLine {name path : String} (hname : Palette.IsClean name) (hpath : Palette.IsClean path) :
    Decorates (symbolLine .plain name path) (symbolLine .bright name path) := by
  have hindent : Decorates "  " "  " := .of_isClean (by decide)
  have hblank : Decorates " " " " := .of_isClean (by decide)
  have harrow : Decorates (Palette.plain.paintMark "->") (Palette.bright.paintMark "->") := .paintMark (by decide)
  have hend : Decorates "\n" "\n" := .of_isClean (by decide)
  have hname := hindent.append (.paintName hname)
  exact ((((hname.append hblank).append harrow).append hblank).append (.paintPath hpath)).append hend

theorem isClean_mapText {fields? : Option MapFields} (h : ∀ fields ∈ fields?,
    (∀ type ∈ fields.key.type, Palette.IsClean type) ∧ ∀ type ∈ fields.valueType?, Palette.IsClean type) :
    Palette.IsClean (mapText fields?) := by
  cases fields? with
  | none => decide
  | some fields =>
    have htypes := h fields rfl
    simp only [mapText, isClean_append]
    exact ⟨⟨⟨⟨by decide, isClean_getD htypes.1⟩, by decide⟩, isClean_getD htypes.2⟩, by decide⟩

variable {b : Batch}

theorem IsClean.decorates_mapLine (h : b.IsClean) {name : String} (hname : name ∈ b.mapEntries.names) :
    Decorates (mapLine .plain b name) (mapLine .bright b name) := by
  have hindent : Decorates "  " "  " := .of_isClean (by decide)
  have htext := Decorates.of_isClean (isClean_mapText (h.types name hname))
  exact ((hindent.append (.paintName (h.mapEntries name hname))).append htext).append (.of_isClean (by decide))

theorem isClean_packageLine (package : String) : Palette.IsClean (packageLine package) := by
  rw [packageLine, isClean_append, isClean_append]
  refine ⟨⟨by decide, ?_⟩, by decide⟩
  rw [Palette.IsClean, String.toList_ofList]
  exact Text.escape_notMem_quoted package.toList

theorem IsClean.decorates_listing (h : b.IsClean) : Decorates (b.listing .plain) (b.listing .bright) := by
  have hsymbols : Decorates (String.join (b.symbols.entries.map fun e => symbolLine .plain e.1 e.2))
      (String.join (b.symbols.entries.map fun e => symbolLine .bright e.1 e.2)) :=
    .join fun e he => decorates_symbolLine (h.symbols e he).1 (h.symbols e he).2
  have hentries : Decorates (String.join (b.mapEntries.names.map (mapLine .plain b)))
      (String.join (b.mapEntries.names.map (mapLine .bright b))) :=
    .join fun name hname => h.decorates_mapLine hname
  have hpackages : Decorates (String.join (b.packages.map packageLine)) (String.join (b.packages.map packageLine)) :=
    .join fun package _ => .of_isClean (isClean_packageLine package)
  have hfirst : Decorates "symbols:\n" "symbols:\n" := .of_isClean (by decide)
  have hsecond : Decorates "map entries:\n" "map entries:\n" := .of_isClean (by decide)
  have hthird : Decorates "packages:\n" "packages:\n" := .of_isClean (by decide)
  exact ((((hfirst.append hsymbols).append hsecond).append hentries).append hthird).append hpackages

end Batch

namespace TypeScript

open Palette (IsClean Decorates)

theorem Expression.decorates_render {e : Expression} (h : ∀ name ∈ e.segments, IsClean name) :
    Decorates (e.render .plain) (e.render .bright) := by
  induction e with
  | identifier name => exact .paintName (h name List.mem_cons_self)
  | property object name ih =>
    rw [segments, List.forall_mem_append, List.forall_mem_singleton] at h
    exact ((ih h.1).append (.paintMark (by decide))).append (.of_isClean h.2)

/-- Every name in the place of a type has its like in the place of a value. -/
theorem EntityName.exists_toEntityName_eq (n : EntityName) : ∃ e : Expression, e.toEntityName = n := by
  induction n with
  | identifier name => exact ⟨.identifier name, rfl⟩
  | qualified left right ih =>
    obtain ⟨object, rfl⟩ := ih
    exact ⟨object.property right, rfl⟩

end TypeScript

namespace Palette

/-- A listing or a node in colour is the plain one with codes put into it, and each colour is ended before the
next one begins. What is shown must have no codes in itself, except for packages, as they are quoted. -/
theorem isDecoration_bright :
    (∀ b : Batch, b.IsClean → IsDecoration (b.listing .plain) (b.listing .bright)) ∧
    (∀ e : TypeScript.Expression, (∀ name ∈ e.segments, IsClean name) →
      IsDecoration (e.render .plain) (e.render .bright)) ∧
    ∀ n : TypeScript.EntityName, (∀ name ∈ n.segments, IsClean name) →
      IsDecoration (n.render .plain) (n.render .bright) := by
  have hvalue : ∀ e : TypeScript.Expression, (∀ name ∈ e.segments, IsClean name) →
      IsDecoration (e.render .plain) (e.render .bright) := fun e he => (e.decorates_render he).isDecoration
  refine ⟨fun b hb => hb.decorates_listing.isDecoration, hvalue, fun n hn => ?_⟩
  obtain ⟨e, rfl⟩ := n.exists_toEntityName_eq
  rw [e.segments_toEntityName] at hn
  rw [e.render_toEntityName, e.render_toEntityName]
  exact hvalue e hn

/-- One of the packages is a code here, and one of the map entries lacks its value. -/
theorem isDecoration_bright_code :
    let key : Field := { name := "key", number := 1, type := some "TYPE_STRING" }
    let odd : Message := { name := "F", fields := [key], options := some { mapEntry := true } }
    let messages : List Message := [.ofMap "E" "TYPE_STRING" "TYPE_BOOL" none, odd]
    let file : ProtoFile := { name := "f", package := "p", messages, enums := [{ name := "K" }] }
    let b := Batch.load { settings := {} } ⟨[file, { name := "g", package := "\x1b[2m" }]⟩
    b.IsClean ∧ IsDecoration (b.listing .plain) (b.listing .bright) ∧
      IsDecoration "h.K" ((TypeScript.Expression.chain "h" ["K"]).render .bright) ∧
      IsDecoration "h..K" ((TypeScript.EntityName.chain "h" ["", "K"]).render .bright) := by
  intro key odd messages file b
  have hclean : b.IsClean := ⟨by decide, by decide, by decide⟩
  have hvalue := isDecoration_bright.2.1 (.chain "h" ["K"]) (by decide)
  have htype := isDecoration_bright.2.2 (.chain "h" ["", "K"]) (by decide)
  exact ⟨hclean, isDecoration_bright.1 b hclean, hvalue, htype⟩

end Palette
end ProtoLink
