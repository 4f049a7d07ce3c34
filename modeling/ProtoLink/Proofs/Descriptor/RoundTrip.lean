import ProtoLink.Descriptor.Format
import ProtoLink.Proofs.Datum.RoundTrip

/-! Every set of files can be written and read again, unless it is nested deeper than a reader goes. -/
namespace ProtoLink

open Datum (AllFit Fits)

theorem Datum.allFit_iff {item : Shape} {ds : List Datum} : AllFit item ds ↔ ∀ d ∈ ds, Fits item d := by
  induction ds with
  | nil => simp [AllFit]
  | cons d ds ih => simp [AllFit, ih]

theorem Datum.allFit_map {α : Type} {item : Shape} {toDatum : α → Datum} (h : ∀ a, Fits item (toDatum a))
    (as : List α) : AllFit item (as.map toDatum) := by
  rw [allFit_iff]
  intro d hd
  obtain ⟨a, _, rfl⟩ := List.mem_map.1 hd
  exact h a

/-- An absent text is left out. -/
theorem Datum.fits_ofText? (t : Option String) {p : Presence} (h : p = .optional) :
    p = .optional ∧ ofText? t = .absent ∨ Fits .text (ofText? t) := by
  cases t with
  | none => exact .inl ⟨h, rfl⟩
  | some t => exact .inr trivial

theorem fits_int32 (n : Int32) : Fits .int32 (.int n.toInt) := ⟨n.le_toInt, n.toInt_lt⟩

theorem Field.fits_toDatum (f : Field) : Fits (.record .field) f.toDatum :=
  ⟨.inr trivial, .inr (fits_int32 _), Datum.fits_ofText? _ rfl, Datum.fits_ofText? _ rfl,
    Datum.fits_ofText? _ rfl, trivial⟩

theorem EnumValue.fits_toDatum (v : EnumValue) : Fits (.record .enumValue) v.toDatum :=
  ⟨.inr trivial, .inr (fits_int32 _), trivial⟩

theorem Enumeration.fits_toDatum (e : Enumeration) : Fits (.record .enumeration) e.toDatum :=
  ⟨.inr trivial, .inr (Datum.allFit_map EnumValue.fits_toDatum _), trivial⟩

theorem MessageOptions.fits_toDatum? (o : Option MessageOptions) {p : Presence} (h : p = .optional) :
    p = .optional ∧ toDatum? o = .absent ∨ Fits (.record .messageOptions) (toDatum? o) := by
  cases o with
  | none => exact .inl ⟨h, rfl⟩
  | some o => exact .inr ⟨.inr trivial, trivial⟩

namespace Message

mutual

theorem fits_toDatum : (m : Message) → Fits (.record .message) m.toDatum
  | ⟨_, _, messages, _, options⟩ =>
    ⟨.inr trivial, .inr (Datum.allFit_map Field.fits_toDatum _), .inr (allFit_allToDatum messages),
      .inr (Datum.allFit_map Enumeration.fits_toDatum _), MessageOptions.fits_toDatum? options rfl, trivial⟩

theorem allFit_allToDatum : (ms : List Message) → AllFit (.record .message) (allToDatum ms)
  | [] => trivial
  | m :: ms => ⟨fits_toDatum m, allFit_allToDatum ms⟩

end

end Message

theorem Datum.fits_text (t : String) : Fits .text (.text t) := trivial

theorem ProtoFile.fits_toDatum (f : ProtoFile) : Fits (.record .protoFile) f.toDatum :=
  ⟨.inr trivial, .inr trivial, .inr (Datum.allFit_map Datum.fits_text _),
    .inr (Message.allFit_allToDatum f.messages), .inr (Datum.allFit_map Enumeration.fits_toDatum _), trivial⟩

theorem FileSet.fits_toDatum (s : FileSet) : Fits (.record .fileSet) s.toDatum :=
  ⟨.inr (Datum.allFit_map ProtoFile.fits_toDatum _), trivial⟩

/-- Reading undoes printing for the sets that are nested no more than 127 deep, and refuses the deeper ones. -/
theorem FileSet.parse_print (s : FileSet) :
    ∃ place, parse s.print = if s.toJson.depth ≤ 127 then .ok s else .error ⟨.tooDeep, place⟩ := by
  obtain ⟨place, hread⟩ := Datum.ofText_toJson s.fits_toDatum
  refine ⟨place, ?_⟩
  rw [parse, print, Json.toCompact, String.toList_ofList, toJson, hread]
  by_cases hdepth : (s.toDatum.toJson (.record .fileSet)).depth ≤ 127
  · rw [if_pos (show _ ≤ Datum.maxDepth from hdepth), if_pos hdepth, Except.map, ofDatum_toDatum]
  · rw [if_neg (show ¬ _ ≤ Datum.maxDepth from hdepth), if_neg hdepth, Except.map]

end ProtoLink
