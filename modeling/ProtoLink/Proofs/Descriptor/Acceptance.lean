import ProtoLink.Proofs.Datum.Conformance
import ProtoLink.Proofs.Datum.Printing
import ProtoLink.Proofs.Datum.Rewriting
import ProtoLink.Proofs.Descriptor.RoundTrip

/-! The texts that are read as sets of files: those that keep to the format, and no other ones. A set is read from
each of the ways in which it can be written. -/
namespace ProtoLink

open Datum (Conforms Rewrites)
open Json (IsString IsTextOf Spells SpellsItems Tree)
open Relation (ReflTransGen)

theorem Datum.not_conforms_null (levels : Nat) (shape : Shape) : ¬ Conforms levels shape .null := by
  rw [conforms_iff]
  rintro ⟨d, hd⟩
  exact not_describes_null hd

namespace RecordKind

theorem required_names (kind : RecordKind) :
    (kind.members.filter (·.presence = .required)).map Member.name =
      if kind ∈ [message, field, enumeration, enumValue] then ["name"] else [] := by
  cases kind <;> decide

theorem optional_names (kind : RecordKind) :
    (kind.members.filter (·.presence = .optional)).map Member.name =
      if kind = message then ["options"] else if kind = field then ["label", "type", "type_name"] else [] := by
  cases kind <;> decide

end RecordKind

/-- A text is read as a set of files if and only if it is that of one document that keeps to the format of a
set. Only the names of messages, fields, enumerations and their values are required there. -/
theorem FileSet.exists_parse_iff (text : String) :
    ((∃ s, parse text = .ok s) ↔ ∃ t, IsTextOf text.toList t ∧ Conforms 127 (.record .fileSet) t) ∧
      (∀ levels shape, ¬ Conforms levels shape .null) ∧
      ∀ kind : RecordKind,
        (kind.members.filter (·.presence = .required)).map Member.name =
          (if kind ∈ [.message, .field, .enumeration, .enumValue] then ["name"] else []) ∧
        (kind.members.filter (·.presence = .optional)).map Member.name =
          (if kind = .message then ["options"] else if kind = .field then ["label", "type", "type_name"] else []) := by
  refine ⟨?_, Datum.not_conforms_null, fun kind => ⟨kind.required_names, kind.optional_names⟩⟩
  have hparse : (∃ s, parse text = .ok s) ↔ ∃ d, Datum.ofText (.record .fileSet) text.toList = .ok d := by
    unfold parse
    cases Datum.ofText (.record .fileSet) text.toList <;> simp [Except.map]
  rw [hparse]
  simp only [Datum.ofText_eq_ok_iff, Datum.conforms_iff]
  constructor
  · rintro ⟨d, t, htext, hd⟩
    exact ⟨t, htext, d, hd⟩
  · rintro ⟨t, htext, d, hd⟩
    exact ⟨d, t, htext, hd⟩

/-! Other ways to write a set -/

theorem FileSet.isTextOf_print (s : FileSet) : IsTextOf s.print.toList s.toJson.tree := by
  refine ⟨[], _, [], .nil, Datum.spells_toJson _ _ s.fits_toDatum, .nil, ?_⟩
  rw [print, Json.toCompact, String.toList_ofList, List.nil_append, List.append_nil]
  rfl

theorem FileSet.exists_parse_print_iff {s : FileSet} : (∃ s', parse s.print = .ok s') ↔ s.toJson.depth ≤ 127 := by
  obtain ⟨place, hread⟩ := Datum.ofText_toJson s.fits_toDatum
  rw [parse, print, Json.toCompact, String.toList_ofList, toJson, hread]
  by_cases hdepth : (s.toDatum.toJson (.record .fileSet)).depth ≤ 127
  · rw [if_pos (show _ ≤ Datum.maxDepth from hdepth)]
    exact iff_of_true ⟨_, rfl⟩ hdepth
  · rw [if_neg (show ¬ _ ≤ Datum.maxDepth from hdepth)]
    refine iff_of_false ?_ hdepth
    rintro ⟨s', h⟩
    cases h

/-- A set that can be read back is read from each text of a document that comes from its own one by changes in
order, names, defaults and what is passed over, and by records that become arrays. -/
theorem FileSet.parse_rewritten {s : FileSet} (hs : ∃ s', parse s.print = .ok s') :
    IsTextOf s.print.toList s.toJson.tree ∧
      ∀ (t : Tree) (text : String), ReflTransGen (Rewrites (.record .fileSet)) s.toJson.tree t →
        IsTextOf text.toList t → parse text = .ok s := by
  refine ⟨s.isTextOf_print, fun t text ht htext => ?_⟩
  have hdescribes := Datum.describes_toJson _ _ Datum.maxDepth s.fits_toDatum (exists_parse_print_iff.1 hs)
  have hread := Datum.ofText_eq_ok_iff.2 ⟨t, htext, Datum.describes_of_reflTransGen ht hdescribes⟩
  rw [parse, hread, Except.map, ofDatum_toDatum]

/-- A message as an array, in an object with a byname, without defaults and with a member that is passed over. -/
theorem FileSet.parse_rewritten_message :
    let s : FileSet := ⟨[{ messages := [{ name := "M" }] }]⟩
    (∃ s', parse s.print = .ok s') ∧
      parse "\x7b\"file\":[\x7b\"x\":\x7b\x7d,\"messageType\":[[\"M\",[],[],[],null]]\x7d]\x7d" = .ok s := by
  intro s
  have hs : ∃ s', parse s.print = .ok s' := exists_parse_print_iff.2 (by decide)
  have hkey : ∀ {kind : RecordKind} {m : Member} (name : String), kind.member? name = some m →
      kind.Names (name.toList.flatMap Json.escape) m := fun _ h => RecordKind.names_of_member? h
  -- the message becomes an array, with null for the options that it does not have
  have hmessage : Rewrites (.record .message)
      (.object [("name".toList, .string ['M']), ("field".toList, .array []), ("nested_type".toList, .array []),
        ("enum_type".toList, .array [])])
      (.array [.string ['M'], .array [], .array [], .array [], .null]) := by
    refine .array (.cons (.value (hkey "name" rfl) (.head _)) (.cons (.value (hkey "field" rfl) (.tail _ (.head _)))
      (.cons (.value (hkey "nested_type" rfl) (.tail _ (.tail _ (.head _))))
      (.cons (.value (hkey "enum_type" rfl) (.tail _ (.tail _ (.tail _ (.head _)))))
      (.cons (.null rfl ?_) .nil)))))
    simp only [List.forall_mem_cons, List.not_mem_nil, false_implies, implies_true, and_true]
    exact ⟨(hkey "name" rfl).not_names (by decide), (hkey "field" rfl).not_names (by decide),
      (hkey "nested_type" rfl).not_names (by decide), (hkey "enum_type" rfl).not_names (by decide)⟩
  let messages : Member := { name := "message_type", shape := .list (.record .message), byname := some "messageType" }
  let enums : Member := { name := "enum_type", shape := .list (.record .enumeration), byname := some "enumType" }
  -- all else in the file is dropped, from the front, once the message is behind it
  have hfile : ReflTransGen (Rewrites (.record .protoFile))
      (.object [("name".toList, .string []), ("package".toList, .string []), ("dependency".toList, .array []),
        ("message_type".toList, .array [.object [("name".toList, .string ['M']), ("field".toList, .array []),
          ("nested_type".toList, .array []), ("enum_type".toList, .array [])]]), ("enum_type".toList, .array [])])
      (.object [("x".toList, .object []),
        ("messageType".toList, .array [.array [.string ['M'], .array [], .array [], .array [], .null]])]) := by
    refine .head (.drop (m := { name := "name", shape := .text }) (hkey "name" rfl) rfl) ?_
    refine .head (.drop (m := { name := "package", shape := .text }) (hkey "package" rfl) rfl) ?_
    refine .head (.drop (m := { name := "dependency", shape := .list .text }) (hkey "dependency" rfl) rfl) ?_
    refine .head (.permute (.swap _ _ _)) ?_
    refine .head (.drop (m := enums) (hkey "enum_type" rfl) rfl) ?_
    refine .head (.rename (m := messages) (hkey "message_type" rfl) (hkey "messageType" rfl)) ?_
    refine .head (.member (m := messages) (hkey "messageType" rfl) (.item [] [] hmessage)) ?_
    have hother : RecordKind.protoFile.Ignores ("x".toList.flatMap Json.escape) := RecordKind.ignores_of_member? rfl
    exact .single (.insert hother (.object []))
  let file : Member := { name := "file", shape := .list (.record .protoFile) }
  have hinside : ∀ t t', Rewrites (.record .protoFile) t t' → Rewrites (.record .fileSet)
      (.object [("file".toList, .array [t])]) (.object [("file".toList, .array [t'])]) :=
    fun _ _ h => .member (m := file) (hkey "file" rfl) (.item [] [] h)
  have hset := hfile.lift (fun t => Tree.object [("file".toList, .array [t])]) hinside
  refine ⟨hs, (parse_rewritten hs).2 _ _ hset ?_⟩
  -- the text, from the inside
  have hstring : ∀ name : String, IsString (name.toList.flatMap Json.escape) :=
    fun _ => (Json.denotes_escape _).isString
  have hempty : Spells (.array []) ['[', ']'] := .array (.nil .nil)
  have hrest : SpellsItems false [.array [], .array [], .array [], .null] ",[],[],[],null]".toList :=
    .cons (.later .nil .nil) hempty (.cons (.later .nil .nil) hempty (.cons (.later .nil .nil) hempty
      (.cons (.later .nil .nil) .null (.nil .nil))))
  have hmessages := Spells.array (.cons (.first .nil) (.array (.cons (.first .nil) (.string (hstring "M")) hrest))
    (.nil .nil))
  have hfile := Spells.object (.cons (.first .nil) (hstring "x") .nil .nil (.object (.nil .nil))
    (.cons (.later .nil .nil) (hstring "messageType") .nil .nil hmessages (.nil .nil)))
  have hset := Spells.object (.cons (.first .nil) (hstring "file") .nil .nil
    (.array (.cons (.first .nil) hfile (.nil .nil))) (.nil .nil))
  exact ⟨[], _, [], .nil, hset, .nil, rfl⟩

end ProtoLink
