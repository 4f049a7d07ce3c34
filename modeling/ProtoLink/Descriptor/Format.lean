import ProtoLink.Datum.Reader
import ProtoLink.Descriptor
import ProtoLink.Json.Printer

/-! Descriptor sets as JSON documents: what is written for a set, and which texts are read as one. -/
namespace ProtoLink

namespace Datum

def asText : Datum → String
  | .text value => value
  | _ => ""

def asText? : Datum → Option String
  | .text value => some value
  | _ => none

def asInt : Datum → Int
  | .int value => value
  | _ => 0

def asFlag : Datum → Bool
  | .flag value => value
  | _ => false

def asList : Datum → List Datum
  | .list items => items
  | _ => []

def ofText? : Option String → Datum
  | some value => .text value
  | none => .absent

end Datum

namespace Field

def toDatum (f : Field) : Datum :=
  .record [.text f.name, .int f.number.toInt, .ofText? f.label, .ofText? f.type, .ofText? f.typeName]

def ofDatum : Datum → Field
  | .record [name, number, label, type, typeName] =>
    ⟨name.asText, .ofInt number.asInt, label.asText?, type.asText?, typeName.asText?⟩
  | _ => default

end Field

namespace EnumValue

def toDatum (v : EnumValue) : Datum := .record [.text v.name, .int v.number.toInt]

def ofDatum : Datum → EnumValue
  | .record [name, number] => ⟨name.asText, .ofInt number.asInt⟩
  | _ => default

end EnumValue

namespace Enumeration

def toDatum (e : Enumeration) : Datum := .record [.text e.name, .list (e.values.map EnumValue.toDatum)]

def ofDatum : Datum → Enumeration
  | .record [name, values] => ⟨name.asText, values.asList.map EnumValue.ofDatum⟩
  | _ => default

end Enumeration

namespace MessageOptions

def toDatum? : Option MessageOptions → Datum
  | some o => .record [.flag o.mapEntry]
  | none => .absent

def ofDatum? : Datum → Option MessageOptions
  | .record [mapEntry] => some ⟨mapEntry.asFlag⟩
  | _ => none

end MessageOptions

namespace Message

mutual

def toDatum : Message → Datum
  | ⟨name, fields, messages, enums, options⟩ =>
    .record [.text name, .list (fields.map Field.toDatum), .list (allToDatum messages),
      .list (enums.map Enumeration.toDatum), MessageOptions.toDatum? options]

def allToDatum : List Message → List Datum
  | [] => []
  | m :: ms => toDatum m :: allToDatum ms

end

mutual

def ofDatum : Datum → Message
  | .record [name, fields, .list messages, enums, options] =>
    ⟨name.asText, fields.asList.map Field.ofDatum, allOfDatum messages,
      enums.asList.map Enumeration.ofDatum, MessageOptions.ofDatum? options⟩
  | _ => default

def allOfDatum : List Datum → List Message
  | [] => []
  | d :: ds => ofDatum d :: allOfDatum ds

end

end Message

namespace ProtoFile

def toDatum (f : ProtoFile) : Datum :=
  .record [.text f.name, .text f.package, .list (f.dependencies.map .text),
    .list (Message.allToDatum f.messages), .list (f.enums.map Enumeration.toDatum)]

def ofDatum : Datum → ProtoFile
  | .record [name, package, dependencies, messages, enums] =>
    ⟨name.asText, package.asText, dependencies.asList.map Datum.asText,
      Message.allOfDatum messages.asList, enums.asList.map Enumeration.ofDatum⟩
  | _ => {}

end ProtoFile

namespace FileSet

def toDatum (s : FileSet) : Datum := .record [.list (s.files.map ProtoFile.toDatum)]

def ofDatum : Datum → FileSet
  | .record [files] => ⟨files.asList.map ProtoFile.ofDatum⟩
  | _ => {}

end FileSet

/-- The document for a field. -/
def Field.toJson (f : Field) : Json := f.toDatum.toJson (.record .field)

/-- The document for a message. -/
def Message.toJson (m : Message) : Json := m.toDatum.toJson (.record .message)

/-- The document for a file. -/
def ProtoFile.toJson (f : ProtoFile) : Json := f.toDatum.toJson (.record .protoFile)

namespace FileSet

/-- The document for a set of files. -/
def toJson (s : FileSet) : Json := s.toDatum.toJson (.record .fileSet)

/-- The compact text of a set of files. -/
def print (s : FileSet) : String := s.toJson.toCompact

/-- Reads a set of files. -/
def parse (text : String) : Except Json.Refusal FileSet :=
  (Datum.ofText (.record .fileSet) text.toList).map ofDatum

end FileSet

@[simp] theorem Datum.asText?_ofText? (t : Option String) : (Datum.ofText? t).asText? = t := by
  cases t <;> rfl

@[simp] theorem Field.ofDatum_toDatum (f : Field) : ofDatum f.toDatum = f := by
  simp [toDatum, ofDatum, Datum.asText, Datum.asInt]

@[simp] theorem EnumValue.ofDatum_toDatum (v : EnumValue) : ofDatum v.toDatum = v := by
  simp [toDatum, ofDatum, Datum.asText, Datum.asInt]

@[simp] theorem Enumeration.ofDatum_toDatum (e : Enumeration) : ofDatum e.toDatum = e := by
  simp [toDatum, ofDatum, Datum.asText, Datum.asList, Function.comp_def]

@[simp] theorem MessageOptions.ofDatum?_toDatum? (o : Option MessageOptions) :
    ofDatum? (toDatum? o) = o := by
  cases o <;> rfl

mutual

@[simp] theorem Message.ofDatum_toDatum : (m : Message) → ofDatum m.toDatum = m
  | ⟨name, fields, messages, enums, options⟩ => by
    simp [toDatum, ofDatum, Datum.asText, Datum.asList, Function.comp_def,
      Message.allOfDatum_allToDatum messages]

@[simp] theorem Message.allOfDatum_allToDatum : (ms : List Message) → allOfDatum (allToDatum ms) = ms
  | [] => rfl
  | m :: ms => by
    simp [allToDatum, allOfDatum, Message.ofDatum_toDatum m, Message.allOfDatum_allToDatum ms]

end

@[simp] theorem ProtoFile.ofDatum_toDatum (f : ProtoFile) : ofDatum f.toDatum = f := by
  simp [toDatum, ofDatum, Datum.asText, Datum.asList, Function.comp_def]

/-- No part of a set is lost in its value. -/
@[simp] theorem FileSet.ofDatum_toDatum (s : FileSet) : ofDatum s.toDatum = s := by
  simp [toDatum, ofDatum, Datum.asList, Function.comp_def]

end ProtoLink
