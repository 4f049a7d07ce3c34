/-! The shapes of descriptors as data: which records there are, and which members each of them has. -/
namespace ProtoLink

/-- The records that make up a descriptor set. -/
inductive RecordKind where
  | fileSet
  | protoFile
  | message
  | messageOptions
  | field
  | enumeration
  | enumValue
deriving DecidableEq, Repr

/-- What a value is made of. -/
inductive Shape where
  | text
  | int32
  | flag
  | list (item : Shape)
  | record (kind : RecordKind)
deriving DecidableEq, Repr

/-- Whether a member must be given. One that may be left out has the default of its shape, or stays absent. -/
inductive Presence where
  | required
  | defaulted
  | optional
deriving DecidableEq, Repr

/-- A member of a record. It may also be given under its byname. -/
structure Member where
  name : String
  shape : Shape
  presence : Presence := .defaulted
  byname : Option String := none
deriving DecidableEq, Repr

namespace Member

/-- Whether a key in a document stands for this member. -/
def answersTo (m : Member) (key : String) : Bool := m.name = key || m.byname = some key

end Member

namespace RecordKind

/-- The name of the record in messages. -/
def title : RecordKind → String
  | fileSet => "FileDescriptorSet"
  | protoFile => "FileDescriptor"
  | message => "MessageDescriptor"
  | messageOptions => "MessageOptions"
  | field => "FieldDescriptor"
  | enumeration => "EnumDescriptor"
  | enumValue => "EnumValueDescriptor"

/-- The members of a record in the order in which they are written. -/
def members : RecordKind → List Member
  | fileSet => [{ name := "file", shape := .list (.record protoFile) }]
  | protoFile => [
    { name := "name", shape := .text },
    { name := "package", shape := .text },
    { name := "dependency", shape := .list .text },
    { name := "message_type", shape := .list (.record message), byname := some "messageType" },
    { name := "enum_type", shape := .list (.record enumeration), byname := some "enumType" }]
  | message => [
    { name := "name", shape := .text, presence := .required },
    { name := "field", shape := .list (.record field) },
    { name := "nested_type", shape := .list (.record message), byname := some "nestedType" },
    { name := "enum_type", shape := .list (.record enumeration), byname := some "enumType" },
    { name := "options", shape := .record messageOptions, presence := .optional }]
  | messageOptions => [{ name := "map_entry", shape := .flag, byname := some "mapEntry" }]
  | field => [
    { name := "name", shape := .text, presence := .required },
    { name := "number", shape := .int32 },
    { name := "label", shape := .text, presence := .optional },
    { name := "type", shape := .text, presence := .optional },
    { name := "type_name", shape := .text, presence := .optional, byname := some "typeName" }]
  | enumeration => [
    { name := "name", shape := .text, presence := .required },
    { name := "value", shape := .list (.record enumValue) }]
  | enumValue => [
    { name := "name", shape := .text, presence := .required },
    { name := "number", shape := .int32 }]

/-- The member that a key in a document stands for. -/
def member? (kind : RecordKind) (key : String) : Option Member :=
  kind.members.find? (·.answersTo key)

end RecordKind
end ProtoLink
