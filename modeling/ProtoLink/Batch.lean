import ProtoLink.Descriptor
import ProtoLink.Diagnostic.Log
import ProtoLink.Settings
import ProtoLink.Table

/-! A batch: the files of one run, with the tables of all that they declare. -/
namespace ProtoLink

/-- What is known of the files of one run. -/
structure Batch where
  settings : Settings := {}
  /-- The path of the file that declares a type. -/
  symbols : NameTable String := ∅
  /-- The map entries, which are no types of their own. -/
  mapEntries : NameTable Message := ∅
  /-- The package of each file that was registered, in order. -/
  packages : List String := []
  log : Log := {}
  /-- The files that the batch holds, without their map entries. -/
  files : List ProtoFile := []
deriving Inhabited

/-- The two fields of a map entry. -/
structure MapFields where
  key : Field
  value : Field
deriving DecidableEq, Repr

/-- The key is the first field numbered one, the value the first one numbered two. -/
def Message.mapFields? (entry : Message) : Option MapFields :=
  match entry.field? 1, entry.field? 2 with
  | some key, some value => some ⟨key, value⟩
  | _, _ => none

/-- The type of a map's values: its name if it has one, else its tag. -/
def MapFields.valueType? (fields : MapFields) : Option String :=
  fields.value.typeName <|> fields.value.type

namespace Batch

/-- The fields of the map entry of some name. -/
def mapFields? (b : Batch) (name : String) : Option MapFields :=
  (b.mapEntries.get? name).bind Message.mapFields?

/-- The first file with some path. -/
def file? (b : Batch) (path : String) : Option ProtoFile := b.files.find? fun f => f.name = path

end Batch
end ProtoLink
