import ProtoLink.Descriptor

/-! Building descriptors by hand, part by part. -/
namespace ProtoLink

namespace Message

/-- The map entry of a field of map type. The value's type name is given for messages and enumerations. -/
def ofMap (name keyType valueType : String) (valueTypeName : Option String) : Message where
  name := name
  fields := [
    { name := "key", number := 1, label := some "LABEL_OPTIONAL", type := some keyType },
    { name := "value", number := 2, label := some "LABEL_OPTIONAL", type := some valueType,
      typeName := valueTypeName }]
  options := some { mapEntry := true }

def addMessage (m : Message) (nested : Message) : Message :=
  { m with messages := m.messages ++ [nested] }

/-- Adds an enumeration that has no values yet. -/
def addEnum (m : Message) (name : String) : Message :=
  { m with enums := m.enums ++ [{ name }] }

def addField (m : Message) (field : Field) : Message :=
  { m with fields := m.fields ++ [field] }

end Message

namespace ProtoFile

def addMessage (f : ProtoFile) (m : Message) : ProtoFile :=
  { f with messages := f.messages ++ [m] }

/-- Adds an enumeration that has no values yet. -/
def addEnum (f : ProtoFile) (name : String) : ProtoFile :=
  { f with enums := f.enums ++ [{ name }] }

def addDependency (f : ProtoFile) (path : String) : ProtoFile :=
  { f with dependencies := f.dependencies ++ [path] }

end ProtoFile
end ProtoLink
