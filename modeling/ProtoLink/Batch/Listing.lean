import ProtoLink.Batch
import ProtoLink.Json.Printer
import ProtoLink.Text.Character
import ProtoLink.Text.ControlSequence

/-! What a batch holds, for a reader: as lines of text, and as a JSON document. -/
namespace ProtoLink.Batch

def symbolLine (p : Palette) (name path : String) : String :=
  "  " ++ p.paintName name ++ " " ++ p.paintMark "->" ++ " " ++ p.paintPath path ++ "\n"

/-- What is shown of a map entry. One without a key or a value is malformed. -/
def mapText : Option MapFields → String
  | none => " (malformed)"
  | some fields =>
    " (key: " ++ fields.key.type.getD "?" ++ ", value: " ++ fields.valueType?.getD "?" ++ ")"

def mapLine (p : Palette) (b : Batch) (name : String) : String :=
  "  " ++ p.paintName name ++ mapText (b.mapFields? name) ++ "\n"

def packageLine (package : String) : String := "  " ++ .ofList (Text.quoted package.toList) ++ "\n"

/-- The symbols, the map entries and the packages, one on a line. -/
def listing (b : Batch) (p : Palette) : String :=
  "symbols:\n" ++ String.join (b.symbols.entries.map fun (name, path) => symbolLine p name path) ++
    "map entries:\n" ++ String.join (b.mapEntries.names.map (mapLine p b)) ++
    "packages:\n" ++ String.join (b.packages.map packageLine)

def symbolJson (name path : String) : Json := .object [("name", .string name), ("path", .string path)]

def mapJson (b : Batch) (name : String) : Json :=
  let fields := b.mapFields? name
  .object [("name", .string name), ("key", .ofText? (fields.bind fun f => f.key.type)),
    ("value", .ofText? (fields.bind MapFields.valueType?))]

/-- The document with the symbols, the map entries and the packages. -/
def report (b : Batch) : Json :=
  .object [("symbols", .array (b.symbols.entries.map fun (name, path) => symbolJson name path)),
    ("map_entries", .array (b.mapEntries.names.map (mapJson b))),
    ("packages", .array (b.packages.map .string))]

end ProtoLink.Batch
