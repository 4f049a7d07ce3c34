import ProtoLink.Batch
import ProtoLink.Descriptor.Format

/-! Opening a batch and registering files in it: every enumeration and message is declared under its dotted name, and
map entries are taken out of the files into a table of their own. Nothing inside a map entry is looked at. -/
namespace ProtoLink

namespace Batch

/-- What is found amiss if a type of some name was declared before. -/
def duplicate (name previous path : String) : Diagnostic.Finding where
  kind := .duplicateSymbol
  detail? := some name
  advice := ["first defined in `" ++ previous ++ "`, now in `" ++ path ++ "`"]

/-- Declares a type. The last declaration of a name counts, and every one after the first is reported. -/
def declare (b : Batch) (path name : String) : Batch :=
  let log := match b.symbols.get? name with
    | none => b.log
    | some previous => b.log.report (duplicate name previous path)
  { b with symbols := b.symbols.insert name path, log }

def declareEnums (b : Batch) (path scope : String) (enums : List Enumeration) : Batch :=
  enums.foldl (fun b e => b.declare path (nameWithin scope e.name)) b

/-- Enters the map entries among the messages of a scope. -/
def enterMapEntries (b : Batch) (scope : String) (messages : List Message) : Batch :=
  let entered := (messages.filter Message.isMapEntry).foldl
    (fun entries m => entries.insert (nameWithin scope m.name) m) b.mapEntries
  { b with mapEntries := entered }

mutual

/-- Registers what is declared inside a message. Gives the message back without the map entries below it. -/
def registerWithin (path scope : String) (b : Batch) : Message → Batch × Message
  | ⟨name, fields, messages, enums, options⟩ =>
    let b := (b.declareEnums path scope enums).enterMapEntries scope messages
    let (b, kept) := registerMessages path scope b messages
    (b, ⟨name, fields, kept, enums, options⟩)

/-- Registers the messages of a scope that are no map entries, and gives these back. -/
def registerMessages (path scope : String) (b : Batch) : List Message → Batch × List Message
  | [] => (b, [])
  | m :: ms =>
    if m.isMapEntry then registerMessages path scope b ms
    else
      let name := nameWithin scope m.name
      let (b, m) := registerWithin path name (b.declare path name) m
      let (b, ms) := registerMessages path scope b ms
      (b, m :: ms)

end

/-- Registers what a file declares, as if it had the given path and its names stood in the given scope. Gives the
file back without its map entries. -/
def registerAs (b : Batch) (path scope : String) (f : ProtoFile) : Batch × ProtoFile :=
  let b := { b with packages := b.packages ++ [f.package] }
  let b := (b.declareEnums path scope f.enums).enterMapEntries scope f.messages
  let (b, kept) := registerMessages path scope b f.messages
  (b, { f with messages := kept })

def register (b : Batch) (f : ProtoFile) : Batch × ProtoFile := b.registerAs f.name f.package f

def registerAll (b : Batch) : List ProtoFile → Batch × List ProtoFile
  | [] => (b, [])
  | f :: fs =>
    let (b, f) := b.register f
    let (b, fs) := b.registerAll fs
    (b, f :: fs)

/-- Takes in a set of files: registers all of them and keeps what is given back. -/
def load (b : Batch) (set : FileSet) : Batch :=
  let (b, files) := b.registerAll set.files
  { b with files := b.files ++ files }

/-- The reasons for which a batch cannot be used as asked. -/
inductive Fault where
  | malformedSet (refusal : Json.Refusal)
  | unknownFile (path : String)
deriving DecidableEq, Repr

def Fault.message : Fault → String
  | .malformedSet refusal => "invalid descriptor set: " ++ refusal.message
  | .unknownFile path => "file `" ++ path ++ "` is not part of the batch"

def readSet (text : String) : Except Fault FileSet := (FileSet.parse text).mapError .malformedSet

/-- A new batch that has taken in the set of files of a text. -/
def ofText (settings : Settings) (text : String) : Except Fault Batch :=
  (readSet text).map fun set => ({ settings } : Batch).load set

def findFile (b : Batch) (path : String) : Except Fault ProtoFile :=
  match b.file? path with
  | some f => .ok f
  | none => .error (.unknownFile path)

end Batch
end ProtoLink
