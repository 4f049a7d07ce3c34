import ProtoLink.Batch

/-! How a type is referred to from one of the generated files. -/
namespace ProtoLink

/-- The files that are imported into a generated file, each with the handle that its module is bound to. -/
abbrev Imports := Table String String

namespace Imports

/-- What is done to the imports while one file after the other is generated. -/
inductive Change where
  | register (path handle : String)
  | reset
deriving DecidableEq, Repr, Inhabited

/-- The imports after a change. A path is bound to one handle, and no file shares its imports with the next. -/
def apply (imports : Imports) : Change → Imports
  | .register path handle => imports.insert path handle
  | .reset => ∅

end Imports

namespace Reference

/-- Why a type is referred to by a bare name. -/
inductive Reason where
  /-- No file declares the type. -/
  | unknown
  /-- The file that declares it is not imported, as a file itself is not. -/
  | notImported
deriving DecidableEq, Repr, Inhabited

end Reference

/-- The spelling of a type's name: on its own, or reached through the handle of an imported module. -/
inductive Reference where
  | bare (name : String) (reason : Reference.Reason)
  | qualified (handle tail : String)
deriving DecidableEq, Repr, Inhabited

namespace Reference

def isBare : Reference → Bool
  | .bare _ _ => true
  | .qualified _ _ => false

def isUnknown : Reference → Bool
  | .bare _ .unknown => true
  | _ => false

/-- The identifier that the spelling starts with. A bare name is one identifier, whatever dots are in it. -/
def root : Reference → String
  | .bare name _ => name
  | .qualified handle _ => handle

/-- The names that are reached through the root, one after the other. -/
def members : Reference → List String
  | .bare _ _ => []
  | .qualified _ tail => nameSegments tail

end Reference

namespace Batch

/-- The name without its package, if namespaces are to be left out. -/
def shorten (b : Batch) (name : String) : String :=
  if b.settings.noNamespace then nameShortened b.packages name else name

/-- The spelling of a type's name in the file generated for `root`. Only the file's own types keep their whole name
below the package. -/
def refer (b : Batch) (imports : Imports) (root : ProtoFile) (name : String) : Reference :=
  let own := nameRelativeTo root.package (unrooted name)
  match b.symbols.get? name with
  | none => .bare own .unknown
  | some path =>
    match imports.get? path with
    | some handle => .qualified handle (b.shorten (unrooted name))
    | none => .bare (if path = root.name then own else b.shorten own) .notImported

/-- What is amiss with a reference to a type that no file declares. -/
def undeclared (name : String) : Diagnostic.Finding where
  kind := .unknownType
  detail? := some name

/-- Refers to a type and reports it if no file declares it. -/
def referLogged (b : Batch) (imports : Imports) (root : ProtoFile) (log : Log) (name : String) :
    Reference × Log :=
  let reference := b.refer imports root name
  (reference, if reference.isUnknown then log.report (undeclared name) else log)

/-- A reference is qualified exactly if the file that declares the type is imported. -/
theorem refer_eq_qualified_iff {b : Batch} {imports : Imports} {root : ProtoFile}
    {name handle tail : String} :
    b.refer imports root name = .qualified handle tail ↔
      ∃ path, b.symbols.get? name = some path ∧ imports.get? path = some handle ∧
        b.shorten (unrooted name) = tail := by
  simp only [refer]
  cases b.symbols.get? name with
  | none => simp
  | some path =>
    cases himports : imports.get? path with
    | none => simp [himports]
    | some other => simp [himports]

theorem isUnknown_refer (b : Batch) (imports : Imports) (root : ProtoFile) (name : String) :
    (b.refer imports root name).isUnknown = !b.symbols.contains name := by
  simp only [refer, NameTable.contains]
  cases b.symbols.get? name with
  | none => rfl
  | some path =>
    simp only []
    cases imports.get? path <;> rfl

theorem referLogged_snd (b : Batch) (imports : Imports) (root : ProtoFile) (log : Log) (name : String) :
    (b.referLogged imports root log name).2 =
      if b.symbols.contains name then log else log.report (undeclared name) := by
  simp only [referLogged, isUnknown_refer]
  cases b.symbols.contains name <;> rfl

end Batch
end ProtoLink
