/-! Descriptors of protobuf files: the types that each file declares, as a schema compiler hands them over. -/
namespace ProtoLink

/-- A field of a message. `type` and `typeName` are the tags and dotted names of the descriptor, uninterpreted. -/
structure Field where
  name : String
  number : Int32 := 0
  label : Option String := none
  type : Option String := none
  typeName : Option String := none
deriving DecidableEq, Repr, Inhabited

structure EnumValue where
  name : String
  number : Int32 := 0
deriving DecidableEq, Repr, Inhabited

structure Enumeration where
  name : String
  values : List EnumValue := []
deriving DecidableEq, Repr, Inhabited

structure MessageOptions where
  mapEntry : Bool := false
deriving DecidableEq, Repr, Inhabited

/-- A message type with the types that are nested in it. -/
structure Message where
  name : String
  fields : List Field := []
  messages : List Message := []
  enums : List Enumeration := []
  options : Option MessageOptions := none
deriving Repr, Inhabited

/-- One source file of a schema. -/
structure ProtoFile where
  name : String := ""
  package : String := ""
  dependencies : List String := []
  messages : List Message := []
  enums : List Enumeration := []
deriving Repr, Inhabited

/-- The files that are handed over together. -/
structure FileSet where
  files : List ProtoFile := []
deriving Repr, Inhabited

namespace Message

/-- A map entry is the key and value message that stands behind a field of map type. -/
def isMapEntry (m : Message) : Bool :=
  match m.options with
  | some options => options.mapEntry
  | none => false

mutual

/-- Whether two messages agree in every part. -/
def decideEq : (a b : Message) → Decidable (a = b)
  | ⟨n, fs, ms, es, o⟩, ⟨n', fs', ms', es', o'⟩ =>
    match decideEqAll ms ms' with
    | .isFalse h => .isFalse fun e => h (by cases e; rfl)
    | .isTrue h =>
      if h' : n = n' ∧ fs = fs' ∧ es = es' ∧ o = o' then
        .isTrue (by obtain ⟨rfl, rfl, rfl, rfl⟩ := h'; subst h; rfl)
      else .isFalse fun e => h' (by cases e; simp)

/-- Whether two lists of messages agree in every part. -/
def decideEqAll : (as bs : List Message) → Decidable (as = bs)
  | [], [] => .isTrue rfl
  | [], _ :: _ => .isFalse (by simp)
  | _ :: _, [] => .isFalse (by simp)
  | a :: as, b :: bs =>
    match decideEq a b, decideEqAll as bs with
    | .isTrue h, .isTrue h' => .isTrue (by rw [h, h'])
    | .isFalse h, _ => .isFalse fun e => h (List.cons.inj e).1
    | _, .isFalse h => .isFalse fun e => h (List.cons.inj e).2

end

instance : DecidableEq Message := decideEq

/-- The first field with a given number. -/
def field? (m : Message) (number : Int32) : Option Field :=
  m.fields.find? fun f => f.number = number

end Message

deriving instance DecidableEq for ProtoFile
deriving instance DecidableEq for FileSet

end ProtoLink
