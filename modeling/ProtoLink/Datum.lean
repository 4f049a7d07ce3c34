import ProtoLink.Json.Value
import ProtoLink.Schema

/-! Values that fit the shapes of a schema, and how they are written as JSON. -/
namespace ProtoLink

/-- A value of some shape. A record holds one value for each member, in order; an optional one may be absent. -/
inductive Datum where
  | absent
  | text (value : String)
  | int (value : Int)
  | flag (value : Bool)
  | list (items : List Datum)
  | record (slots : List Datum)
deriving Repr, Inhabited

/-- The value of a member that is left out and has a default. -/
def Shape.default : Shape → Datum
  | .text => .text ""
  | .int32 => .int 0
  | .flag => .flag false
  | .list _ => .list []
  | .record _ => .absent

/-- What stands for a member that is left out; none if it must be given. -/
def Member.fallback? (m : Member) : Option Datum :=
  match m.presence with
  | .required => none
  | .defaulted => some m.shape.default
  | .optional => some .absent

namespace Datum

mutual

/-- The document for a value: members under their names, absent ones left out. -/
def toJson : Shape → Datum → Json
  | .list item, .list items => .array (itemsToJson item items)
  | .record kind, .record slots => .object (slotsToJson kind.members slots)
  | _, .text value => .string value
  | _, .int value => .ofInt value
  | _, .flag value => .bool value
  | _, _ => .null

/-- The documents for the items of a list. -/
def itemsToJson (item : Shape) : List Datum → List Json
  | [] => []
  | d :: ds => toJson item d :: itemsToJson item ds

/-- The members of the object for a record. -/
def slotsToJson : List Member → List Datum → List (String × Json)
  | _, [] => []
  | [], _ :: _ => []
  | _ :: ms, .absent :: ds => slotsToJson ms ds
  | m :: ms, d :: ds => (m.name, toJson m.shape d) :: slotsToJson ms ds

end

end Datum
end ProtoLink
