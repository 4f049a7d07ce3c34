/-! JSON documents as values. -/
namespace ProtoLink

/-- A JSON document. A number keeps its literal, because what it denotes is up to its reader. -/
inductive Json where
  | null
  | bool (value : Bool)
  | number (literal : List Char)
  | string (value : String)
  | array (items : List Json)
  | object (members : List (String × Json))
deriving Repr, Inhabited

namespace Json

/-- The digits of a natural number, without leading zeros. -/
def digits (n : Nat) : List Char := Nat.toDigits 10 n

/-- An integer as a number: its digits, after a minus sign if it is negative. -/
def ofInt : Int → Json
  | .ofNat n => .number (digits n)
  | .negSucc n => .number ('-' :: digits (n + 1))

/-- A text, or null where there is none. -/
def ofText? : Option String → Json
  | some value => .string value
  | none => .null

mutual

/-- How deep arrays and objects are nested in a document. Both count, and so do empty ones. -/
def depth : Json → Nat
  | .array items => depthOfItems items + 1
  | .object members => depthOfMembers members + 1
  | _ => 0

/-- The greatest depth among the items of an array. -/
def depthOfItems : List Json → Nat
  | [] => 0
  | item :: items => max (depth item) (depthOfItems items)

/-- The greatest depth among the members of an object. -/
def depthOfMembers : List (String × Json) → Nat
  | [] => 0
  | (_, value) :: members => max (depth value) (depthOfMembers members)

end

end Json
end ProtoLink
