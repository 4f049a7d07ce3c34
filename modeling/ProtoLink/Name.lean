import ProtoLink.Text.Split

/-! Dotted names of types: how a declaration's name is built from its scope, and how it is cut down again. -/
namespace ProtoLink.Name

/-- A name without its leading dot. Only one dot is taken off. -/
def unrooted : List Char → List Char
  | '.' :: cs => cs
  | cs => cs

/-- The text with every two dots in a row made one, reading from the left without overlap. -/
def halveDots : List Char → List Char
  | '.' :: '.' :: cs => '.' :: halveDots cs
  | c :: cs => c :: halveDots cs
  | [] => []

/-- The name that `name` gets when it is declared inside `scope`. -/
def within (scope name : List Char) : List Char :=
  unrooted (halveDots (scope ++ '.' :: name))

/-- What follows `front` at the start of a text, if it starts so. -/
def after? : List Char → List Char → Option (List Char)
  | [], cs => some cs
  | _ :: _, [] => none
  | x :: xs, c :: cs => if x = c then after? xs cs else none

/-- A name as it is spelled inside a package: without `package.` in front. The empty package takes nothing off. -/
def relativeTo (package name : List Char) : List Char :=
  if package = [] then name
  else match after? package name with
    | some ('.' :: rest) => rest
    | _ => name

/-- The text without the first occurrence of `part`, wherever that is. -/
def dropFirst (part : List Char) : List Char → List Char
  | [] => []
  | c :: cs =>
    match after? part (c :: cs) with
    | some rest => rest
    | none => c :: dropFirst part cs

/-- A name without the first listed package that it literally starts with and the dot behind it. If no dot
comes there, the first occurrence with a dot is taken out instead. An empty package takes nothing off. -/
def shortened (packages : List (List Char)) (name : List Char) : List Char :=
  match packages.find? fun package => (after? package name).isSome with
  | none => name
  | some [] => name
  | some package =>
    match after? (package ++ ['.']) name with
    | some rest => rest
    | none => dropFirst (package ++ ['.']) name

/-- The segments of a dotted name. -/
def segments (name : List Char) : List (List Char) := Text.split '.' name

theorem after?_eq_some_iff {front cs rest : List Char} :
    after? front cs = some rest ↔ cs = front ++ rest := by
  induction front generalizing cs with
  | nil => simp [after?]
  | cons x xs ih =>
    cases cs with
    | nil => simp [after?]
    | cons c cs =>
      by_cases h : x = c
      · simp [after?, h, ih]
      · simp [after?, h, Ne.symm h]

@[simp] theorem after?_append (front rest : List Char) : after? front (front ++ rest) = some rest :=
  after?_eq_some_iff.2 rfl

end ProtoLink.Name

namespace ProtoLink

/-- `Name.unrooted` on strings. -/
def unrooted (name : String) : String := .ofList (Name.unrooted name.toList)

/-- `Name.halveDots` on strings. -/
def halveDots (name : String) : String := .ofList (Name.halveDots name.toList)

/-- `Name.within` on strings. -/
def nameWithin (scope name : String) : String := .ofList (Name.within scope.toList name.toList)

/-- `Name.relativeTo` on strings. -/
def nameRelativeTo (package name : String) : String :=
  .ofList (Name.relativeTo package.toList name.toList)

/-- `Name.shortened` on strings. -/
def nameShortened (packages : List String) (name : String) : String :=
  .ofList (Name.shortened (packages.map String.toList) name.toList)

/-- `Name.segments` on strings. -/
def nameSegments (name : String) : List String := (Name.segments name.toList).map .ofList

end ProtoLink
