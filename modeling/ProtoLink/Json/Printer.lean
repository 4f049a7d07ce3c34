import ProtoLink.Json.Value

/-! Writing JSON: the compact form without any blanks, and the indented form. -/
namespace ProtoLink.Json

/-- The digit for a value below sixteen, in lower case. -/
def hexDigit (n : Nat) : Char := Nat.digitChar n

/-- A character as it stands between quotes. The quote, the backslash and the control characters are escaped, those
with a short form in that form; all else stands for itself. -/
def escape (c : Char) : List Char :=
  if c = '"' then ['\\', '"']
  else if c = '\\' then ['\\', '\\']
  else if c = '\x08' then ['\\', 'b']
  else if c = '\x0c' then ['\\', 'f']
  else if c = '\n' then ['\\', 'n']
  else if c = '\r' then ['\\', 'r']
  else if c = '\t' then ['\\', 't']
  else if c.toNat < 0x20 then ['\\', 'u', '0', '0', hexDigit (c.toNat / 16), hexDigit (c.toNat % 16)]
  else [c]

/-- A text between quotes. -/
def quote (text : String) : List Char := '"' :: text.toList.flatMap escape ++ ['"']

mutual

/-- The document without blanks. -/
def compact : Json → List Char
  | .null => ['n', 'u', 'l', 'l']
  | .bool true => ['t', 'r', 'u', 'e']
  | .bool false => ['f', 'a', 'l', 's', 'e']
  | .number literal => literal
  | .string value => quote value
  | .array [] => ['[', ']']
  | .array (item :: items) => '[' :: compact item ++ compactItems items
  | .object [] => ['{', '}']
  | .object ((name, value) :: members) =>
    '{' :: quote name ++ ':' :: compact value ++ compactMembers members

/-- The items of an array after the first, and its end. -/
def compactItems : List Json → List Char
  | [] => [']']
  | item :: items => ',' :: compact item ++ compactItems items

/-- The members of an object after the first, and its end. -/
def compactMembers : List (String × Json) → List Char
  | [] => ['}']
  | (name, value) :: members =>
    ',' :: quote name ++ ':' :: compact value ++ compactMembers members

end

/-- A new line, indented by two blanks for each level. -/
def newLine (level : Nat) : List Char := '\n' :: List.replicate (2 * level) ' '

mutual

/-- The document with each item and member on a line of its own, two blanks deeper than its container. -/
def indented (level : Nat) : Json → List Char
  | .null => ['n', 'u', 'l', 'l']
  | .bool true => ['t', 'r', 'u', 'e']
  | .bool false => ['f', 'a', 'l', 's', 'e']
  | .number literal => literal
  | .string value => quote value
  | .array [] => ['[', ']']
  | .array (item :: items) =>
    '[' :: newLine (level + 1) ++ indented (level + 1) item ++ indentedItems level items
  | .object [] => ['{', '}']
  | .object ((name, value) :: members) =>
    '{' :: newLine (level + 1) ++ quote name ++ ':' :: ' ' :: indented (level + 1) value ++
      indentedMembers level members

/-- The items of an indented array after the first, and its end. -/
def indentedItems (level : Nat) : List Json → List Char
  | [] => newLine level ++ [']']
  | item :: items =>
    ',' :: newLine (level + 1) ++ indented (level + 1) item ++ indentedItems level items

/-- The members of an indented object after the first, and its end. -/
def indentedMembers (level : Nat) : List (String × Json) → List Char
  | [] => newLine level ++ ['}']
  | (name, value) :: members =>
    ',' :: newLine (level + 1) ++ quote name ++ ':' :: ' ' :: indented (level + 1) value ++
      indentedMembers level members

end

/-- The compact text of a document. -/
def toCompact (j : Json) : String := .ofList (compact j)

/-- The indented text of a document. -/
def toIndented (j : Json) : String := .ofList (indented 0 j)

example : (Json.object [("a", .array [ofInt (-12), .null]), ("b", .object [])]).toCompact =
    "\x7b\"a\":[-12,null],\"b\":\x7b\x7d\x7d" := by decide

end ProtoLink.Json
