import ProtoLink.Text.Bytes
import ProtoLink.Text.Character

/-! What can be wrong with a text that is read as JSON of a given shape, and where. -/
namespace ProtoLink.Json

/-- What the text breaks off inside of. -/
inductive Construct where
  | value
  | string
  | list
  | object
deriving DecidableEq, Repr

/-- What a reader asks for at some place. -/
inductive Wanted where
  | text
  | int32
  | flag
  | list
  | record (title : String)
deriving DecidableEq, Repr

/-- What stands at a place where something else is wanted. A fractional number is given by its text. -/
inductive Found where
  | null
  | flag (value : Bool)
  | integer (value : Int)
  | real (digits : List Char)
  | text (value : List Char)
  | list
  | object
deriving DecidableEq, Repr

/-- The reasons for which a text is refused. -/
inductive Cause where
  | truncated (inside : Construct)
  | expectedColon
  | expectedListSeparator
  | expectedObjectSeparator
  | expectedWord
  | expectedValue
  | expectedKey
  | badEscape
  | badNumber
  | numberTooLarge
  | controlCharacter
  | loneSurrogate
  | missingSurrogate
  | trailingComma
  | trailingCharacters
  | tooDeep
  | mismatch (found : Found) (wanted : Wanted)
  | outOfRange (value : Int) (wanted : Wanted)
  | tooFewItems (count : Nat) (title : String) (size : Nat)
  | missingMember (name : String)
  | repeatedMember (name : String)
deriving DecidableEq, Repr

/-- A cause with its place, given by the number of bytes that follow it. -/
structure Fault where
  cause : Cause
  unread : Nat
deriving DecidableEq, Repr

namespace Fault

/-- A fault in front of `rest`. -/
def here (cause : Cause) (rest : List Char) : Fault := ⟨cause, Text.byteLength rest⟩

/-- A fault that counts the first byte of `rest` as read, if there is one. -/
def next (cause : Cause) (rest : List Char) : Fault := ⟨cause, Text.byteLength rest - 1⟩

end Fault

def Construct.message : Construct → String
  | .value => "EOF while parsing a value"
  | .string => "EOF while parsing a string"
  | .list => "EOF while parsing a list"
  | .object => "EOF while parsing an object"

def Wanted.message : Wanted → String
  | .text => "a string"
  | .int32 => "i32"
  | .flag => "a boolean"
  | .list => "a sequence"
  | .record title => "struct " ++ title

def Found.message : Found → String
  | .null => "null"
  | .flag true => "boolean `true`"
  | .flag false => "boolean `false`"
  | .integer value => "integer `" ++ toString value ++ "`"
  | .real digits => "floating point `" ++ .ofList digits ++ "`"
  | .text value => "string " ++ .ofList (Text.quoted value)
  | .list => "sequence"
  | .object => "map"

def Cause.message : Cause → String
  | .truncated inside => inside.message
  | .expectedColon => "expected `:`"
  | .expectedListSeparator => "expected `,` or `]`"
  | .expectedObjectSeparator => "expected `,` or `\x7d`"
  | .expectedWord => "expected ident"
  | .expectedValue => "expected value"
  | .expectedKey => "key must be a string"
  | .badEscape => "invalid escape"
  | .badNumber => "invalid number"
  | .numberTooLarge => "number out of range"
  | .controlCharacter => "control character (\\u0000-\\u001F) found while parsing a string"
  | .loneSurrogate => "lone leading surrogate in hex escape"
  | .missingSurrogate => "unexpected end of hex escape"
  | .trailingComma => "trailing comma"
  | .trailingCharacters => "trailing characters"
  | .tooDeep => "recursion limit exceeded"
  | .mismatch found wanted => "invalid type: " ++ found.message ++ ", expected " ++ wanted.message
  | .outOfRange value wanted =>
    "invalid value: " ++ (Found.integer value).message ++ ", expected " ++ wanted.message
  | .tooFewItems count title size =>
    "invalid length " ++ toString count ++ ", expected " ++ (Wanted.record title).message ++
      " with " ++ toString size ++ (if size = 1 then " element" else " elements")
  | .missingMember name => "missing field `" ++ name ++ "`"
  | .repeatedMember name => "duplicate field `" ++ name ++ "`"

/-- A cause with the line and column of its place. -/
structure Refusal where
  cause : Cause
  place : Text.Location
deriving DecidableEq, Repr

/-- The fault as found in a text. -/
def Fault.inText (fault : Fault) (text : List Char) : Refusal :=
  ⟨fault.cause, .ofOffset text (Text.byteLength text - fault.unread)⟩

def Refusal.message (r : Refusal) : String :=
  r.cause.message ++ " at line " ++ toString r.place.line ++ " column " ++ toString r.place.column

end ProtoLink.Json
