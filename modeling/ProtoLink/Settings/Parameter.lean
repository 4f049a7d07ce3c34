import ProtoLink.Diagnostic.Log
import ProtoLink.Settings
import ProtoLink.Text.Split

/-! The parameter in which settings are handed over: entries between commas, each a key or `key=value`. An entry
that cannot be applied is skipped and found amiss. -/
namespace ProtoLink.Parameter

open Diagnostic (Finding)

/-- One entry of a parameter and the byte offset where it starts. -/
structure Entry where
  start : Nat
  text : List Char
deriving DecidableEq, Repr

namespace Entry

/-- What stands between the equals signs. -/
def parts (e : Entry) : List (List Char) := Text.split '=' e.text

def key (e : Entry) : List Char := e.parts.headD []

/-- The text between the first equals sign and the next; none without an equals sign. -/
def value? (e : Entry) : Option (List Char) := e.parts[1]?

def span (e : Entry) : Text.Span := ⟨e.start, e.start + Text.byteLength e.text⟩

def keySpan (e : Entry) : Text.Span := ⟨e.start, e.start + Text.byteLength e.key⟩

/-- A flag is on unless its value is `false`, so a bare key turns it on. -/
def flag (e : Entry) : Bool := e.value? ≠ some "false".toList

def unknown (e : Entry) : Finding where
  kind := .unknownOption
  detail? := some (.ofList e.key)
  span? := some e.keySpan

def malformed (e : Entry) : Finding where
  kind := .malformedOption
  detail? := some (.ofList e.key)
  span? := some e.span

def invalid (e : Entry) (value : List Char) : Finding where
  kind := .invalidOptionValue
  detail? := some (.ofList (e.key ++ '=' :: value))
  span? := some e.span

/-- The choice that an entry makes, or what is amiss with it. -/
def read (e : Entry) : Except Finding Setting :=
  if e.key = "unary_rpc_promise".toList then .ok (.unaryRpcPromise e.flag)
  else if e.key = "no_namespace".toList then .ok (.noNamespace e.flag)
  else if e.key = "grpc_package".toList then
    match e.value? with
    | some value => .ok (.grpcPackage (.ofList value))
    | none => .error e.malformed
  else if e.key = "style".toList then
    match e.value? with
    | some value =>
      match Style.ofName? (.ofList value) with
      | some style => .ok (.style style)
      | none => .error (e.invalid value)
    | none => .error e.malformed
  else .error e.unknown

end Entry

/-- The pieces of a text as entries, the first of which starts at a given offset. A comma lies behind each. -/
def place : Nat → List (List Char) → List Entry
  | _, [] => []
  | start, piece :: pieces => ⟨start, piece⟩ :: place (start + Text.byteLength piece + 1) pieces

/-- The entries of a parameter. Empty ones do not count. -/
def entries (text : List Char) : List Entry :=
  (place 0 (Text.split ',' text)).filter fun e => e.text ≠ []

/-- Applies one entry, or notes what is amiss with it. -/
def step (state : Settings × List Finding) (e : Entry) : Settings × List Finding :=
  match e.read with
  | .ok setting => (state.1.choose setting, state.2)
  | .error finding => (state.1, state.2 ++ [finding])

/-- The settings that a parameter chooses, and what is amiss with its entries, in order. -/
def read (text : String) : Settings × List Finding :=
  (entries text.toList).foldl step ({}, [])

/-- Reads a parameter, skipping what cannot be applied. -/
def parse (text : String) : Settings × Log :=
  let (settings, findings) := read text
  (settings, ({} : Log).reportAll findings)

/-- A parameter that was refused, with all that is amiss. -/
structure Rejection where
  log : Log
deriving DecidableEq, Repr

def Rejection.message (r : Rejection) : String :=
  "generator parameter rejected with " ++ toString r.log.errorCount ++ " errors"

/-- Reads a parameter, refusing it if anything would have to be skipped. -/
def parseStrict (text : String) : Except Rejection Settings :=
  let (settings, findings) := read text
  if findings.isEmpty then .ok settings
  else .error ⟨({ strict := true } : Log).reportAll findings⟩

example : parse "style=async,,no_namespace=false=x" = ({ noNamespace := false }, {}) := by decide

example : (read "a,style=b").2.map (fun f => (f.kind, f.span?)) =
    [(.unknownOption, some ⟨0, 1⟩), (.invalidOptionValue, some ⟨2, 9⟩)] := by decide

end ProtoLink.Parameter
