import ProtoLink.Datum
import ProtoLink.Json.Scanner

/-! Reading a value of a given shape from JSON text in one pass, up to the first fault. All loops of a pass are
bounded by the same number of `steps`, which comes from the length of the whole text. -/
namespace ProtoLink.Datum

open Json (Fault skipBlanks)

/-- A reader gives the value that a text begins with and what follows. -/
abbrev Reader (α : Type) := List Char → Except Fault (α × List Char)

/-- Text between quotes. -/
def readText (steps : Nat) : Reader Datum := fun s =>
  match skipBlanks s with
  | '"' :: r => do
    let (cs, r) ← Json.scanString steps r
    pure (.text (.ofList cs), r)
  | s => .error (Json.mismatch steps .text s)

def readFlag (steps : Nat) : Reader Datum := fun s =>
  match skipBlanks s with
  | 't' :: r => do
    let r ← Json.scanWord ['r', 'u', 'e'] r
    pure (.flag true, r)
  | 'f' :: r => do
    let r ← Json.scanWord ['a', 'l', 's', 'e'] r
    pure (.flag false, r)
  | s => .error (Json.mismatch steps .flag s)

/-- An integer in the range of 32 bits. -/
def int32Of (value : Json.Numeral.Value) (rest : List Char) : Except Fault Datum :=
  match value with
  | .integer n =>
    if -0x80000000 ≤ n ∧ n < 0x80000000 then .ok (.int n) else .error (.here (.outOfRange n .int32) rest)
  | .real digits => .error (.here (.mismatch (.real digits) .int32) rest)

def readInt32 (steps : Nat) : Reader Datum := fun s =>
  match skipBlanks s with
  | '-' :: r => do
    let (value, r) ← Json.scanNumber true r
    let d ← int32Of value r
    pure (d, r)
  | [] => .error (Json.mismatch steps .int32 [])
  | c :: r =>
    if c.isDigit then do
      let (value, r) ← Json.scanNumber false (c :: r)
      let d ← int32Of value r
      pure (d, r)
    else .error (Json.mismatch steps .int32 (c :: r))

/-- The items of a list after its bracket, or after an item if not `first`, up to and with the end of the list. -/
def readItems (item : Reader Datum) : (steps : Nat) → (first : Bool) → Reader (List Datum)
  | 0, _, s => .error (.here (.truncated .list) s)
  | steps + 1, first, s => do
    let more (s : List Char) : Except Fault (List Datum × List Char) := do
      let (d, r) ← item s
      let (ds, r) ← readItems item steps false r
      pure (d :: ds, r)
    match skipBlanks s, first with
    | [], _ => .error (.here (.truncated .list) [])
    | ']' :: r, _ => pure ([], r)
    | s, true => more s
    | ',' :: r, false =>
      match skipBlanks r with
      | [] => .error (.here (.truncated .value) [])
      | ']' :: r => .error (.next .trailingComma (']' :: r))
      | r => more r
    | s, false => .error (.next .expectedListSeparator s)

/-- A member's value. An optional one may be null. -/
def readMember (read : Shape → Reader Datum) (m : Member) : Reader Datum := fun s =>
  match m.presence, skipBlanks s with
  | .optional, 'n' :: r => do
    let r ← Json.scanWord ['u', 'l', 'l'] r
    pure (.absent, r)
  | _, s => read m.shape s

/-- The end of a record that is written as a list, once all of its members have been seen to. -/
def readListEnd (s : List Char) : Except Fault (List Char) :=
  match skipBlanks s with
  | [] => .error (.here (.truncated .list) [])
  | ']' :: r => .ok r
  | ',' :: r =>
    match skipBlanks r with
    | ']' :: r => .error (.next .trailingComma (']' :: r))
    | r => .error (.next .trailingCharacters r)
  | c :: r => .error (.next .trailingCharacters (c :: r))

/-- The values of the members of a record that is written as a list. Members behind the end of the list have their
fallbacks. `count` of them have been seen to. -/
def readSlots (read : Shape → Reader Datum) (kind : RecordKind) :
    (count : Nat) → List Member → Reader (List Datum)
  | _, [], s => do
    let r ← readListEnd s
    pure ([], r)
  | count, m :: ms, s => do
    let more (s : List Char) : Except Fault (List Datum × List Char) := do
      let (d, r) ← readMember read m s
      let (ds, r) ← readSlots read kind (count + 1) ms r
      pure (d :: ds, r)
    match skipBlanks s with
    | [] => .error (.here (.truncated .list) [])
    | ']' :: r =>
      match m.fallback? with
      | none => .error (.here (.tooFewItems count kind.title kind.members.length) r)
      | some d =>
        let (ds, r) ← readSlots read kind (count + 1) ms (']' :: r)
        pure (d :: ds, r)
    | s =>
      if count = 0 then more s
      else match s with
        | ',' :: r =>
          match skipBlanks r with
          | [] => .error (.here (.truncated .value) [])
          | ']' :: r => .error (.next .trailingComma (']' :: r))
          | r => more r
        | s => .error (.next .expectedListSeparator s)

/-- The value that was given for a member. -/
def given? (name : String) : List (String × Datum) → Option Datum
  | [] => none
  | (n, d) :: rest => if n = name then some d else given? name rest

/-- The slots of a record from the members that were given. `rest` is what follows the record. -/
def assemble (given : List (String × Datum)) (rest : List Char) :
    List Member → Except Fault (List Datum)
  | [] => .ok []
  | m :: ms =>
    match given? m.name given, m.fallback? with
    | some d, _ => do
      let ds ← assemble given rest ms
      pure (d :: ds)
    | none, some d => do
      let ds ← assemble given rest ms
      pure (d :: ds)
    | none, none => .error (.here (.missingMember m.name) rest)

/-- What follows the end of an object, if the object ends here. -/
def afterObject (s : List Char) : List Char :=
  match skipBlanks s with
  | '}' :: r => r
  | s => s

/-- The name of the next member of an object, or none at its end. -/
def readKey (steps : Nat) (first : Bool) : Reader (Option String) := fun s =>
  let key (r : List Char) : Except Fault (Option String × List Char) := do
    let (cs, r) ← Json.scanString steps r
    pure (some (.ofList cs), r)
  match skipBlanks s, first with
  | [], _ => .error (.here (.truncated .object) [])
  | '}' :: r, _ => .ok (none, r)
  | '"' :: r, true => key r
  | s, true => .error (.next .expectedKey s)
  | ',' :: r, false =>
    match skipBlanks r with
    | [] => .error (.here (.truncated .value) [])
    | '"' :: r => key r
    | '}' :: r => .error (.next .trailingComma ('}' :: r))
    | r => .error (.next .expectedKey r)
  | s, false => .error (.next .expectedObjectSeparator s)

/-- The members of an object up to and with its end. Members that the record does not have are passed over. -/
def readMembers (read : Shape → Reader Datum) (kind : RecordKind) :
    (steps : Nat) → (given : List (String × Datum)) → (first : Bool) → Reader (List Datum)
  | 0, _, _, s => .error (.here (.truncated .object) s)
  | steps + 1, given, first, s => do
    match ← readKey steps first s with
    | (none, r) =>
      let ds ← assemble given r kind.members
      pure (ds, r)
    | (some key, r) =>
      match kind.member? key with
      | none =>
        let r ← Json.scanColon r
        let r ← Json.skipValue steps r
        readMembers read kind steps given false r
      | some m =>
        if (given? m.name given).isSome then
          .error (.here (.repeatedMember m.name) (afterObject r))
        else
          let r ← Json.scanColon r
          let (d, r) ← readMember read m r
          readMembers read kind steps (given ++ [(m.name, d)]) false r

/-- Reads a value. A record is written as an object, or as a list of its members in order. No more than `levels`
lists and objects are opened inside of each other. -/
def read (steps : Nat) : (levels : Nat) → Shape → Reader Datum
  | _, .text => readText steps
  | _, .flag => readFlag steps
  | _, .int32 => readInt32 steps
  | 0, .list _ => fun s =>
    match skipBlanks s with
    | '[' :: r => .error (.next .tooDeep ('[' :: r))
    | s => .error (Json.mismatch steps .list s)
  | levels + 1, .list item => fun s =>
    match skipBlanks s with
    | '[' :: r => do
      let (ds, r) ← readItems (read steps levels item) steps true r
      pure (.list ds, r)
    | s => .error (Json.mismatch steps .list s)
  | 0, .record kind => fun s =>
    match skipBlanks s with
    | '[' :: r => .error (.next .tooDeep ('[' :: r))
    | '{' :: r => .error (.next .tooDeep ('{' :: r))
    | s => .error (Json.mismatch steps (.record kind.title) s)
  | levels + 1, .record kind => fun s =>
    match skipBlanks s with
    | '[' :: r => do
      let (ds, r) ← readSlots (read steps levels) kind 0 kind.members r
      pure (.record ds, r)
    | '{' :: r => do
      let (ds, r) ← readMembers (read steps levels) kind steps [] true r
      pure (.record ds, r)
    | s => .error (Json.mismatch steps (.record kind.title) s)

/-- The greatest depth to which lists and objects may be nested. -/
def maxDepth : Nat := 127

/-- Reads a whole text as a value of a shape. Nothing but blanks may follow. -/
def ofText (shape : Shape) (text : List Char) : Except Json.Refusal Datum :=
  match read (2 * text.length + 1) maxDepth shape text with
  | .error fault => .error (fault.inText text)
  | .ok (d, r) =>
    match skipBlanks r with
    | [] => .ok d
    | r => .error ((Fault.next .trailingCharacters r).inText text)

end ProtoLink.Datum
