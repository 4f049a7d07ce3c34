import ProtoLink.Json.Number

/-! Reading the leaves of JSON text, and passing over whole values. Readers give back what follows. For those
that are bounded by `steps`, twice the number of characters and one more is enough. -/
namespace ProtoLink.Json

/-- The blanks between the tokens of a document. -/
def isBlank (c : Char) : Bool := c = ' ' || c = '\n' || c = '\t' || c = '\r'

def skipBlanks (s : List Char) : List Char := s.dropWhile isBlank

/-- Reads the remaining letters of a word. -/
def scanWord : (letters : List Char) → (s : List Char) → Except Fault (List Char)
  | [], s => .ok s
  | _ :: _, [] => .error (.here (.truncated .value) [])
  | w :: ws, c :: s => if c = w then scanWord ws s else .error (.next .expectedWord (c :: s))

/-- The value of a hexadecimal digit of either case. -/
def hexValue? (c : Char) : Option Nat :=
  if '0' ≤ c ∧ c ≤ '9' then some (c.toNat - '0'.toNat)
  else if 'a' ≤ c ∧ c ≤ 'f' then some (c.toNat - 'a'.toNat + 10)
  else if 'A' ≤ c ∧ c ≤ 'F' then some (c.toNat - 'A'.toNat + 10)
  else none

/-- The value of the next four bytes as hexadecimal digits. -/
def scanHex (s : List Char) : Except Fault (Nat × List Char) :=
  match s with
  | a :: b :: c :: d :: r =>
    match hexValue? a, hexValue? b, hexValue? c, hexValue? d with
    | some a, some b, some c, some d => .ok (((a * 16 + b) * 16 + c) * 16 + d, r)
    | _, _, _, _ => .error ⟨.badEscape, Text.byteLength s - 4⟩
  | s =>
    if Text.byteLength s < 4 then .error (.here (.truncated .string) [])
    else .error ⟨.badEscape, Text.byteLength s - 4⟩

/-- The character of a code unit escape, after the letter. Surrogates have to come in pairs. -/
def scanUnit (s : List Char) : Except Fault (Char × List Char) := do
  let (n, s) ← scanHex s
  if 0xDC00 ≤ n ∧ n ≤ 0xDFFF then .error (.here .loneSurrogate s)
  else if 0xD800 ≤ n ∧ n ≤ 0xDBFF then
    match s with
    | [] => .error (.here (.truncated .string) [])
    | '\\' :: [] => .error (.here (.truncated .string) [])
    | '\\' :: 'u' :: r => do
      let (m, r) ← scanHex r
      if 0xDC00 ≤ m ∧ m ≤ 0xDFFF then
        .ok (Char.ofNat (0x10000 + (n - 0xD800) * 0x400 + (m - 0xDC00)), r)
      else .error (.here .loneSurrogate r)
    | '\\' :: c :: r => .error (.next .missingSurrogate (c :: r))
    | c :: r => .error (.next .missingSurrogate (c :: r))
  else .ok (Char.ofNat n, s)

/-- The character of an escape, after the backslash. -/
def scanEscape (s : List Char) : Except Fault (Char × List Char) :=
  match s with
  | [] => .error (.here (.truncated .string) [])
  | '"' :: r => .ok ('"', r)
  | '\\' :: r => .ok ('\\', r)
  | '/' :: r => .ok ('/', r)
  | 'b' :: r => .ok ('\x08', r)
  | 'f' :: r => .ok ('\x0c', r)
  | 'n' :: r => .ok ('\n', r)
  | 'r' :: r => .ok ('\r', r)
  | 't' :: r => .ok ('\t', r)
  | 'u' :: r => scanUnit r
  | c :: r => .error (.next .badEscape (c :: r))

/-- The next character of a string, or none at its closing quote. -/
def scanChar (s : List Char) : Except Fault (Option Char × List Char) :=
  match s with
  | [] => .error (.here (.truncated .string) [])
  | '"' :: r => .ok (none, r)
  | '\\' :: r => do
    let (c, r) ← scanEscape r
    pure (some c, r)
  | c :: r => if c.toNat < 0x20 then .error (.next .controlCharacter (c :: r)) else .ok (some c, r)

/-- A string, after its opening quote. -/
def scanString : (steps : Nat) → (s : List Char) → Except Fault (List Char × List Char)
  | 0, s => .error (.here (.truncated .string) s)
  | steps + 1, s => do
    match ← scanChar s with
    | (none, r) => pure ([], r)
    | (some c, r) =>
      let (cs, r) ← scanString steps r
      pure (c :: cs, r)

/-- Passes over an escape, after the backslash. Code units need not make up characters. -/
def skipEscape (s : List Char) : Except Fault (List Char) :=
  match s with
  | [] => .error (.here (.truncated .string) [])
  | 'u' :: r => do
    let (_, r) ← scanHex r
    pure r
  | c :: r =>
    if c ∈ ['"', '\\', '/', 'b', 'f', 'n', 'r', 't'] then .ok r else .error (.next .badEscape (c :: r))

/-- Passes over a string, after its opening quote. -/
def skipString : (steps : Nat) → (s : List Char) → Except Fault (List Char)
  | 0, s => .error (.here (.truncated .string) s)
  | steps + 1, s =>
    match s with
    | [] => .error (.here (.truncated .string) [])
    | '"' :: r => .ok r
    | '\\' :: r => do skipString steps (← skipEscape r)
    | c :: r => if c.toNat < 0x20 then .error (.here .controlCharacter (c :: r)) else skipString steps r

/-- Passes over a number, after its sign. -/
def skipNumber (s : List Char) : Except Fault (List Char) := do
  let (_, r) ← Numeral.scan .badNumber false s
  pure r

/-- Reads a number, after its sign. -/
def scanNumber (negative : Bool) (s : List Char) : Except Fault (Numeral.Value × List Char) := do
  let (n, r) ← Numeral.scan (.truncated .value) negative s
  let value ← n.value r
  pure (value, r)

/-- Reads the colon behind the name of a member. -/
def scanColon (s : List Char) : Except Fault (List Char) :=
  match skipBlanks s with
  | [] => .error (.here (.truncated .object) [])
  | ':' :: r => .ok r
  | c :: r => .error (.next .expectedColon (c :: r))

mutual

/-- Passes over a value of any shape and any depth. -/
def skipValue : (steps : Nat) → (s : List Char) → Except Fault (List Char)
  | 0, s => .error (.here (.truncated .value) s)
  | steps + 1, s =>
    match skipBlanks s with
    | [] => .error (.here (.truncated .value) [])
    | 'n' :: r => scanWord ['u', 'l', 'l'] r
    | 't' :: r => scanWord ['r', 'u', 'e'] r
    | 'f' :: r => scanWord ['a', 'l', 's', 'e'] r
    | '"' :: r => skipString steps r
    | '-' :: r => skipNumber r
    | '[' :: r =>
      match skipBlanks r with
      | [] => .error (.here (.truncated .list) [])
      | ']' :: r => .ok r
      | r => skipItems steps r
    | '{' :: r =>
      match skipBlanks r with
      | [] => .error (.here (.truncated .object) [])
      | '}' :: r => .ok r
      | r => skipMembers steps r
    | c :: r => if c.isDigit then skipNumber (c :: r) else .error (.next .expectedValue (c :: r))

/-- Passes over the items of a list up to its end. There is one at least. -/
def skipItems : (steps : Nat) → (s : List Char) → Except Fault (List Char)
  | 0, s => .error (.here (.truncated .value) s)
  | steps + 1, s => do
    let r ← skipValue steps s
    match skipBlanks r with
    | [] => .error (.here (.truncated .list) [])
    | ',' :: r => skipItems steps r
    | ']' :: r => .ok r
    | c :: r => .error (.next .expectedListSeparator (c :: r))

/-- Passes over the members of an object up to its end. There is one at least. -/
def skipMembers : (steps : Nat) → (s : List Char) → Except Fault (List Char)
  | 0, s => .error (.here (.truncated .value) s)
  | steps + 1, s =>
    match skipBlanks s with
    | [] => .error (.here (.truncated .object) [])
    | '"' :: r => do
      let r ← skipString steps r
      let r ← scanColon r
      let r ← skipValue steps r
      match skipBlanks r with
      | [] => .error (.here (.truncated .object) [])
      | ',' :: r => skipMembers steps r
      | '}' :: r => .ok r
      | c :: r => .error (.next .expectedObjectSeparator (c :: r))
    | c :: r => .error (.next .expectedKey (c :: r))

end

/-- The fault of a value that is not of the wanted shape: what stands there instead, once it has been read. -/
def mismatch (steps : Nat) (wanted : Wanted) (s : List Char) : Fault :=
  let found (what : Found) (r : List Char) : Fault := .here (.mismatch what wanted) r
  let after (read : Except Fault (List Char)) (what : Found) : Fault :=
    match read with
    | .ok r => found what r
    | .error fault => fault
  let number (read : Except Fault (Numeral.Value × List Char)) : Fault :=
    match read with
    | .ok (.integer value, r) => found (.integer value) r
    | .ok (.real digits, r) => found (.real digits) r
    | .error fault => fault
  match s with
  | 'n' :: r => after (scanWord ['u', 'l', 'l'] r) .null
  | 't' :: r => after (scanWord ['r', 'u', 'e'] r) (.flag true)
  | 'f' :: r => after (scanWord ['a', 'l', 's', 'e'] r) (.flag false)
  | '-' :: r => number (scanNumber true r)
  | '"' :: r =>
    match scanString steps r with
    | .ok (value, r) => found (.text value) r
    | .error fault => fault
  | '[' :: _ => found .list s
  | '{' :: _ => found .object s
  | [] => .here (.truncated .value) []
  | c :: r => if c.isDigit then number (scanNumber false (c :: r)) else .next .expectedValue (c :: r)

end ProtoLink.Json
