import ProtoLink.Decimal.Shortest
import ProtoLink.Json.Fault

/-! Numbers in JSON text: their literal, and the value that a literal has for a reader with 64-bit numbers. -/
namespace ProtoLink.Json

/-- A number literal by its parts. The exponent comes with its sign, `true` for a negative one. -/
structure Numeral where
  negative : Bool
  whole : List Char
  fraction : Option (List Char) := none
  exponent : Option (Bool × List Char) := none
deriving DecidableEq, Repr

namespace Numeral

/-- The exponent part of a literal, after its letter. `atEnd` is the cause if the text ends where a digit must be. -/
def scanExponent (atEnd : Cause) (s : List Char) :
    Except Fault ((Bool × List Char) × List Char) :=
  let (negative, s) := match s with
    | '+' :: r => (false, r)
    | '-' :: r => (true, r)
    | s => (false, s)
  match s with
  | [] => .error (.here atEnd [])
  | c :: r =>
    if c.isDigit then .ok ((negative, (c :: r).takeWhile Char.isDigit), (c :: r).dropWhile Char.isDigit)
    else .error (.next .badNumber (c :: r))

/-- The digits of a fraction, after the point. -/
def scanFraction (atEnd : Cause) (s : List Char) : Except Fault (List Char × List Char) :=
  match s with
  | [] => .error (.here atEnd [])
  | c :: r =>
    if c.isDigit then .ok ((c :: r).takeWhile Char.isDigit, (c :: r).dropWhile Char.isDigit)
    else .error (.next .badNumber (c :: r))

/-- The digits in front of the point. There is no leading zero before another digit. -/
def scanWhole (atEnd : Cause) (s : List Char) : Except Fault (List Char × List Char) :=
  match s with
  | [] => .error (.here atEnd [])
  | '0' :: c :: r => if c.isDigit then .error (.next .badNumber (c :: r)) else .ok (['0'], c :: r)
  | c :: r =>
    if c.isDigit then .ok ((c :: r).takeWhile Char.isDigit, (c :: r).dropWhile Char.isDigit)
    else .error (.next .badNumber (c :: r))

/-- A whole literal, after its sign. -/
def scan (atEnd : Cause) (negative : Bool) (s : List Char) :
    Except Fault (Numeral × List Char) := do
  let (whole, s) ← scanWhole atEnd s
  let (fraction, s) ← match s with
    | '.' :: r => do
      let (ds, r) ← scanFraction atEnd r
      pure (some ds, r)
    | s => pure (none, s)
  let (exponent, s) ← match s with
    | 'e' :: r => do
      let (e, r) ← scanExponent atEnd r
      pure (some e, r)
    | 'E' :: r => do
      let (e, r) ← scanExponent atEnd r
      pure (some e, r)
    | s => pure (none, s)
  pure (⟨negative, whole, fraction, exponent⟩, s)

/-- The value of a digit. -/
def digitValue (c : Char) : Nat := c.toNat - '0'.toNat

/-- Takes digits into a number as long as it stays below `2 ^ 64`. Gives the number and the digits that are left
over. -/
def absorb (n : Nat) : List Char → Nat × List Char
  | [] => (n, [])
  | d :: ds =>
    if n * 10 + digitValue d < 0x10000000000000000 then absorb (n * 10 + digitValue d) ds
    else (n, d :: ds)

/-- The digits after the one by which an exponent leaves the range of 32-bit integers, if it does. -/
def overflow? (n : Nat) : List Char → Option (List Char)
  | [] => none
  | d :: ds => if n * 10 + digitValue d < 0x80000000 then overflow? (n * 10 + digitValue d) ds else some ds

/-- The float nearest to `f · 10 ^ e` as one or more float operations give it; none if it is too large. -/
def scale : Nat → Float → Int → Option Float
  | 0, f, _ => some f
  | steps + 1, f, e =>
    if e.natAbs ≤ 308 then
      let power := Float.ofScientific 1 false e.natAbs
      if 0 ≤ e then if (f * power).isInf then none else some (f * power)
      else some (f / power)
    else if f == 0.0 then some f
    else if 0 ≤ e then none
    else scale steps (f / 1e308) (e + 308)

/-- Floats are written positionally from `10 ^ -5` up to below `10 ^ 16`, and else with an exponent. -/
def floatLayout : Decimal.Layout := ⟨-5, 15⟩

/-- The text of a float that is not negative. -/
def floatText (f : Float) : List Char :=
  if f == 0.0 then ['0', '.', '0'] else floatLayout.write (Decimal.shortest f.toBits.toNat)

/-- What a number literal is to a reader: an integer of 64 bits, or the text of the float that stands for it. -/
inductive Value where
  | integer (value : Int)
  | real (digits : List Char)
deriving DecidableEq, Repr

/-- A float value, or a fault in front of `rest` if it is too large. -/
def real (negative : Bool) (significand : Nat) (e : Int) (rest : List Char) : Except Fault Value :=
  match scale 4 significand.toUInt64.toFloat e with
  | some f => .ok (.real (if negative then '-' :: floatText f else floatText f))
  | none => .error (.here .numberTooLarge rest)

/-- The value of a literal in front of `rest`. Literals without fraction and exponent are integers if they fit into
64 bits and are not minus zero; all others are floats, of which only the digits that fit into 64 bits count. -/
def value (n : Numeral) (rest : List Char) : Except Fault Value :=
  let (significand, left) := absorb 0 n.whole
  if left = [] && n.fraction = none && n.exponent = none &&
      (!n.negative || (0 < significand && significand ≤ 0x8000000000000000)) then
    .ok (.integer (if n.negative then - (significand : Int) else significand))
  else
    let fraction := n.fraction.getD []
    let (significand, unused) := absorb significand fraction
    let e : Int := (left.length : Int) - (fraction.length - unused.length : Nat)
    match n.exponent with
    | none => real n.negative significand e rest
    | some (negative, ds) =>
      match overflow? 0 ds with
      | none =>
        let size := (absorb 0 ds).1
        real n.negative significand (if negative then e - size else e + size) rest
      | some after =>
        if significand ≠ 0 && !negative then .error (.here .numberTooLarge (after ++ rest))
        else .ok (.real (if n.negative then ['-', '0', '.', '0'] else ['0', '.', '0']))

end Numeral
end ProtoLink.Json
