/-! The shortest decimal of a binary floating-point number: the fewest digits that read back as that number. -/
namespace ProtoLink.Decimal

/-- A decimal `d₀.d₁d₂… · 10 ^ exponent` by its digits. -/
structure Scientific where
  digits : List Char
  exponent : Int
deriving DecidableEq, Repr, Inhabited

/-- The exponent `e` with `10 ^ e ≤ num / den < 10 ^ (e + 1)`, for positive `num` and `den`. -/
def magnitude (num den : Nat) : Int :=
  if den ≤ num then ((Nat.toDigits 10 (num / den)).length : Int) - 1
  else - ((Nat.toDigits 10 ((den + num - 1) / num - 1)).length : Int)

/-- The fraction `num / den` in units of `10 ^ p`, as numerator and denominator. -/
def inUnits (num den : Nat) (p : Int) : Nat × Nat :=
  if 0 ≤ p then (num, den * Nat.pow 10 p.toNat) else (num * Nat.pow 10 (-p).toNat, den)

/-- A number with the neighbourhood that rounds to it, all over one denominator. The ends of the neighbourhood
belong to it if `closed`. -/
structure Neighbourhood where
  low : Nat
  value : Nat
  high : Nat
  den : Nat
  closed : Bool

/-- The neighbourhood of the finite positive number with these bits. -/
def Neighbourhood.ofBits (bits : Nat) : Neighbourhood :=
  let biased := bits >>> 52 % 0x800
  let fraction := bits % 0x10000000000000
  let mantissa := if biased = 0 then fraction else 0x10000000000000 + fraction
  -- the last bit of the mantissa counts `2 ^ (shift + 2) / 2 ^ 1076`
  let shift := if biased = 0 then 0 else biased - 1
  let below := if fraction = 0 && 1 < biased then 1 else 2
  { low := (4 * mantissa - below) <<< shift
    value := (4 * mantissa) <<< shift
    high := (4 * mantissa + 2) <<< shift
    den := 1 <<< 1076
    closed := mantissa % 2 = 0 }

/-- Whether `d · 10 ^ p` lies in the neighbourhood. -/
def Neighbourhood.contains (n : Neighbourhood) (d : Nat) (p : Int) : Bool :=
  let (low, lowDen) := inUnits n.low n.den p
  let (high, highDen) := inUnits n.high n.den p
  if n.closed then low ≤ d * lowDen && d * highDen ≤ high
  else low < d * lowDen && d * highDen < high

/-- The neighbour of the value on the grid of `10 ^ p` that reads back. If both do, it is the nearer one, and the
even one where the value is half-way. -/
def Neighbourhood.onGrid? (n : Neighbourhood) (p : Int) : Option Nat :=
  let (num, den) := inUnits n.value n.den p
  let d := num / den
  match n.contains d p, n.contains (d + 1) p with
  | false, false => none
  | true, false => some d
  | false, true => some (d + 1)
  | true, true =>
    let rest := 2 * (num % den)
    if rest < den || (rest = den && d % 2 = 0) then some d else some (d + 1)

/-- The first hit when the grid is made finer step by step, beginning with the leading digit alone. -/
def Neighbourhood.search (n : Neighbourhood) : (steps : Nat) → (p : Int) → Nat × Int
  | 0, p => (n.value * Nat.pow 10 (-p).toNat / n.den, p)
  | steps + 1, p =>
    match n.onGrid? p with
    | some d => (d, p)
    | none => search n steps (p - 1)

/-- Digits without the zeros at their end. -/
def stripZeros (ds : List Char) : List Char := (ds.reverse.dropWhile (· = '0')).reverse

/-- The shortest decimal of the finite positive number with these bits. -/
def shortest (bits : Nat) : Scientific :=
  let n := Neighbourhood.ofBits bits
  let (d, p) := n.search 17 (magnitude n.value n.den)
  let ds := Nat.toDigits 10 d
  ⟨stripZeros ds, p + ds.length - 1⟩

/-- How a number is laid out: in positional notation from the lowest to the highest of these exponents. -/
structure Layout where
  lowest : Int
  highest : Int

/-- Zeros. -/
def zeros (n : Int) : List Char := List.replicate n.toNat '0'

/-- A decimal in positional notation, always with a point and a digit behind it. -/
def positional (s : Scientific) : List Char :=
  let before := s.exponent + 1
  if before ≤ 0 then '0' :: '.' :: zeros (-before) ++ s.digits
  else if (s.digits.length : Int) ≤ before then
    s.digits ++ zeros (before - s.digits.length) ++ ['.', '0']
  else s.digits.take before.toNat ++ '.' :: s.digits.drop before.toNat

/-- A decimal with an exponent, whose sign is always written. -/
def exponential (s : Scientific) : List Char :=
  let lead := match s.digits with
    | d :: e :: ds => d :: '.' :: e :: ds
    | ds => ds
  lead ++ 'e' :: (if s.exponent < 0 then '-' else '+') :: Nat.toDigits 10 s.exponent.natAbs

/-- The text of a decimal. -/
def Layout.write (l : Layout) (s : Scientific) : List Char :=
  if l.lowest ≤ s.exponent && s.exponent ≤ l.highest then positional s
  else exponential s

example : shortest 0x3FF0000000000000 = ⟨['1'], 0⟩ := by decide +kernel
example : shortest 0x3FB999999999999A = ⟨['1'], -1⟩ := by decide +kernel
/-- A value half-way between two decimals, `2000000000000003.25` and `1499879246693403.75`, takes the even digit. -/
example : shortest 0x431C6BF52634000D = ⟨"20000000000000032".toList, 15⟩ ∧
    shortest 0x4315508766D2106F = ⟨"14998792466934038".toList, 15⟩ := by decide +kernel
example : shortest 1 = ⟨['5'], -324⟩ := by decide +kernel
example : shortest 0x43F0000000000000 = ⟨"18446744073709552".toList, 19⟩ := by decide +kernel

end ProtoLink.Decimal
