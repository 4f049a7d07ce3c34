import ProtoLink.Text.Ranges

/-! What characters look like: which are blank, how they are shown on a terminal, and how they are quoted. -/
namespace ProtoLink.Text

/-- The characters with the Unicode property White_Space. -/
def isBlank (c : Char) : Bool :=
  let n := c.toNat
  (9 ≤ n && n ≤ 13) || n == 0x20 || n == 0x85 || n == 0xA0 || n == 0x1680 ||
    (0x2000 ≤ n && n ≤ 0x200A) || n == 0x2028 || n == 0x2029 || n == 0x202F || n == 0x205F ||
    n == 0x3000

/-- A text without the blanks at both ends. -/
def trim (cs : List Char) : List Char :=
  ((cs.dropWhile isBlank).reverse.dropWhile isBlank).reverse

/-- What is shown in place of a character. A tab is four blanks, a control character its picture, and a character
that would turn the direction of the text a replacement mark; the joiner of emoji is left out. -/
def shown (c : Char) : List Char :=
  let n := c.toNat
  if c = '\t' then [' ', ' ', ' ', ' ']
  else if c = '\n' then [c]
  else if n < 0x20 then [Char.ofNat (0x2400 + n)]
  else if n = 0x7F then ['\u2421']
  else if n = 0x200D then []
  else if (0x202A ≤ n && n ≤ 0x202E) || (0x2066 ≤ n && n ≤ 0x2069) then ['\uFFFD']
  else [c]

/-- What is shown for a text. -/
def display (cs : List Char) : List Char := cs.flatMap shown

/-- The columns that a character takes. The Khmer sign for "and so on" takes three, as it is drawn as three letters. -/
def columns (c : Char) : Nat :=
  let n := c.toNat
  if c = '\t' then 4
  else if n < 0x80 then 1
  else if (0x202A ≤ n && n ≤ 0x202E) || (0x2066 ≤ n && n ≤ 0x2069) then 1
  else if n = 0x17D8 then 3
  else if Ranges.cover Ranges.zeroWidth n then 0
  else if Ranges.cover Ranges.wide n then 2
  else 1

/-- The columns that a text takes. -/
def width : List Char → Nat
  | [] => 0
  | c :: cs => columns c + width cs

/-- Whether a character shows as itself: it has a shape and does not merge with the character before it. -/
def isVisible (c : Char) : Bool :=
  let n := c.toNat
  if n < 0x80 then 0x20 ≤ n && n < 0x7F
  else !Ranges.cover Ranges.extending n && !Ranges.cover Ranges.unprintable n

/-- The hexadecimal digits of a code point, in lower case and without leading zeros. -/
def hexDigits (n : Nat) : List Char := Nat.toDigits 16 n

/-- A character of a quoted text. What does not show as itself is given by its code point. -/
def reveal (c : Char) : List Char :=
  if c = '\x00' then ['\\', '0']
  else if c = '\t' then ['\\', 't']
  else if c = '\r' then ['\\', 'r']
  else if c = '\n' then ['\\', 'n']
  else if c = '"' then ['\\', '"']
  else if c = '\\' then ['\\', '\\']
  else if isVisible c then [c]
  else '\\' :: 'u' :: '{' :: hexDigits c.toNat ++ ['}']

/-- The text between double quotes, with all that does not show as itself escaped. -/
def quoted (text : List Char) : List Char := '"' :: text.flatMap reveal ++ ['"']

example : quoted "pkg.a".toList = "\"pkg.a\"".toList := by decide

example : quoted ['a', '\n', '\u0301', '\x7f'] = "\"a\\n\\u\x7b301\x7d\\u\x7b7f\x7d\"".toList := by decide

end ProtoLink.Text
