import ProtoLink.Json.Printer
import ProtoLink.Json.Scanner

/-! The grammar of JSON text: documents by the literals that they are spelled with, and the texts that spell them.
Blanks may stand around every value, name and sign, and a list has no comma before its end. -/
namespace ProtoLink.Json

/-- A document as it is spelled. Numbers, strings and the names of members keep their literals. -/
inductive Tree where
  | null
  | bool (value : Bool)
  | number (literal : List Char)
  | string (literal : List Char)
  | array (items : List Tree)
  | object (members : List (List Char × Tree))
deriving Inhabited

/-! Numbers -/

/-- A run of digits, one at least. -/
def AreDigits (ds : List Char) : Prop := ds ≠ [] ∧ ∀ d ∈ ds, d.isDigit = true

/-- The digits in front of a point. No zero stands before another digit. -/
def AreWhole (ds : List Char) : Prop := AreDigits ds ∧ (ds.head? = some '0' → ds = ['0'])

inductive SpellsFraction : Option (List Char) → List Char → Prop
  | none : SpellsFraction none []
  | some {ds : List Char} (h : AreDigits ds) : SpellsFraction (some ds) ('.' :: ds)

inductive SpellsSign : Bool → List Char → Prop
  | none : SpellsSign false []
  | plus : SpellsSign false ['+']
  | minus : SpellsSign true ['-']

inductive SpellsExponent : Option (Bool × List Char) → List Char → Prop
  | none : SpellsExponent none []
  | some {negative : Bool} {e : Char} {sign ds : List Char} (he : e = 'e' ∨ e = 'E')
      (hsign : SpellsSign negative sign) (h : AreDigits ds) :
      SpellsExponent (some (negative, ds)) (e :: (sign ++ ds))

/-- A number after its sign. -/
inductive SpellsUnsigned : Numeral → List Char → Prop
  | mk {n : Numeral} {fraction exponent : List Char} (hw : AreWhole n.whole)
      (hf : SpellsFraction n.fraction fraction) (he : SpellsExponent n.exponent exponent) :
      SpellsUnsigned n (n.whole ++ (fraction ++ exponent))

/-- A number literal. Only a minus may stand in front of its digits. -/
def IsNumber (literal : List Char) : Prop :=
  ∃ (n : Numeral) (unsigned : List Char), SpellsUnsigned n unsigned ∧
    literal = if n.negative then '-' :: unsigned else unsigned

/-! Strings -/

/-- A character that stands for itself between quotes. -/
def IsPlain (c : Char) : Prop := c ≠ '"' ∧ c ≠ '\\' ∧ 0x20 ≤ c.toNat

/-- The letters behind a backslash and the characters that they stand for. -/
def escapes : List (Char × Char) :=
  [('"', '"'), ('\\', '\\'), ('/', '/'), ('b', '\x08'), ('f', '\x0c'), ('n', '\n'), ('r', '\r'), ('t', '\t')]

/-- Four hexadecimal digits and their value. -/
inductive SpellsUnit : List Char → Nat → Prop
  | mk {a b c d : Char} {i j k l : Nat} (ha : hexValue? a = some i) (hb : hexValue? b = some j)
      (hc : hexValue? c = some k) (hd : hexValue? d = some l) :
      SpellsUnit [a, b, c, d] (((i * 16 + j) * 16 + k) * 16 + l)

/-- A piece of a string that is well formed, whether it makes up a character or not. -/
inductive IsPiece : List Char → Prop
  | plain {c : Char} (h : IsPlain c) : IsPiece [c]
  | escape {e c : Char} (h : (e, c) ∈ escapes) : IsPiece ['\\', e]
  | unit {quad : List Char} {n : Nat} (h : SpellsUnit quad n) : IsPiece ('\\' :: 'u' :: quad)

/-- What stands between the quotes of a string. -/
inductive IsString : List Char → Prop
  | nil : IsString []
  | cons {piece literal : List Char} (hp : IsPiece piece) (h : IsString literal) : IsString (piece ++ literal)

/-- One character and the text that stands for it between quotes. Surrogates stand for one only in pairs. -/
inductive SpellsChar : List Char → Char → Prop
  | plain {c : Char} (h : IsPlain c) : SpellsChar [c] c
  | escape {e c : Char} (h : (e, c) ∈ escapes) : SpellsChar ['\\', e] c
  | unit {quad : List Char} {n : Nat} (h : SpellsUnit quad n) (hn : ¬ (0xD800 ≤ n ∧ n ≤ 0xDFFF)) :
      SpellsChar ('\\' :: 'u' :: quad) (Char.ofNat n)
  | pair {quad quad' : List Char} {n m : Nat} (h : SpellsUnit quad n) (hn : 0xD800 ≤ n ∧ n ≤ 0xDBFF)
      (h' : SpellsUnit quad' m) (hm : 0xDC00 ≤ m ∧ m ≤ 0xDFFF) :
      SpellsChar ('\\' :: 'u' :: (quad ++ '\\' :: 'u' :: quad'))
        (Char.ofNat (0x10000 + (n - 0xD800) * 0x400 + (m - 0xDC00)))

/-- What stands between the quotes of a string, and the text that it denotes. -/
inductive Denotes : List Char → List Char → Prop
  | nil : Denotes [] []
  | cons {piece literal text : List Char} {c : Char} (hc : SpellsChar piece c) (h : Denotes literal text) :
      Denotes (piece ++ literal) (c :: text)

/-! Documents -/

def AreBlank (s : List Char) : Prop := ∀ c ∈ s, isBlank c = true

/-- What stands in front of an item or a member: a comma, unless it is the first, and blanks. -/
inductive LeadsIn : Bool → List Char → Prop
  | first {b : List Char} (h : AreBlank b) : LeadsIn true b
  | later {b b' : List Char} (h : AreBlank b) (h' : AreBlank b') : LeadsIn false (b ++ ',' :: b')

mutual

/-- A document and the text of it, from its first character to its last. -/
inductive Spells : Tree → List Char → Prop
  | null : Spells .null ['n', 'u', 'l', 'l']
  | yes : Spells (.bool true) ['t', 'r', 'u', 'e']
  | no : Spells (.bool false) ['f', 'a', 'l', 's', 'e']
  | number {literal : List Char} (h : IsNumber literal) : Spells (.number literal) literal
  | string {literal : List Char} (h : IsString literal) : Spells (.string literal) ('"' :: (literal ++ ['"']))
  | array {items : List Tree} {text : List Char} (h : SpellsItems true items text) :
      Spells (.array items) ('[' :: text)
  | object {members : List (List Char × Tree)} {text : List Char} (h : SpellsMembers true members text) :
      Spells (.object members) ('\x7b' :: text)

/-- The items of an array up to and with its end. -/
inductive SpellsItems : Bool → List Tree → List Char → Prop
  | nil {first : Bool} {b : List Char} (h : AreBlank b) : SpellsItems first [] (b ++ [']'])
  | cons {first : Bool} {item : Tree} {items : List Tree} {lead text rest : List Char}
      (hlead : LeadsIn first lead) (h : Spells item text) (hs : SpellsItems false items rest) :
      SpellsItems first (item :: items) (lead ++ (text ++ rest))

/-- The members of an object up to and with its end. -/
inductive SpellsMembers : Bool → List (List Char × Tree) → List Char → Prop
  | nil {first : Bool} {b : List Char} (h : AreBlank b) : SpellsMembers first [] (b ++ ['\x7d'])
  | cons {first : Bool} {key : List Char} {value : Tree} {members : List (List Char × Tree)}
      {lead b b' text rest : List Char} (hlead : LeadsIn first lead) (hkey : IsString key) (hb : AreBlank b)
      (hb' : AreBlank b') (h : Spells value text) (hs : SpellsMembers false members rest) :
      SpellsMembers first ((key, value) :: members)
        (lead ++ '"' :: (key ++ '"' :: (b ++ ':' :: (b' ++ (text ++ rest)))))

end

/-- A whole text: a document with nothing but blanks around it. -/
def IsTextOf (text : List Char) (t : Tree) : Prop :=
  ∃ before body after, AreBlank before ∧ Spells t body ∧ AreBlank after ∧ text = before ++ (body ++ after)

end ProtoLink.Json
