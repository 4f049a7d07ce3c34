/-! Control sequences for terminals, such as the codes for colours. A sequence starts with the escape character and
says by its next characters how far it goes. -/
namespace ProtoLink.Text

/-- What has been read of a control sequence. -/
inductive ControlSequence where
  /-- Nothing but the escape character. -/
  | opening
  /-- The start of a sequence that ends with its first character beyond the punctuation. -/
  | intermediate
  /-- The start of a sequence with parameters, which ends with a letter. -/
  | parameters
  /-- The start of a string for the device, which has a head with parameters. -/
  | deviceStart
  | deviceParameters
  | deviceIntermediate
  /-- A string, which goes on to the terminator of strings. -/
  | string
  /-- A string for the system, which goes on to a bell. -/
  | command
deriving DecidableEq, Repr

/-- The control characters that are layout: the tab and the ends of lines and pages. -/
def isLayout (c : Char) : Bool := c = '\t' || c = '\n' || c = '\x0c' || c = '\r'

/-- Whether a character is more than a control character of ASCII. -/
def isShown (c : Char) : Bool := isLayout c || (0x20 ≤ c.toNat && c ≠ '\x7f')

/-- Whether a character is in the printed part of ASCII, the only one that tells how a sequence goes on. -/
def isPlain (c : Char) : Bool := 0x20 ≤ c.toNat && c.toNat < 0x7F

namespace ControlSequence

/-- Whether layout cuts the sequence short. It does so while the end is one character. -/
def isShort : ControlSequence → Bool
  | .opening | .intermediate | .parameters => true
  | _ => false

/-- Whether a character ends a string. The terminator is a byte, `9C`, and ends a string inside of a longer
character as well. -/
def isClosedBy : ControlSequence → Char → Bool
  | .command, c => c = '\x07'
  | .string, c => 0x9C ∈ String.utf8EncodeChar c
  | _, _ => false

/-- What has been read with one more character from the printed part of ASCII, or none if that ends the sequence. -/
def extend? : ControlSequence → Char → Option ControlSequence
  | .opening, c =>
    if c < '0' then some .intermediate
    else if c = '[' then some .parameters
    else if c = ']' then some .command
    else if c = 'P' then some .deviceStart
    else if c ∈ ['X', '^', '_'] then some .string
    else none
  | .intermediate, c => if c < '0' then some .intermediate else none
  | .parameters, c => if c < '@' then some .parameters else none
  | .deviceStart, c =>
    if c < '0' then some .deviceIntermediate
    else if c < '@' then some .deviceParameters
    else some .string
  | .deviceParameters, c =>
    if c < '0' then some .deviceIntermediate
    else if c < '<' then some .deviceParameters
    else some .string
  | .deviceIntermediate, c => if c < '0' then some .deviceIntermediate else some .string
  | .string, _ => some .string
  | .command, _ => some .command

/-- What has been read with one more character, or none if that ends the sequence. The escape character starts anew,
and the characters for cancelling end every sequence. -/
def next? (s : ControlSequence) (c : Char) : Option ControlSequence :=
  if c = '\x1b' then some .opening
  else if c = '\x18' || c = '\x1a' || s.isClosedBy c then none
  else if isPlain c then s.extend? c
  else some s

end ControlSequence

/-- What becomes of a sequence that layout has cut short. -/
inductive Interruption where
  /-- It is over. -/
  | ends
  /-- It is put aside. The next control character goes on with it, if all that is between them is ASCII. -/
  | pauses
deriving DecidableEq, Repr

/-- Where the reading of a text is. -/
inductive Reading where
  /-- In what is shown, with the sequence that is put aside. -/
  | text (aside : Option ControlSequence)
  | inside (s : ControlSequence)
deriving DecidableEq, Repr

namespace Reading

/-- What is shown, with nothing put aside. -/
def plain : Reading := .text none

def ofSequence : Option ControlSequence → Reading
  | some s => .inside s
  | none => plain

/-- The reading behind a character that is not shown. -/
def next : Reading → Char → Reading
  | .text none, c => if c = '\x1b' then .inside .opening else plain
  | .text (some s), c => ofSequence (s.next? c)
  | .inside s, c => ofSequence (s.next? c)

/-- The reading behind a character that is shown. -/
def past (mode : Interruption) : Reading → Char → Reading
  | .text aside, c => if c.toNat < 0x80 then .text aside else plain
  | .inside s, _ => if mode = .pauses then .text (some s) else plain

/-- Whether a character is shown. Of a sequence only the layout is that cuts it short. -/
def shows : Reading → Char → Bool
  | .text _, c => isShown c
  | .inside s, c => s.isShort && isLayout c

/-- What is shown of a text. -/
def shown (mode : Interruption) : Reading → List Char → List Char
  | _, [] => []
  | r, c :: cs =>
    if r.shows c then c :: shown mode (r.past mode c) cs else shown mode (r.next c) cs

end Reading

/-- A text without control sequences and control characters, layout excepted. -/
def withoutControls (mode : Interruption) (text : List Char) : List Char :=
  Reading.plain.shown mode text

variable {mode : Interruption}

theorem withoutControls_cons {c : Char} (h : isShown c = true) (cs : List Char) :
    withoutControls mode (c :: cs) = c :: withoutControls mode cs := by
  simp [withoutControls, Reading.plain, Reading.shown, Reading.shows, Reading.past, h]

/-- A text without control characters is left as it is. -/
theorem withoutControls_eq_self {text : List Char} (h : ∀ c ∈ text, isShown c = true) :
    withoutControls mode text = text := by
  induction text with
  | nil => rfl
  | cons c cs ih =>
    rw [withoutControls_cons (h c List.mem_cons_self),
      ih fun d hd => h d (List.mem_cons_of_mem c hd)]

example : withoutControls .ends "a\x1b[1;31mb\x1b[0m\x7fc\n\x1b(Bd".toList = "abc\nd".toList := by decide

/-- The bell goes on with the parameters that the tab has cut short, and the letter ends them. -/
example : withoutControls .ends "\x1b[1\tx\x07yz".toList = "\txyz".toList ∧
    withoutControls .pauses "\x1b[1\tx\x07yz".toList = "\txz".toList := by decide

end ProtoLink.Text

namespace ProtoLink

/-- A colour code for each role, and the code that ends it. -/
structure Palette where
  name : String
  path : String
  mark : String
  reset : String
deriving DecidableEq, Repr

namespace Palette

/-- Names are blue, paths green and punctuation dim. -/
def bright : Palette := ⟨"\x1b[34m", "\x1b[32m", "\x1b[2m", "\x1b[0m"⟩

/-- No codes at all. -/
def plain : Palette := ⟨"", "", "", ""⟩

instance : Inhabited Palette := ⟨plain⟩

def ofFlag (coloured : Bool) : Palette := if coloured then bright else plain

/-- A palette is in use if it ends what it colours. -/
def isEnabled (p : Palette) : Bool := p.reset ≠ ""

def paintName (p : Palette) (text : String) : String := p.name ++ text ++ p.reset

def paintPath (p : Palette) (text : String) : String := p.path ++ text ++ p.reset

def paintMark (p : Palette) (text : String) : String := p.mark ++ text ++ p.reset

end Palette

end ProtoLink
