/-! Byte offsets into a text: where its characters start, what lies in front of an offset and between two of them. -/
namespace ProtoLink.Text

/-- The number of bytes that the characters take in UTF-8. -/
def byteLength : List Char → Nat
  | [] => 0
  | c :: cs => c.utf8Size + byteLength cs

/-- An offset is a boundary if a character starts or the text ends there. -/
def isBoundary : List Char → Nat → Bool
  | _, 0 => true
  | [], _ + 1 => false
  | c :: cs, n + 1 => if n + 1 < c.utf8Size then false else isBoundary cs (n + 1 - c.utf8Size)

/-- The characters that lie wholly before a byte offset. -/
def before : Nat → List Char → List Char
  | _, [] => []
  | n, c :: cs => if n < c.utf8Size then [] else c :: before (n - c.utf8Size) cs

/-- The characters between two byte offsets. -/
def between (start stop : Nat) (cs : List Char) : List Char :=
  (before stop cs).drop (before start cs).length

@[simp] theorem byteLength_nil : byteLength [] = 0 := rfl

@[simp] theorem byteLength_cons (c : Char) (cs : List Char) :
    byteLength (c :: cs) = c.utf8Size + byteLength cs := rfl

theorem byteLength_append (xs ys : List Char) :
    byteLength (xs ++ ys) = byteLength xs + byteLength ys := by
  induction xs with
  | nil => simp
  | cons c xs ih => simp [ih, Nat.add_assoc]

@[simp] theorem isBoundary_zero (cs : List Char) : isBoundary cs 0 = true := by
  cases cs <;> rfl

/-- What stands before the end of a leading part is that part. -/
theorem before_append (xs ys : List Char) : before (byteLength xs) (xs ++ ys) = xs := by
  induction xs with
  | nil =>
    cases ys with
    | nil => rfl
    | cons c ys => simp [before, Char.utf8Size_pos]
  | cons c xs ih => simp [before, ih]

theorem isBoundary_append (xs ys : List Char) : isBoundary (xs ++ ys) (byteLength xs) = true := by
  induction xs with
  | nil => simp
  | cons c xs ih =>
    have hc := Char.utf8Size_pos c
    obtain ⟨k, hk⟩ : ∃ k, c.utf8Size + byteLength xs = k + 1 := ⟨c.utf8Size + byteLength xs - 1, by omega⟩
    have hn : ¬ k + 1 < c.utf8Size := by omega
    have hs : k + 1 - c.utf8Size = byteLength xs := by omega
    simp only [List.cons_append, byteLength_cons, hk, isBoundary, hn, if_false, hs, ih]

structure Span where
  start : Nat
  stop : Nat
deriving DecidableEq, Repr, Inhabited

namespace Span

/-- The characters that a span covers. -/
def covered (s : Span) (text : List Char) : List Char := between s.start s.stop text

/-- Whether both ends stand where a character starts or the text ends. -/
def fits (s : Span) (text : List Char) : Bool := isBoundary text s.start && isBoundary text s.stop

/-- The span cut off at the end of the text, and an empty one made one byte long where there is room. -/
def visible (s : Span) (limit : Nat) : Span :=
  let start := min s.start limit
  let stop := min s.stop limit
  if start = stop then ⟨start, min (start + 1) limit⟩ else ⟨start, stop⟩

theorem visible_of_lt {s : Span} {limit : Nat} (h : s.start < s.stop) (hl : s.stop ≤ limit) :
    s.visible limit = s := by
  have h₁ : min s.start limit = s.start := by omega
  have h₂ : min s.stop limit = s.stop := by omega
  have h₃ : s.start ≠ s.stop := by omega
  simp [visible, h₁, h₂, h₃]

theorem start_visible (s : Span) (limit : Nat) : (s.visible limit).start = min s.start limit := by
  simp only [visible]
  split <;> rfl

theorem stop_visible_le (s : Span) (limit : Nat) : (s.visible limit).stop ≤ limit := by
  simp only [visible]
  split <;> exact Nat.min_le_right _ _

/-- Only at the end of the text is there nothing to see. -/
theorem start_eq_stop_visible_iff {s : Span} {limit : Nat} (h : s.start ≤ s.stop) :
    (s.visible limit).start = (s.visible limit).stop ↔ limit ≤ s.start := by
  simp only [visible]
  split <;> simp only [] <;> omega

end Span

/-- A place in a text: lines count from one, columns are the bytes since the line began. -/
structure Location where
  line : Nat
  column : Nat
deriving DecidableEq, Repr, Inhabited

namespace Location

/-- The place that a byte offset reaches when reading goes on from `here`. -/
def advance (here : Location) : Nat → List Char → Location
  | _, [] => here
  | n, c :: cs =>
    if n < c.utf8Size then { here with column := here.column + n }
    else if c = '\n' then advance ⟨here.line + 1, 0⟩ (n - c.utf8Size) cs
    else advance { here with column := here.column + c.utf8Size } (n - c.utf8Size) cs

/-- The place of a byte offset. An offset past the end is taken as the end. -/
def ofOffset (text : List Char) (offset : Nat) : Location :=
  advance ⟨1, 0⟩ offset text

end Location

end ProtoLink.Text
