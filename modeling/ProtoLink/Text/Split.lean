/-! Cutting a text at every occurrence of one character, and joining the pieces again. -/
namespace ProtoLink.Text

/-- The pieces of a text between the occurrences of `sep`. There is always at least one piece. -/
def split (sep : Char) : List Char → List (List Char)
  | [] => [[]]
  | c :: cs =>
    match split sep cs with
    | [] => [[]]
    | piece :: pieces => if c = sep then [] :: piece :: pieces else (c :: piece) :: pieces

/-- The pieces with `sep` between each two of them. -/
def join (sep : Char) : List (List Char) → List Char
  | [] => []
  | [piece] => piece
  | piece :: next :: pieces => piece ++ sep :: join sep (next :: pieces)

/-- The parts before and after the first `sep`. -/
def splitOnce (sep : Char) : List Char → Option (List Char × List Char)
  | [] => none
  | c :: cs =>
    if c = sep then some ([], cs)
    else (splitOnce sep cs).map fun (front, back) => (c :: front, back)

theorem split_ne_nil (sep : Char) (cs : List Char) : split sep cs ≠ [] := by
  induction cs with
  | nil => simp [split]
  | cons c cs ih =>
    simp only [split]
    split
    · simp
    · split <;> simp

/-- Nothing is lost by cutting. -/
theorem join_split (sep : Char) (cs : List Char) : join sep (split sep cs) = cs := by
  induction cs with
  | nil => rfl
  | cons c cs ih =>
    simp only [split]
    split
    · exact absurd ‹_› (split_ne_nil sep cs)
    · rename_i piece pieces he
      rw [he] at ih
      split
      · subst c
        simp [join, ih]
      · cases pieces with
        | nil => simpa [join] using ih
        | cons next pieces => simpa [join] using ih

end ProtoLink.Text
