import ProtoLink.Reference
import ProtoLink.Text.ControlSequence

/-! The nodes of TypeScript that name a declaration: expressions, and the names of types. -/
namespace ProtoLink.TypeScript

/-- A reference in the place of a value. -/
inductive Expression where
  | identifier (name : String)
  | property (object : Expression) (name : String)
deriving DecidableEq, Repr, Inhabited

/-- A reference in the place of a type. -/
inductive EntityName where
  | identifier (name : String)
  | qualified (left : EntityName) (right : String)
deriving DecidableEq, Repr, Inhabited

namespace Expression

/-- The chain of properties below an identifier. -/
def chain (root : String) (members : List String) : Expression :=
  members.foldl property (identifier root)

def ofReference (r : Reference) : Expression := chain r.root r.members

/-- The names from the root outwards. -/
def segments : Expression → List String
  | identifier name => [name]
  | property object name => object.segments ++ [name]

def render (p : Palette) : Expression → String
  | identifier name => p.paintName name
  | property object name => object.render p ++ p.paintMark "." ++ name

theorem segments_foldl (object : Expression) (members : List String) :
    (members.foldl property object).segments = object.segments ++ members := by
  induction members generalizing object with
  | nil => simp
  | cons name members ih => simp [ih, segments]

@[simp] theorem segments_chain (root : String) (members : List String) :
    (chain root members).segments = root :: members :=
  segments_foldl _ _

end Expression

namespace EntityName

/-- The chain of qualified names below an identifier. -/
def chain (root : String) (members : List String) : EntityName :=
  members.foldl qualified (identifier root)

def ofReference (r : Reference) : EntityName := chain r.root r.members

/-- The names from the root outwards. -/
def segments : EntityName → List String
  | identifier name => [name]
  | qualified left right => left.segments ++ [right]

def render (p : Palette) : EntityName → String
  | identifier name => p.paintName name
  | qualified left right => left.render p ++ p.paintMark "." ++ right

theorem segments_foldl (left : EntityName) (members : List String) :
    (members.foldl qualified left).segments = left.segments ++ members := by
  induction members generalizing left with
  | nil => simp
  | cons name members ih => simp [ih, segments]

@[simp] theorem segments_chain (root : String) (members : List String) :
    (chain root members).segments = root :: members :=
  segments_foldl _ _

end EntityName
end ProtoLink.TypeScript
