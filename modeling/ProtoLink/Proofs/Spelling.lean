import ProtoLink.Proofs.Name
import ProtoLink.TypeScript.Node

/-! The two nodes of a reference. The one in the place of a type has the names of the one in the place of a
value and is written like it. Without colours a node is its names with a dot between each two of them. -/
namespace ProtoLink

namespace Reference

/-- A reference as it stands in the text: a bare name, or a handle, a dot and the tail. -/
def written : Reference → String
  | bare name _ => name
  | qualified handle tail => handle ++ "." ++ tail

/-- A bare name stays in one piece. With a handle come all the pieces of the tail, one more than it has dots. -/
def HasNames : Reference → List String → Prop
  | bare name _, names => names = [name]
  | qualified handle tail, names =>
    ∃ pieces, names = handle :: pieces ∧ pieces ≠ [] ∧ (∀ s ∈ pieces, '.' ∉ s.toList) ∧ dotted pieces = tail

theorem hasNames (r : Reference) : r.HasNames (r.root :: r.members) := by
  cases r with
  | bare name reason => rfl
  | qualified handle tail =>
    exact ⟨_, rfl, nameSegments_ne_nil tail, fun _ hs => notMem_of_mem_nameSegments hs, dotted_nameSegments tail⟩

/-- The names of a reference with dots between them are the reference again. -/
theorem HasNames.dotted_eq {r : Reference} {names : List String} (h : r.HasNames names) : dotted names = r.written := by
  cases r with
  | bare name reason =>
    cases h
    exact dotted_singleton name
  | qualified handle tail =>
    obtain ⟨pieces, rfl, hne, -, rfl⟩ := h
    have hjoined := dotted_append (List.cons_ne_nil handle []) hne
    rwa [dotted_singleton] at hjoined

end Reference

namespace TypeScript

namespace Expression

variable (p : Palette) (e : Expression)

/-- The same names in the place of a type. -/
def toEntityName : Expression → EntityName
  | identifier name => .identifier name
  | property object name => .qualified object.toEntityName name

theorem segments_toEntityName : e.toEntityName.segments = e.segments := by
  induction e with
  | identifier name => rfl
  | property object name ih => rw [toEntityName, EntityName.segments, segments, ih]

theorem render_toEntityName : e.toEntityName.render p = e.render p := by
  induction e with
  | identifier name => rfl
  | property object name ih => rw [toEntityName, EntityName.render, render, ih]

theorem toEntityName_foldl (members : List String) :
    (members.foldl property e).toEntityName = members.foldl EntityName.qualified e.toEntityName := by
  induction members generalizing e with
  | nil => rfl
  | cons name members ih => exact ih (e.property name)

/-- The two nodes of a reference are built alike. -/
theorem toEntityName_ofReference (r : Reference) : (ofReference r).toEntityName = EntityName.ofReference r :=
  toEntityName_foldl (identifier r.root) r.members

theorem segments_ne_nil : e.segments ≠ [] := by
  cases e with
  | identifier name => exact List.cons_ne_nil _ _
  | property object name => exact List.append_ne_nil_of_right_ne_nil _ (List.cons_ne_nil _ _)

/-- A node without colours is its names with dots between them. -/
theorem render_plain : e.render .plain = dotted e.segments := by
  induction e with
  | identifier name => simp [render, segments, Palette.paintName, Palette.plain, dotted_singleton]
  | property object name ih =>
    have hmark : Palette.plain.paintMark "." = "." := by decide
    rw [render, segments, dotted_append object.segments_ne_nil (List.cons_ne_nil _ _), ih, hmark, dotted_singleton]

theorem hasNames_ofReference (r : Reference) : r.HasNames (ofReference r).segments := by
  rw [ofReference, segments_chain]
  exact r.hasNames

theorem render_plain_ofReference (r : Reference) : (ofReference r).render .plain = r.written := by
  rw [render_plain]
  exact (hasNames_ofReference r).dotted_eq

end Expression

end TypeScript
end ProtoLink
