import ProtoLink.Diagnostic.Rendering
import ProtoLink.Proofs.Text.Span

/-! Which spans can be drawn over a source: those that end between characters once the empty ones are made one
byte long. An empty one in front of a character of several bytes does not. -/
namespace ProtoLink

namespace Text

variable {text front back : List Char} {n : Nat}

/-- Boundaries behind a leading part are those of the rest. -/
theorem isBoundary_append_add (front back : List Char) (n : Nat) :
    isBoundary (front ++ back) (byteLength front + n) = isBoundary back n := by
  induction front with
  | nil => rw [List.nil_append, byteLength_nil, Nat.zero_add]
  | cons c front ih =>
    have hc := Char.utf8Size_pos c
    obtain ⟨k, hk⟩ : ∃ k, c.utf8Size + byteLength front + n = k + 1 :=
      ⟨c.utf8Size + byteLength front + n - 1, by omega⟩
    have hle : ¬ k + 1 < c.utf8Size := by omega
    have hrest : k + 1 - c.utf8Size = byteLength front + n := by omega
    rw [List.cons_append, byteLength_cons, hk, isBoundary, if_neg hle, hrest, ih]

/-- A boundary is where a leading part of the text ends. -/
theorem exists_append_of_isBoundary (h : isBoundary text n = true) :
    ∃ front back, text = front ++ back ∧ byteLength front = n := by
  induction text generalizing n with
  | nil =>
    cases n with
    | zero => exact ⟨[], [], rfl, rfl⟩
    | succ n => cases h
  | cons c text ih =>
    cases n with
    | zero => exact ⟨[], c :: text, rfl, rfl⟩
    | succ n =>
      rw [isBoundary] at h
      split at h
      · cases h
      · rename_i hle
        obtain ⟨front, back, rfl, hfront⟩ := ih h
        refine ⟨c :: front, back, rfl, ?_⟩
        rw [byteLength_cons, hfront]
        omega

theorem le_byteLength_of_isBoundary (h : isBoundary text n = true) : n ≤ byteLength text := by
  obtain ⟨front, back, rfl, rfl⟩ := exists_append_of_isBoundary h
  rw [byteLength_append]
  exact Nat.le_add_right _ _

/-- One byte takes a character if that is all there is of it. -/
theorem isBoundary_one_iff {c : Char} : isBoundary (c :: back) 1 = true ↔ c.utf8Size ≤ 1 := by
  have hc := Char.utf8Size_pos c
  rw [isBoundary]
  split
  · rename_i hlt
    exact iff_of_false Bool.false_ne_true (Nat.not_le_of_gt hlt)
  · rename_i hle
    have hrest : 0 + 1 - c.utf8Size = 0 := by omega
    rw [hrest, isBoundary_zero]
    exact iff_of_true rfl (Nat.le_of_not_lt hle)

/-- The character that starts at a boundary. At the end of the text there is none. -/
def charAt? (text : List Char) (n : Nat) : Option Char := (text.drop (before n text).length).head?

theorem charAt?_append (front back : List Char) : charAt? (front ++ back) (byteLength front) = back.head? := by
  rw [charAt?, before_append, List.drop_left]

namespace Span

/-- The ends stand in order, and each where a character starts or the text ends. -/
structure IsLegal (s : Span) (text : List Char) : Prop where
  ordered : s.start ≤ s.stop
  fits : s.fits text = true

/-- The span is empty and stands in front of a character that takes several bytes. -/
def IsBeforeWide (s : Span) (text : List Char) : Prop :=
  s.start = s.stop ∧ ∃ c ∈ charAt? text s.start, 1 < c.utf8Size

instance (s : Span) (text : List Char) : Decidable (s.IsBeforeWide text) :=
  @instDecidableAnd _ _ _ (Option.decidableExistsMem (charAt? text s.start))

/-- What holds of the span that is shown for another one, whether it can be drawn or not. -/
structure IsShownAs (s shown : Span) (text : List Char) : Prop where
  start_eq : shown.start = s.start
  stop_le : s.stop ≤ shown.stop
  le_byteLength : shown.stop ≤ byteLength text
  isBoundary_start : isBoundary text shown.start = true
  isEmpty_iff : shown.start = shown.stop ↔ s.start = byteLength text

variable {s : Span}

theorem IsLegal.isBoundary_start (h : s.IsLegal text) : isBoundary text s.start = true :=
  (Bool.and_eq_true_iff.1 h.fits).1

theorem IsLegal.stop_le (h : s.IsLegal text) : s.stop ≤ byteLength text :=
  le_byteLength_of_isBoundary (Bool.and_eq_true_iff.1 h.fits).2

theorem IsLegal.isShownAs (h : s.IsLegal text) : s.IsShownAs (s.visible (byteLength text)) text := by
  have hordered := h.ordered
  have hstop := h.stop_le
  have hstart : (s.visible (byteLength text)).start = s.start := by
    rw [start_visible]
    exact Nat.min_eq_left (by omega)
  refine ⟨hstart, ?_, stop_visible_le s _, hstart ▸ h.isBoundary_start, ?_⟩
  · rw [visible]
    split <;> simp only [] <;> omega
  · rw [start_eq_stop_visible_iff hordered]
    omega

/-- Of an empty span the byte behind it is shown, which is a whole character or only the front of one. -/
theorem IsLegal.visible_fits_iff (h : s.IsLegal text) :
    (s.visible (byteLength text)).fits text = true ↔ ¬ s.IsBeforeWide text := by
  obtain hlt | hempty := Nat.lt_or_eq_of_le h.ordered
  · rw [visible_of_lt hlt h.stop_le]
    exact iff_of_true h.fits fun hwide => Nat.ne_of_lt hlt hwide.1
  · obtain ⟨front, back, rfl, hfront⟩ := exists_append_of_isBoundary h.isBoundary_start
    have hnext : charAt? (front ++ back) s.start = back.head? := hfront ▸ charAt?_append front back
    cases back with
    | nil =>
      -- at the end of the text nothing is shown
      have hend : s.visible (byteLength (front ++ [])) = s := by
        rw [List.append_nil, hfront, visible, ← hempty, Nat.min_self, if_pos rfl, Nat.min_eq_right (Nat.le_succ _)]
        cases s
        cases hempty
        rfl
      rw [hend, IsBeforeWide, hnext]
      refine iff_of_true h.fits ?_
      rintro ⟨-, c, hc, -⟩
      cases hc
    | cons c back =>
      have hc := Char.utf8Size_pos c
      have hlimit : s.start < byteLength (front ++ c :: back) := by
        rw [byteLength_append, byteLength_cons, hfront]
        omega
      have hbehind : isBoundary (front ++ c :: back) (s.start + 1) = isBoundary (c :: back) 1 := by
        rw [← hfront, isBoundary_append_add]
      rw [visible_of_eq hempty.symm hlimit, Span.fits, h.isBoundary_start, hbehind, Bool.true_and, isBoundary_one_iff,
        IsBeforeWide, hnext]
      simp [hempty]

end Span
end Text

namespace Diagnostic

variable {view : View} {source : String}

theorem isDrawable_eq_false_iff (hsource : view.source? = some source) {d : Diagnostic} :
    d.isDrawable view = false ↔
      ∃ s ∈ d.span?, (s.visible (Text.byteLength source.toList)).fits source.toList = false := by
  rw [isDrawable, snippet?, hsource]
  cases d.span? with
  | none => simp
  | some s => simp [Snippet.isDrawable, Snippet.visible]

end Diagnostic

namespace Log

theorem render?_eq_none_iff {log : Log} {view : Diagnostic.View} :
    log.render? view = none ↔ ∃ d ∈ log.diagnostics, d.isDrawable view = false := by
  rw [render?]
  split
  · rename_i hall
    refine iff_of_false (Option.some_ne_none _) ?_
    rintro ⟨d, hd, hfalse⟩
    exact Bool.false_ne_true (hfalse.symm.trans (List.all_eq_true.1 hall d hd))
  · rename_i hall
    obtain ⟨d, hd, hfalse⟩ := List.all_eq_false.1 (Bool.eq_false_iff.2 hall)
    exact iff_of_true rfl ⟨d, hd, Bool.eq_false_iff.2 hfalse⟩

/-- Spans that end between characters are shown at least as far as they reach. A log of such spans can be
drawn if and only if none of them is empty in front of a character of several bytes. -/
theorem render?_of_isLegal {log : Log} {view : Diagnostic.View} {source : String} (hsource : view.source? = some source)
    (hlegal : ∀ d ∈ log.diagnostics, ∀ s ∈ d.span?, s.IsLegal source.toList) :
    (∀ d ∈ log.diagnostics, ∀ s ∈ d.span?,
      s.IsShownAs (s.visible (Text.byteLength source.toList)) source.toList) ∧
    (log.render? view = none ↔ ∃ d ∈ log.diagnostics, ∃ s ∈ d.span?, s.IsBeforeWide source.toList) := by
  refine ⟨fun d hd s hs => (hlegal d hd s hs).isShownAs, ?_⟩
  rw [render?_eq_none_iff]
  refine exists_congr fun d => and_congr_right fun hd => ?_
  rw [Diagnostic.isDrawable_eq_false_iff hsource]
  refine exists_congr fun s => and_congr_right fun hs => ?_
  rw [← Bool.not_eq_true, (hlegal d hd s hs).visible_fits_iff, Decidable.not_not]

/-- A whole wide character, an empty span behind it, and one at the end of the source. -/
theorem render?_of_isLegal_around :
    let log : Log := { diagnostics := [⟨0, 2⟩, ⟨2, 2⟩, ⟨3, 3⟩].map fun span =>
      ⟨.warning, { kind := .unknownType, span? := some span }⟩ }
    (∀ d ∈ log.diagnostics, ∀ s ∈ d.span?, s.IsLegal "äb".toList) ∧ log.render? { source? := some "äb" } ≠ none := by
  intro log
  have hlegal : ∀ d ∈ log.diagnostics, ∀ s ∈ d.span?, s.IsLegal "äb".toList := by
    intro d hd s hs
    have hmarked : s.start ≤ s.stop ∧ s.fits "äb".toList = true := by
      revert d s
      decide
    exact ⟨hmarked.1, hmarked.2⟩
  refine ⟨hlegal, ?_⟩
  rw [Ne, (render?_of_isLegal rfl hlegal).2]
  decide

/-- An empty span lies between characters, but what is shown of it ends inside the character behind it. -/
theorem render?_before_wide :
    let span : Text.Span := ⟨0, 0⟩
    let log : Log := { diagnostics := [⟨.warning, { kind := .unknownType, span? := some span }⟩] }
    span.start ≤ span.stop ∧ span.fits "é".toList = true ∧
      span.visible (Text.byteLength "é".toList) = ⟨0, 1⟩ ∧ Text.isBoundary "é".toList 1 = false ∧
      log.render? { source? := some "é" } = none := by
  decide

end Log
end ProtoLink
