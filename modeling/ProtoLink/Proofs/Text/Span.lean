import ProtoLink.Text.Bytes

/-! Spans that mark a part of a text, from where its first character starts to where its last one ends. -/
namespace ProtoLink.Text

theorem byteLength_pos {cs : List Char} (h : cs ≠ []) : 0 < byteLength cs := by
  obtain ⟨c, cs, rfl⟩ := List.exists_cons_of_ne_nil h
  exact Nat.add_pos_left (Char.utf8Size_pos c) _

namespace Span

/-- The span reaches from the start of a part of the text to the end of that part. -/
def Marks (s : Span) (text part : List Char) : Prop :=
  ∃ front back, text = front ++ part ++ back ∧
    s.start = byteLength front ∧ s.stop = byteLength front + byteLength part

variable {s : Span} {text part : List Char}

theorem Marks.fits (h : s.Marks text part) : s.fits text = true := by
  obtain ⟨front, back, rfl, hstart, hstop⟩ := h
  have hfront := isBoundary_append front (part ++ back)
  have hbehind := isBoundary_append (front ++ part) back
  rw [← List.append_assoc, ← hstart] at hfront
  rw [byteLength_append, ← hstop] at hbehind
  rw [Span.fits, hfront, hbehind]
  rfl

theorem Marks.covered (h : s.Marks text part) : s.covered text = part := by
  obtain ⟨front, back, rfl, hstart, hstop⟩ := h
  have hfront : before s.start (front ++ part ++ back) = front := by
    rw [hstart, List.append_assoc, before_append]
  have hbehind : before s.stop (front ++ part ++ back) = front ++ part := by
    rw [hstop, ← byteLength_append, before_append]
  rw [Span.covered, between, hfront, hbehind, List.drop_left]

theorem Marks.stop_le (h : s.Marks text part) : s.stop ≤ byteLength text := by
  obtain ⟨front, back, rfl, -, hstop⟩ := h
  simp only [byteLength_append]
  omega

theorem Marks.start_lt_stop (h : s.Marks text part) (hne : part ≠ []) : s.start < s.stop := by
  obtain ⟨front, back, -, hstart, hstop⟩ := h
  have hpart := byteLength_pos hne
  omega

/-- An empty span is shown as the byte behind it, where there is one. -/
theorem visible_of_eq {limit : Nat} (h : s.stop = s.start) (hl : s.start < limit) :
    s.visible limit = ⟨s.start, s.start + 1⟩ := by
  have hstart : min s.start limit = s.start := by omega
  have hstop : min (s.start + 1) limit = s.start + 1 := by omega
  rw [Span.visible, h, hstart, if_pos rfl, hstop]

/-- A span with something in it is shown as it is. -/
theorem Marks.visible (h : s.Marks text part) (hne : part ≠ []) : s.visible (byteLength text) = s :=
  visible_of_lt (h.start_lt_stop hne) h.stop_le

end Span
end ProtoLink.Text
