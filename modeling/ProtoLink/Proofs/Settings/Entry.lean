import ProtoLink.Proofs.Name
import ProtoLink.Settings.Parameter

/-! The entries of a parameter: they are the stretches between its commas, from the first to the last, and each of
them assigns a key the text between its first two equals signs. -/
namespace ProtoLink

namespace Text

variable {sep : Char}

theorem split_append_sep (front back : List Char) :
    split sep (front ++ sep :: back) = split sep front ++ split sep back := by
  have hjoin : join sep (split sep front ++ split sep back) = front ++ sep :: back := by
    rw [join_append (split_ne_nil _ _) (split_ne_nil _ _), join_split, join_split]
  rw [← hjoin, split_join]
  · simp [split_ne_nil]
  · intro piece hpiece
    rcases List.mem_append.1 hpiece with hpiece | hpiece
    · exact notMem_of_mem_split hpiece
    · exact notMem_of_mem_split hpiece

/-- Behind the first piece a joined text ends or goes on with the separator. -/
theorem exists_join_cons (sep : Char) (piece : List Char) (pieces : List (List Char)) :
    ∃ back, join sep (piece :: pieces) = piece ++ back ∧ ∀ c ∈ back.head?, c = sep := by
  cases pieces with
  | nil => exact ⟨[], by simp [join], by simp⟩
  | cons next pieces => exact ⟨sep :: join sep (next :: pieces), rfl, by simp⟩

end Text

namespace Parameter

open Text (split join byteLength)

/-- An entry stands in a text: it has no comma in it, and is limited only by commas and by the ends of the text. -/
def Entry.StandsIn (e : Entry) (text : List Char) : Prop :=
  ∃ front back, text = front ++ e.text ++ back ∧ e.start = byteLength front ∧ ',' ∉ e.text ∧
    (∀ c ∈ front.getLast?, c = ',') ∧ ∀ c ∈ back.head?, c = ','

/-- A key and what it is set to, if it is set to anything. -/
structure Assignment where
  key : String
  value? : Option String := none
deriving DecidableEq, Repr

/-- The ways to write an assignment. What follows a second equals sign does not count. -/
inductive Assigns : List Char → Assignment → Prop
  | bare {key : List Char} (hkey : '=' ∉ key) : Assigns key ⟨.ofList key, none⟩
  | value {key value : List Char} (hkey : '=' ∉ key) (hvalue : '=' ∉ value) :
    Assigns (key ++ '=' :: value) ⟨.ofList key, some (.ofList value)⟩
  | surplus {key value : List Char} (rest : List Char) (hkey : '=' ∉ key) (hvalue : '=' ∉ value) :
    Assigns (key ++ '=' :: (value ++ '=' :: rest)) ⟨.ofList key, some (.ofList value)⟩

/-- The assignment that an entry is read as. -/
def Entry.assignment (e : Entry) : Assignment := ⟨.ofList e.key, e.value?.map .ofList⟩

variable {text : List Char} {e : Entry} {start : Nat} {pieces : List (List Char)}

theorem assigns_iff {a : Assignment} : Assigns e.text a ↔ e.assignment = a := by
  constructor
  · intro h
    generalize htext : e.text = text at h
    cases h with
    | bare hkey => simp [Entry.assignment, Entry.key, Entry.value?, Entry.parts, htext, Text.split_of_notMem hkey]
    | value hkey hvalue =>
      simp [Entry.assignment, Entry.key, Entry.value?, Entry.parts, htext, Text.split_append hkey,
        Text.split_of_notMem hvalue]
    | surplus rest hkey hvalue =>
      simp [Entry.assignment, Entry.key, Entry.value?, Entry.parts, htext, Text.split_append hkey,
        Text.split_append hvalue]
  · rintro rfl
    have hsigns : ∀ part ∈ e.parts, '=' ∉ part := fun part hpart => Text.notMem_of_mem_split hpart
    have htext : join '=' e.parts = e.text := Text.join_split '=' e.text
    simp only [Entry.assignment, Entry.key, Entry.value?]
    rw [← htext]
    generalize hparts : e.parts = parts at hsigns
    cases parts with
    | nil => exact absurd hparts (Text.split_ne_nil '=' e.text)
    | cons key parts =>
      cases parts with
      | nil => exact .bare (hsigns key (by simp))
      | cons value parts =>
        have hkey := hsigns key (by simp)
        have hvalue := hsigns value (by simp)
        cases parts with
        | nil => exact .value hkey hvalue
        | cons next parts => exact .surplus (join '=' (next :: parts)) hkey hvalue

/-! Where the entries are -/

/-- Pieces with a comma behind each of them. -/
def terminated (pieces : List (List Char)) : List Char := pieces.flatMap fun piece => piece ++ [',']

theorem terminated_eq (h : pieces ≠ []) : terminated pieces = join ',' pieces ++ [','] := by
  induction pieces with
  | nil => exact absurd rfl h
  | cons piece pieces ih =>
    cases pieces with
    | nil => simp [terminated, join]
    | cons next pieces =>
      have hnext := ih (List.cons_ne_nil next pieces)
      simp only [terminated, List.flatMap_cons, join, List.append_assoc, List.cons_append] at hnext ⊢
      rw [hnext]
      rfl

theorem byteLength_terminated_cons (piece : List Char) (pieces : List (List Char)) :
    byteLength (terminated (piece :: pieces)) = byteLength piece + 1 + byteLength (terminated pieces) := by
  simp only [terminated, List.flatMap_cons, Text.byteLength_append]
  rfl

/-- An entry comes from one of the pieces and starts behind all that is before it. -/
theorem mem_place_iff : e ∈ place start pieces ↔
    ∃ before after, pieces = before ++ e.text :: after ∧ e.start = start + byteLength (terminated before) := by
  induction pieces generalizing start with
  | nil => simp [place]
  | cons piece pieces ih =>
    rw [place, List.mem_cons, ih]
    constructor
    · rintro (rfl | ⟨before, after, rfl, hstart⟩)
      · exact ⟨[], pieces, rfl, rfl⟩
      · refine ⟨piece :: before, after, rfl, ?_⟩
        simp only [terminated, List.flatMap_cons, Text.byteLength_append] at hstart ⊢
        have hcomma : byteLength [','] = 1 := rfl
        omega
    · rintro ⟨before, after, hpieces, hstart⟩
      cases before with
      | nil =>
        obtain ⟨rfl, rfl⟩ := List.cons.inj hpieces
        left
        rw [← show e.start = start from hstart]
      | cons first before =>
        obtain ⟨rfl, rfl⟩ := List.cons.inj hpieces
        refine Or.inr ⟨before, after, rfl, ?_⟩
        rw [hstart, byteLength_terminated_cons]
        omega

/-- Between a comma or an end of the text and the next one there is exactly one piece. -/
theorem mem_place_split_iff : e ∈ place 0 (split ',' text) ↔ e.StandsIn text := by
  rw [mem_place_iff]
  constructor
  · rintro ⟨before, after, hsplit, hstart⟩
    have hcomma : ',' ∉ e.text := Text.notMem_of_mem_split (by rw [hsplit]; simp)
    have htext : text = join ',' (before ++ e.text :: after) := by rw [← hsplit, Text.join_split]
    obtain ⟨back, hback, hhead⟩ := Text.exists_join_cons ',' e.text after
    refine ⟨terminated before, back, ?_, by simpa using hstart, hcomma, ?_, hhead⟩
    · by_cases hbefore : before = []
      · subst before
        exact htext.trans hback
      · rw [htext, Text.join_append hbefore (List.cons_ne_nil _ _), hback, terminated_eq hbefore]
        simp
    · by_cases hbefore : before = []
      · simp [hbefore, terminated]
      · simp [terminated_eq hbefore]
  · rintro ⟨front, back, rfl, hstart, hcomma, hlast, hhead⟩
    obtain ⟨after, hafter⟩ : ∃ after, split ',' (e.text ++ back) = e.text :: after := by
      cases back with
      | nil => exact ⟨[], by rw [List.append_nil, Text.split_of_notMem hcomma]⟩
      | cons c back =>
        obtain rfl : c = ',' := hhead c rfl
        exact ⟨split ',' back, Text.split_append hcomma back⟩
    rcases List.eq_nil_or_concat front with rfl | ⟨front, c, rfl⟩
    · exact ⟨[], after, hafter, hstart⟩
    · obtain rfl : c = ',' := hlast c (by simp)
      rw [List.concat_eq_append] at hstart ⊢
      refine ⟨split ',' front, after, ?_, ?_⟩
      · rw [List.append_assoc, List.append_assoc, List.singleton_append, Text.split_append_sep, hafter]
      · rw [hstart, terminated_eq (Text.split_ne_nil _ _), Text.join_split, Nat.zero_add]

/-- The entries of a parameter are all that stand in it, but for the empty ones. -/
theorem mem_entries_iff : e ∈ entries text ↔ e.StandsIn text ∧ e.text ≠ [] := by
  simp [entries, mem_place_split_iff]

/-- Behind every piece there is at least a comma before the next one. -/
theorem pairwise_place (start : Nat) (pieces : List (List Char)) :
    (place start pieces).Pairwise fun d e => d.span.stop < e.start := by
  induction pieces generalizing start with
  | nil => exact .nil
  | cons piece pieces ih =>
    refine List.pairwise_cons.2 ⟨fun e he => ?_, ih _⟩
    obtain ⟨before, after, -, hstart⟩ := mem_place_iff.1 he
    simp only [Entry.span]
    omega

theorem pairwise_entries (text : List Char) :
    (entries text).Pairwise fun d e => d.span.stop < e.start :=
  (pairwise_place 0 (split ',' text)).filter _

theorem pairwise_start_entries (text : List Char) : (entries text).Pairwise fun d e => d.start < e.start :=
  (pairwise_entries text).imp fun h => Nat.lt_of_le_of_lt (Nat.le_add_right _ _) h

/-- What the entries say depends on the pieces only, and not on where they are. -/
theorem map_text_place (start : Nat) (pieces : List (List Char)) : (place start pieces).map Entry.text = pieces := by
  induction pieces generalizing start with
  | nil => rfl
  | cons piece pieces ih => rw [place, List.map_cons, ih]

end Parameter
end ProtoLink
