import ProtoLink.Name

/-! Names whose segments are plain: how scopes build them up and packages are taken off them. -/
namespace ProtoLink

namespace Text

variable {sep : Char}

theorem join_append {ps qs : List (List Char)} (hp : ps ≠ []) (hq : qs ≠ []) :
    join sep (ps ++ qs) = join sep ps ++ sep :: join sep qs := by
  induction ps with
  | nil => exact absurd rfl hp
  | cons p ps ih =>
    cases ps with
    | nil =>
      obtain ⟨q, qs, rfl⟩ := List.exists_cons_of_ne_nil hq
      rfl
    | cons next ps =>
      simp only [List.cons_append, join, List.append_assoc] at ih ⊢
      rw [ih (by simp)]

theorem split_of_notMem {piece : List Char} (h : sep ∉ piece) : split sep piece = [piece] := by
  induction piece with
  | nil => rfl
  | cons c cs ih =>
    rw [List.mem_cons, not_or] at h
    rw [split, ih h.2]
    exact if_neg (Ne.symm h.1)

theorem split_append {piece : List Char} (h : sep ∉ piece) (rest : List Char) :
    split sep (piece ++ sep :: rest) = piece :: split sep rest := by
  obtain ⟨next, pieces, hrest⟩ := List.exists_cons_of_ne_nil (split_ne_nil sep rest)
  induction piece with
  | nil => simp [split, hrest]
  | cons c cs ih =>
    rw [List.mem_cons, not_or] at h
    rw [List.cons_append, split, ih h.2]
    exact if_neg (Ne.symm h.1)

/-- Pieces without the separator are found again. -/
theorem split_join {pieces : List (List Char)} (hne : pieces ≠ []) (h : ∀ p ∈ pieces, sep ∉ p) :
    split sep (join sep pieces) = pieces := by
  induction pieces with
  | nil => exact absurd rfl hne
  | cons p ps ih =>
    rw [List.forall_mem_cons] at h
    cases ps with
    | nil => exact split_of_notMem h.1
    | cons next ps => rw [join, split_append h.1, ih (by simp) h.2]

theorem notMem_of_mem_split {cs piece : List Char} (h : piece ∈ split sep cs) : sep ∉ piece := by
  induction cs generalizing piece with
  | nil =>
    obtain rfl := List.mem_singleton.1 h
    exact List.not_mem_nil
  | cons c cs ih =>
    obtain ⟨next, pieces, hsplit⟩ := List.exists_cons_of_ne_nil (split_ne_nil sep cs)
    rw [hsplit, List.forall_mem_cons] at ih
    rw [split, hsplit] at h
    by_cases hc : c = sep
    · simp only [hc, if_true, List.mem_cons] at h
      rcases h with rfl | h
      · exact List.not_mem_nil
      · exact h.elim (fun hnext => hnext ▸ ih.1) (ih.2 piece)
    · simp only [hc, if_false, List.mem_cons] at h
      rcases h with rfl | h
      · simpa [Ne.symm hc] using ih.1
      · exact ih.2 piece h

end Text

namespace Name

open Text (join)

/-- A segment of a dotted name has no dot in it and is not empty. -/
def IsSegment (cs : List Char) : Prop := cs ≠ [] ∧ '.' ∉ cs

instance : DecidablePred IsSegment := fun _ => inferInstanceAs (Decidable (_ ∧ _))

variable {front back cs rest : List Char}

/-- Each part of a text is halved by itself, unless the cut goes through a run of dots. -/
theorem halveDots_append (h : front.getLast? ≠ some '.' ∨ back.head? ≠ some '.') :
    halveDots (front ++ back) = halveDots front ++ halveDots back := by
  have htail : ∀ c cs, (c :: cs).getLast? ≠ some '.' → cs.getLast? ≠ some '.' := by
    intro c cs hne hlast
    exact hne (by simp [List.getLast?_cons, hlast])
  fun_induction halveDots front with
  | case1 front ih =>
    have hfront := h.imp_left fun hlast => htail _ _ (htail _ _ hlast)
    rw [List.cons_append, List.cons_append, halveDots, ih hfront, List.cons_append]
  | case2 c front hpair ih =>
    rw [List.cons_append, halveDots, ih (h.imp_left (htail _ _)), List.cons_append]
    -- a pair of dots at the start would lie in the front or across the cut
    intro rest hc hrest
    cases front with
    | nil =>
      rw [List.nil_append] at hrest
      simp [hc, hrest] at h
    | cons d front =>
      obtain ⟨rfl, -⟩ := List.cons.inj hrest
      exact hpair front hc rfl
  | case3 => rfl

theorem halveDots_of_notMem (h : '.' ∉ cs) : halveDots cs = cs := by
  induction cs with
  | nil => rfl
  | cons c cs ih =>
    rw [List.mem_cons, not_or] at h
    rw [halveDots, ih h.2]
    rintro _ rfl
    exact absurd rfl h.1

/-- A run of dots becomes half as long, rounded up. -/
theorem halveDots_replicate : (k : Nat) →
    halveDots (List.replicate k '.') = List.replicate ((k + 1) / 2) '.'
  | 0 | 1 => rfl
  | k + 2 => by
    have hhalf : (k + 2 + 1) / 2 = (k + 1) / 2 + 1 := by omega
    calc halveDots (List.replicate (k + 2) '.')
        = '.' :: halveDots (List.replicate k '.') := rfl
      _ = '.' :: List.replicate ((k + 1) / 2) '.' := by rw [halveDots_replicate k]
      _ = List.replicate ((k + 2 + 1) / 2) '.' := by rw [hhalf]; rfl

theorem halveDots_run (k : Nat) (h : rest.head? ≠ some '.') :
    halveDots (List.replicate k '.' ++ rest) = List.replicate ((k + 1) / 2) '.' ++ halveDots rest := by
  rw [halveDots_append (Or.inr h), halveDots_replicate]

theorem head?_of_notMem (h : '.' ∉ cs) : cs.head? ≠ some '.' := by
  intro hhead
  exact h (List.mem_of_head? hhead)

theorem getLast?_of_notMem (h : '.' ∉ cs) : cs.getLast? ≠ some '.' := by
  intro hlast
  exact h (List.mem_of_getLast? hlast)

theorem head?_join {segments : List (List Char)} (h : ∀ s ∈ segments, IsSegment s) :
    (join '.' segments).head? ≠ some '.' := by
  cases segments with
  | nil => simp [join]
  | cons s segments =>
    obtain ⟨hne, hdot⟩ := h s List.mem_cons_self
    obtain ⟨c, s, rfl⟩ := List.exists_cons_of_ne_nil hne
    have hhead : (c :: s).head? ≠ some '.' := head?_of_notMem hdot
    cases segments <;> exact hhead

/-- The runs between segments have one dot each, and half of that, rounded up, is one dot again. -/
theorem halveDots_join {segments : List (List Char)} (h : ∀ s ∈ segments, IsSegment s) :
    halveDots (join '.' segments) = join '.' segments := by
  induction segments with
  | nil => rfl
  | cons s segments ih =>
    rw [List.forall_mem_cons] at h
    obtain ⟨hs, hsegments⟩ := h
    cases segments with
    | nil => exact halveDots_of_notMem hs.2
    | cons next segments =>
      have hrun := halveDots_run 1 (head?_join hsegments)
      rw [ih hsegments] at hrun
      rw [join, halveDots_append (Or.inl (getLast?_of_notMem hs.2)), halveDots_of_notMem hs.2]
      exact congrArg (s ++ ·) hrun

theorem join_ne_nil {segments : List (List Char)} (h : ∀ s ∈ segments, IsSegment s) (hne : segments ≠ []) :
    join '.' segments ≠ [] := by
  obtain ⟨s, segments, rfl⟩ := List.exists_cons_of_ne_nil hne
  have hs := (h s List.mem_cons_self).1
  cases segments with
  | nil => exact hs
  | cons next segments => simp [join]

theorem unrooted_run (k : Nat) (h : rest.head? ≠ some '.') :
    unrooted (List.replicate k '.' ++ rest) = List.replicate (k - 1) '.' ++ rest := by
  cases k with
  | zero =>
    cases rest with
    | nil => rfl
    | cons c cs =>
      have hc : c ≠ '.' := by simpa using h
      simp [unrooted, hc]
  | succ k => rfl

theorem unrooted_join {segments : List (List Char)} (h : ∀ s ∈ segments, IsSegment s) :
    unrooted (join '.' segments) = join '.' segments :=
  unrooted_run 0 (head?_join h)

/-- A scope puts a dot between its own segments and the name. -/
theorem within_join {segments : List (List Char)} {name : List Char} (h : ∀ s ∈ segments, IsSegment s)
    (hname : IsSegment name) : within (join '.' segments) name = join '.' (segments ++ [name]) := by
  by_cases hs : segments = []
  · subst segments
    have hall : ∀ s ∈ [name], IsSegment s := List.forall_mem_singleton.2 hname
    have hrun := halveDots_run 1 (head?_join hall)
    rw [halveDots_join hall] at hrun
    exact congrArg unrooted hrun
  · have hjoin : join '.' (segments ++ [name]) = join '.' segments ++ '.' :: name :=
      Text.join_append hs (List.cons_ne_nil name [])
    have hall : ∀ s ∈ segments ++ [name], IsSegment s :=
      List.forall_mem_append.2 ⟨h, List.forall_mem_singleton.2 hname⟩
    rw [within, ← hjoin, halveDots_join hall, unrooted_join hall]

/-- Inside its own package a name loses exactly the segments of the package. -/
theorem relativeTo_join {segments names : List (List Char)} (h : ∀ s ∈ segments, IsSegment s)
    (hnames : names ≠ []) : relativeTo (join '.' segments) (join '.' (segments ++ names)) = join '.' names := by
  by_cases hs : segments = []
  · subst segments
    rfl
  · rw [relativeTo, if_neg (join_ne_nil h hs), Text.join_append hs hnames, after?_append]
    rfl

/-! Leading dots -/

/-- How many dots a name begins with. -/
def leadingDots (cs : List Char) : Nat := (cs.takeWhile (· = '.')).length

theorem exists_run (cs : List Char) : ∃ k rest, rest.head? ≠ some '.' ∧ cs = List.replicate k '.' ++ rest := by
  induction cs with
  | nil => exact ⟨0, [], by simp, rfl⟩
  | cons c cs ih =>
    by_cases hc : c = '.'
    · subst c
      obtain ⟨k, rest, hrest, rfl⟩ := ih
      exact ⟨k + 1, rest, hrest, rfl⟩
    · exact ⟨0, c :: cs, by simpa using hc, rfl⟩

theorem leadingDots_run (k : Nat) (h : rest.head? ≠ some '.') :
    leadingDots (List.replicate k '.' ++ rest) = k := by
  induction k with
  | zero =>
    cases rest with
    | nil => rfl
    | cons c cs =>
      have hc : c ≠ '.' := by simpa using h
      simp [leadingDots, hc]
  | succ k ih => simpa [leadingDots, List.replicate_succ] using ih

theorem head?_halveDots (h : rest.head? ≠ some '.') : (halveDots rest).head? ≠ some '.' := by
  cases rest with
  | nil => exact h
  | cons c cs =>
    have hc : c ≠ '.' := by simpa using h
    rw [halveDots.eq_2]
    · simpa using hc
    · rintro cs rfl
      exact absurd rfl hc

/-- A name that is entered under a scope has lost half of its leading dots, and two more. -/
theorem leadingDots_unrooted_within (scope name : List Char) :
    leadingDots (unrooted (within scope name)) = (leadingDots (scope ++ '.' :: name) + 1) / 2 - 2 := by
  obtain ⟨k, rest, hrest, heq⟩ := exists_run (scope ++ '.' :: name)
  have hhalf := head?_halveDots hrest
  rw [within, heq, halveDots_run k hrest, unrooted_run _ hhalf, unrooted_run _ hhalf, leadingDots_run _ hhalf,
    leadingDots_run _ hrest]
  omega

theorem unrooted_eq_self_iff {cs : List Char} : unrooted cs = cs ↔ leadingDots cs = 0 := by
  obtain ⟨k, rest, hrest, rfl⟩ := exists_run cs
  rw [unrooted_run k hrest, leadingDots_run k hrest, List.append_left_inj]
  cases k with
  | zero => simp
  | succ k => simp [List.replicate_succ']

end Name

/-- Segments with a dot between each two of them. -/
def dotted (segments : List String) : String := .ofList (Text.join '.' (segments.map String.toList))

/-- A segment of a dotted name: no dot in it, and not empty. -/
def IsSegment (s : String) : Prop := Name.IsSegment s.toList

instance : DecidablePred IsSegment := fun s => inferInstanceAs (Decidable (Name.IsSegment s.toList))

variable {segments names : List String}

theorem forall_isSegment_iff :
    (∀ s ∈ segments, IsSegment s) ↔ ∀ s ∈ segments.map String.toList, Name.IsSegment s := by
  simp [IsSegment]

@[simp] theorem dotted_nil : dotted [] = "" := rfl

theorem dotted_singleton (name : String) : dotted [name] = name := by
  simp [dotted, Text.join]

theorem dotted_append (hs : segments ≠ []) (hn : names ≠ []) :
    dotted (segments ++ names) = dotted segments ++ "." ++ dotted names := by
  rw [← String.toList_inj]
  simp [dotted, Text.join_append, hs, hn]

/-- Segments that are joined already count as one name among others. -/
theorem dotted_cons_dotted (hs : segments ≠ []) : dotted (dotted segments :: names) = dotted (segments ++ names) := by
  by_cases hn : names = []
  · rw [hn, dotted_singleton, List.append_nil]
  · calc dotted (dotted segments :: names)
        = dotted [dotted segments] ++ "." ++ dotted names := dotted_append (List.cons_ne_nil (dotted segments) []) hn
      _ = dotted segments ++ "." ++ dotted names := by rw [dotted_singleton]
      _ = dotted (segments ++ names) := (dotted_append hs hn).symm

theorem dotted_ne_empty (h : ∀ s ∈ segments, IsSegment s) (hne : segments ≠ []) : dotted segments ≠ "" := by
  intro he
  have hjoin := congrArg String.toList he
  rw [dotted, String.toList_ofList] at hjoin
  exact Name.join_ne_nil (forall_isSegment_iff.1 h) (by simpa using hne) hjoin

theorem dotted_nameSegments (name : String) : dotted (nameSegments name) = name := by
  have hlist : (nameSegments name).map String.toList = Name.segments name.toList := by
    simp [nameSegments, Function.comp_def]
  rw [dotted, hlist, Name.segments, Text.join_split, String.ofList_toList]

theorem nameSegments_ne_nil (name : String) : nameSegments name ≠ [] := by
  simp [nameSegments, Name.segments, Text.split_ne_nil]

theorem notMem_of_mem_nameSegments {name s : String} (h : s ∈ nameSegments name) : '.' ∉ s.toList := by
  obtain ⟨cs, hcs, rfl⟩ := List.mem_map.1 h
  rw [String.toList_ofList]
  exact Text.notMem_of_mem_split hcs

theorem nameSegments_dotted (h : ∀ s ∈ segments, IsSegment s) (hne : segments ≠ []) :
    nameSegments (dotted segments) = segments := by
  have hdots : ∀ s ∈ segments.map String.toList, '.' ∉ s := fun s hs => (forall_isSegment_iff.1 h s hs).2
  rw [nameSegments, dotted, String.toList_ofList, Name.segments,
    Text.split_join (by simpa using hne) hdots, List.map_map]
  simp [Function.comp_def]

theorem dotted_inj (h : ∀ s ∈ segments, IsSegment s) (hn : ∀ s ∈ names, IsSegment s) :
    dotted segments = dotted names ↔ segments = names := by
  refine ⟨?_, congrArg dotted⟩
  intro heq
  by_cases hs : segments = []
  · subst segments
    cases names with
    | nil => rfl
    | cons name names => exact absurd heq.symm (dotted_ne_empty hn (List.cons_ne_nil name names))
  · have hne : names ≠ [] := by
      rintro rfl
      exact dotted_ne_empty h hs heq
    rw [← nameSegments_dotted h hs, heq, nameSegments_dotted hn hne]

/-- If a name is made of segments, these are what stands between its dots. -/
theorem exists_segments_iff {name : String} :
    (∃ segments, (∀ s ∈ segments, IsSegment s) ∧ name = dotted segments) ↔
      name = "" ∨ ∀ s ∈ nameSegments name, IsSegment s := by
  constructor
  · rintro ⟨segments, hs, rfl⟩
    by_cases hne : segments = []
    · exact Or.inl (by rw [hne, dotted_nil])
    · exact Or.inr (by rwa [nameSegments_dotted hs hne])
  · rintro (rfl | hs)
    · exact ⟨[], by simp, rfl⟩
    · exact ⟨nameSegments name, hs, (dotted_nameSegments name).symm⟩

theorem unrooted_dotted (h : ∀ s ∈ segments, IsSegment s) : unrooted (dotted segments) = dotted segments := by
  rw [unrooted, dotted, String.toList_ofList, Name.unrooted_join (forall_isSegment_iff.1 h)]

/-- A leading dot is what `unrooted` takes off, whatever is behind it. -/
theorem unrooted_dot_append (name : String) : unrooted ("." ++ name) = name := by
  rw [unrooted, String.toList_append]
  exact String.ofList_toList

/-- `Name.leadingDots` on strings. -/
def leadingDots (name : String) : Nat := Name.leadingDots name.toList

theorem unrooted_eq_self_iff {name : String} : unrooted name = name ↔ leadingDots name = 0 := by
  rw [leadingDots, ← Name.unrooted_eq_self_iff, unrooted, ← String.toList_inj, String.toList_ofList]

theorem leadingDots_unrooted_nameWithin (scope name : String) :
    leadingDots (unrooted (nameWithin scope name)) = (leadingDots (scope ++ "." ++ name) + 1) / 2 - 2 := by
  have htext : (scope ++ "." ++ name).toList = scope.toList ++ '.' :: name.toList := by simp
  simp only [leadingDots, unrooted, nameWithin, String.toList_ofList, htext]
  exact Name.leadingDots_unrooted_within _ _

theorem nameWithin_dotted {name : String} (h : ∀ s ∈ segments, IsSegment s) (hname : IsSegment name) :
    nameWithin (dotted segments) name = dotted (segments ++ [name]) := by
  rw [nameWithin, dotted, String.toList_ofList, Name.within_join (forall_isSegment_iff.1 h) hname, dotted,
    List.map_append, List.map_cons, List.map_nil]

theorem foldl_nameWithin_dotted (h : ∀ s ∈ segments, IsSegment s) (hnames : ∀ s ∈ names, IsSegment s) :
    names.foldl nameWithin (dotted segments) = dotted (segments ++ names) := by
  induction names generalizing segments with
  | nil => simp
  | cons name names ih =>
    rw [List.forall_mem_cons] at hnames
    have hnext : ∀ s ∈ segments ++ [name], IsSegment s :=
      List.forall_mem_append.2 ⟨h, List.forall_mem_singleton.2 hnames.1⟩
    rw [List.foldl_cons, nameWithin_dotted h hnames.1, ih hnext hnames.2, ← List.append_cons]

theorem nameRelativeTo_dotted (h : ∀ s ∈ segments, IsSegment s) (hnames : names ≠ []) :
    nameRelativeTo (dotted segments) (dotted (segments ++ names)) = dotted names := by
  rw [nameRelativeTo, dotted, dotted, String.toList_ofList, String.toList_ofList, List.map_append,
    Name.relativeTo_join (forall_isSegment_iff.1 h) (by simpa using hnames), dotted]

end ProtoLink
