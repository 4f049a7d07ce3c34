import Mathlib.Data.List.SplitBy
import ProtoLink.Proofs.Declaration
import ProtoLink.Proofs.Name

/-! Runs of dots. A text is made of blocks: its longest runs of dots, and what stands between them. Halving
the dots acts on each run by itself, so the single dot that a scope puts before a name stays single. -/
namespace ProtoLink

namespace Name

variable {c : Char} {cs b next : List Char} {bs : List (List Char)}

/-- Two characters of one block: both are dots, or neither is. -/
def sameKind (c d : Char) : Bool := decide (c = '.') == decide (d = '.')

/-- The longest parts of a text that are runs of dots or have no dot. -/
def blocks (cs : List Char) : List (List Char) := cs.splitBy sameKind

/-- A run of dots half as long, rounded up. A block without dots is kept. -/
def halved (b : List Char) : List Char :=
  if '.' ∈ b then List.replicate ((b.length + 1) / 2) '.' else b

/-- One or more dots, or one or more characters that are none. -/
inductive IsBlock : List Char → Prop
  | dots (k : Nat) : IsBlock (List.replicate (k + 1) '.')
  | segment {s : List Char} (h : IsSegment s) : IsBlock s

theorem isBlock_iff : IsBlock b ↔ b ≠ [] ∧ b.IsChain fun c d => sameKind c d = true := by
  constructor
  · intro h
    cases h with
    | dots k => exact ⟨by simp, List.isChain_replicate_of_rel _ rfl⟩
    | segment h =>
      have hdot : ∀ c ∈ b, c ≠ '.' := by
        rintro c hc rfl
        exact h.2 hc
      refine ⟨h.1, List.Pairwise.isChain (List.pairwise_of_forall_mem_list fun c hc d hd => ?_)⟩
      simp [sameKind, hdot c hc, hdot d hd]
  · rintro ⟨hne, hchain⟩
    obtain ⟨c, b, rfl⟩ := List.exists_cons_of_ne_nil hne
    -- neighbours are of one kind, so all are of the kind of the first
    have hkinds : ((c :: b).map fun d => decide (d = '.')).IsChain (· = ·) := by
      rw [List.isChain_map]
      exact hchain.imp fun _ _ hsame => by simpa [sameKind] using hsame
    have hall := List.eq_replicate_iff.1 (List.isChain_eq_iff_eq_replicate.1 hkinds _ rfl)
    have hkind : ∀ d ∈ b, d = '.' ↔ c = '.' := by
      intro d hd
      have hdecide := hall.2 _ (List.mem_map_of_mem (List.mem_cons_of_mem c hd))
      simpa using hdecide
    by_cases hc : c = '.'
    · have hb : b = List.replicate b.length '.' :=
        List.eq_replicate_iff.2 ⟨rfl, fun d hd => (hkind d hd).2 hc⟩
      rw [hc, hb]
      exact IsBlock.dots b.length
    · refine IsBlock.segment ⟨hne, ?_⟩
      rw [List.mem_cons, not_or]
      exact ⟨Ne.symm hc, fun hd => hc ((hkind _ hd).1 rfl)⟩

theorem IsBlock.ne_nil (h : IsBlock b) : b ≠ [] := (isBlock_iff.1 h).1

theorem IsBlock.eq_dot_iff (h : IsBlock b) (hc : c ∈ b) : c = '.' ↔ '.' ∈ b := by
  cases h with
  | dots k => simp [List.eq_of_mem_replicate hc]
  | segment h =>
    refine ⟨?_, fun hdot => absurd hdot h.2⟩
    rintro rfl
    exact hc

theorem IsBlock.halveDots_eq (h : IsBlock b) : halveDots b = halved b := by
  cases h with
  | dots k => simp [halved, halveDots_replicate]
  | segment h => rw [halved, if_neg h.2, halveDots_of_notMem h.2]

theorem IsBlock.isBlock_halved (h : IsBlock b) : IsBlock (halved b) := by
  cases h with
  | dots k =>
    have hhalf : (k + 1 + 1) / 2 = k / 2 + 1 := by omega
    simp only [halved, List.length_replicate, hhalf]
    rw [if_pos (by simp)]
    exact IsBlock.dots (k / 2)
  | segment h =>
    rw [halved, if_neg h.2]
    exact IsBlock.segment h

/-- No run of dots goes away. -/
theorem dot_mem_halved_iff : '.' ∈ halved b ↔ '.' ∈ b := by
  by_cases h : '.' ∈ b
  · have hpos := List.length_pos_of_mem h
    have hhalf : (b.length + 1) / 2 ≠ 0 := by omega
    rw [halved, if_pos h]
    exact iff_of_true (List.mem_replicate.2 ⟨hhalf, rfl⟩) h
  · rw [halved, if_neg h]

/-- Blocks of which no two neighbours are of one kind, so none of them goes on in the next one. -/
structure AreBlocks (bs : List (List Char)) : Prop where
  isBlock : ∀ b ∈ bs, IsBlock b
  alternate : bs.IsChain fun b next => '.' ∈ b ↔ '.' ∉ next

theorem IsBlock.parted_iff (hb : IsBlock b) (hnext : IsBlock next) :
    (∃ h h', sameKind (b.getLast h) (next.head h') = false) ↔ ('.' ∈ b ↔ '.' ∉ next) := by
  have hlast := hb.eq_dot_iff (List.getLast_mem hb.ne_nil)
  have hhead := hnext.eq_dot_iff (List.head_mem hnext.ne_nil)
  simp only [sameKind, hlast, hhead, hb.ne_nil, hnext.ne_nil, ne_eq, not_false_eq_true, exists_true_left]
  by_cases hdot : '.' ∈ b <;> simp [hdot]

/-- A text has just one cut into alternating blocks. -/
theorem blocks_eq_iff : blocks cs = bs ↔ cs = bs.flatten ∧ AreBlocks bs := by
  rw [blocks, List.splitBy_eq_iff]
  constructor
  · rintro ⟨hcs, hne, hchain, hparted⟩
    have hblock : ∀ b ∈ bs, IsBlock b := by
      intro b hb
      exact isBlock_iff.2 ⟨fun he => hne (he ▸ hb), hchain b hb⟩
    have halternate := hparted.imp_of_mem_imp fun b next hb hnext =>
      ((hblock b hb).parted_iff (hblock next hnext)).1
    exact ⟨hcs, hblock, halternate⟩
  · rintro ⟨hcs, hbs⟩
    have hparted := hbs.alternate.imp_of_mem_imp fun b next hb hnext =>
      ((hbs.isBlock b hb).parted_iff (hbs.isBlock next hnext)).2
    refine ⟨hcs, fun hnil => (hbs.isBlock [] hnil).ne_nil rfl, fun b hb => ?_, hparted⟩
    exact (isBlock_iff.1 (hbs.isBlock b hb)).2

theorem AreBlocks.tail (h : AreBlocks (b :: bs)) : AreBlocks bs :=
  ⟨fun b hb => h.isBlock b (List.mem_cons_of_mem _ hb), h.alternate.tail⟩

/-- The end of a block is the end of a run of dots, if it has dots at all. -/
theorem AreBlocks.cut (h : AreBlocks (b :: bs)) :
    b.getLast? ≠ some '.' ∨ bs.flatten.head? ≠ some '.' := by
  by_cases hb : '.' ∈ b
  · right
    cases bs with
    | nil => simp
    | cons next bs =>
      have hnext : '.' ∉ next := (List.isChain_cons_cons.1 h.alternate).1.1 hb
      have hne := (h.tail.isBlock next List.mem_cons_self).ne_nil
      obtain ⟨c, next, rfl⟩ := List.exists_cons_of_ne_nil hne
      have hhead : (c :: next).head? ≠ some '.' := head?_of_notMem hnext
      exact hhead
  · exact Or.inl (getLast?_of_notMem hb)

/-- Each block is halved by itself. -/
theorem AreBlocks.halveDots_flatten (h : AreBlocks bs) : halveDots bs.flatten = (bs.map halved).flatten := by
  induction bs with
  | nil => rfl
  | cons b bs ih =>
    have hb := h.isBlock b List.mem_cons_self
    rw [List.flatten_cons, halveDots_append h.cut, hb.halveDots_eq, ih h.tail, List.map_cons, List.flatten_cons]

theorem AreBlocks.map_halved (h : AreBlocks bs) : AreBlocks (bs.map halved) := by
  constructor
  · rw [List.forall_mem_map]
    intro b hb
    exact (h.isBlock b hb).isBlock_halved
  · rw [List.isChain_map]
    simpa only [dot_mem_halved_iff] using h.alternate

theorem blocks_halveDots (cs : List Char) : blocks (halveDots cs) = (blocks cs).map halved := by
  obtain ⟨hcs, hblocks⟩ := blocks_eq_iff.1 (show blocks cs = blocks cs from rfl)
  refine blocks_eq_iff.2 ⟨?_, hblocks.map_halved⟩
  rw [← hblocks.halveDots_flatten, ← hcs]

end Name

/-- `Name.blocks` on strings. -/
def blocks (text : String) : List String := (Name.blocks text.toList).map .ofList

/-- `Name.halved` on strings. -/
def halved (block : String) : String := .ofList (Name.halved block.toList)

theorem join_blocks (text : String) : String.join (blocks text) = text := by
  have hflatten : (Name.blocks text.toList).flatten = text.toList := List.flatten_splitBy _ _
  rw [← String.toList_inj, String.toList_join, blocks, List.flatMap_map]
  simpa [List.flatMap_def] using hflatten

theorem blocks_halveDots (text : String) : blocks (halveDots text) = (blocks text).map halved := by
  rw [blocks, halveDots, String.toList_ofList, Name.blocks_halveDots, blocks, List.map_map, List.map_map]
  simp [halved, Function.comp_def]

example : (blocks "..a...b.").map halved = [".", "a", "..", "b", "."] := by decide

variable {names names' : List String}

theorem nameAlong_eq_dotted {scope : String} (hscope : scope = "" ∨ ∀ s ∈ nameSegments scope, IsSegment s)
    (hnames : ∀ s ∈ names, IsSegment s) :
    nameAlong scope names = dotted ((if scope = "" then [] else [scope]) ++ names) := by
  obtain ⟨segments, hsegments, rfl⟩ := exists_segments_iff.2 hscope
  rw [nameAlong, foldl_nameWithin_dotted hsegments hnames]
  by_cases hne : segments = []
  · rw [hne, dotted_nil, if_pos rfl]
  · rw [if_neg (dotted_ne_empty hsegments hne), List.singleton_append, dotted_cons_dotted hne]

theorem nameAlong_inj {scope : String} (hscope : scope = "" ∨ ∀ s ∈ nameSegments scope, IsSegment s)
    (hnames : ∀ s ∈ names, IsSegment s) (hnames' : ∀ s ∈ names', IsSegment s) :
    nameAlong scope names = nameAlong scope names' ↔ names = names' := by
  obtain ⟨segments, hsegments, rfl⟩ := exists_segments_iff.2 hscope
  rw [nameAlong, nameAlong, foldl_nameWithin_dotted hsegments hnames, foldl_nameWithin_dotted hsegments hnames',
    dotted_inj (List.forall_mem_append.2 ⟨hsegments, hnames⟩) (List.forall_mem_append.2 ⟨hsegments, hnames'⟩),
    List.append_cancel_left_eq]

/-- Each longest run of `k` dots becomes one of `⌈k / 2⌉` dots, and all else stays. So a name built up from a
scope of segments is the scope and the names with single dots between them, and no other names lead to it. -/
theorem dots_nameAlong :
    (∀ text, String.join (blocks text) = text ∧ blocks (halveDots text) = (blocks text).map halved) ∧
      ∀ scope, (scope = "" ∨ ∀ s ∈ nameSegments scope, IsSegment s) →
        ∀ names, (∀ s ∈ names, IsSegment s) →
          nameAlong scope names = dotted ((if scope = "" then [] else [scope]) ++ names) ∧
            ∀ names', (∀ s ∈ names', IsSegment s) →
              (nameAlong scope names = nameAlong scope names' ↔ names = names') := by
  constructor
  · intro text
    exact ⟨join_blocks text, blocks_halveDots text⟩
  · intro scope hscope names hnames
    refine ⟨nameAlong_eq_dotted hscope hnames, ?_⟩
    intro names' hnames'
    exact nameAlong_inj hscope hnames hnames'

theorem dots_nameAlong_nested :
    blocks (halveDots "..a...b.") = [".", "a", "..", "b", "."] ∧ nameAlong "a.b" ["M", "N"] = "a.b.M.N" ∧
      nameAlong "a.b" ["M", "N"] ≠ nameAlong "a.b" ["MN"] := by
  obtain ⟨hblocks, hnames⟩ := dots_nameAlong
  have hscope : "a.b" = "" ∨ ∀ s ∈ nameSegments "a.b", IsSegment s := by decide
  obtain ⟨hjoined, hinj⟩ := hnames "a.b" hscope ["M", "N"] (by decide)
  refine ⟨?_, ?_, ?_⟩
  · rw [(hblocks "..a...b.").2]
    decide
  · rw [hjoined]
    decide
  · rw [ne_eq, hinj ["MN"] (by decide)]
    decide

end ProtoLink
