import ProtoLink.Proofs.Declaration

/-! What registering leaves of the files: all but their map entries, in the same order. -/
namespace ProtoLink

namespace Message

mutual

/-- The message without the map entries at any depth below it. -/
def pruned : Message → Message
  | ⟨name, fields, messages, enums, options⟩ => ⟨name, fields, allPruned messages, enums, options⟩

/-- The messages of a scope that are no map entries, each pruned. -/
def allPruned : List Message → List Message
  | [] => []
  | m :: ms => if m.isMapEntry then allPruned ms else pruned m :: allPruned ms

end

mutual

/-- A message and those below it in the order of the text. Each one stands at the end of a line that comes down to
it through the messages around it; all of them are taken without what is nested in them. -/
def outline : Message → List (List Message)
  | ⟨name, fields, messages, enums, options⟩ =>
    [⟨name, fields, [], enums, options⟩] ::
      (allOutline messages).map (⟨name, fields, [], enums, options⟩ :: ·)

def allOutline : List Message → List (List Message)
  | [] => []
  | m :: ms => outline m ++ allOutline ms

end

/-- A line that comes through no map entry and does not end at one. -/
def isFree (line : List Message) : Bool := line.all fun m => !m.isMapEntry

theorem ne_nil_of_mem_outline {m : Message} {line : List Message} (h : line ∈ m.outline) :
    line ≠ [] := by
  cases m
  simp only [outline, List.mem_cons, List.mem_map] at h
  obtain rfl | ⟨_, _, rfl⟩ := h <;> simp

theorem ne_nil_of_mem_allOutline {ms : List Message} {line : List Message} (h : line ∈ allOutline ms) :
    line ≠ [] := by
  induction ms with
  | nil => simp [allOutline] at h
  | cons m ms ih =>
    rw [allOutline, List.mem_append] at h
    exact h.elim ne_nil_of_mem_outline ih

/-- A scope goes on with a message of its own, not with one below the last. -/
theorem takeWhile_below (self : Message) (lines : List (List Message)) (ms : List Message)
    (h : ∀ line ∈ lines, line ≠ []) :
    (lines.map (self :: ·) ++ allOutline ms).takeWhile (2 ≤ ·.length) = lines.map (self :: ·) := by
  rw [List.takeWhile_append_of_pos]
  · have hms : (allOutline ms).takeWhile (2 ≤ ·.length) = [] := by
      cases ms with
      | nil => rfl
      | cons m ms => cases m; simp [allOutline, outline]
    rw [hms, List.append_nil]
  · intro line hline
    obtain ⟨line, hl, rfl⟩ := List.mem_map.1 hline
    have := List.length_pos_iff.2 (h line hl)
    simp only [List.length_cons, decide_eq_true_eq]
    omega

/-- No two scopes have one outline. -/
theorem allOutline_inj : (ms ns : List Message) → allOutline ms = allOutline ns → ms = ns
  | [], [], _ => rfl
  | [], n :: ns, h => by
    cases n
    simp [allOutline, outline] at h
  | m :: ms, [], h => by
    cases m
    simp [allOutline, outline] at h
  | ⟨name, fields, below, enums, options⟩ :: ms, ⟨name', fields', below', enums', options'⟩ :: ns, h => by
    simp only [allOutline, outline, List.cons_append, List.cons.injEq, and_true] at h
    obtain ⟨hself, hrest⟩ := h
    rw [hself] at hrest
    have htop := congrArg (List.takeWhile (2 ≤ ·.length)) hrest
    rw [takeWhile_below _ _ _ fun _ => ne_nil_of_mem_allOutline,
      takeWhile_below _ _ _ fun _ => ne_nil_of_mem_allOutline] at htop
    rw [htop] at hrest
    have hlines := (List.map_inj_right fun _ _ => (List.cons.inj · |>.2)).1 htop
    have hbelow := allOutline_inj below below' hlines
    have hnext := allOutline_inj ms ns (List.append_cancel_left hrest)
    cases hself
    rw [hbelow, hnext]

theorem isMapEntry_pruned (m : Message) : m.pruned.isMapEntry = m.isMapEntry := by
  cases m
  rfl

mutual

/-- Pruning takes out no type. -/
theorem chains_pruned : (m : Message) → m.pruned.chains = m.chains
  | ⟨_, _, messages, _, _⟩ => by
    simp only [pruned, chains]
    rw [allChains_allPruned messages]

theorem allChains_allPruned : (ms : List Message) → allChains (allPruned ms) = allChains ms
  | [] => rfl
  | m :: ms => by
    have hname : m.pruned.name = m.name := by
      cases m
      rfl
    cases h : m.isMapEntry with
    | true => simp only [allPruned, allChains, h, if_true, allChains_allPruned ms]
    | false =>
      simp only [allPruned, allChains, h, isMapEntry_pruned, Bool.false_eq_true, if_false, hname,
        chains_pruned m, allChains_allPruned ms]

end

theorem filter_isMapEntry_allPruned (ms : List Message) : (allPruned ms).filter isMapEntry = [] := by
  induction ms with
  | nil => rfl
  | cons m ms ih =>
    rw [allPruned]
    cases h : m.isMapEntry with
    | true => rwa [if_pos rfl]
    | false => simpa [isMapEntry_pruned, h] using ih

mutual

/-- Pruning takes out every map entry. -/
theorem entries_pruned : (m : Message) → m.pruned.entries = []
  | ⟨_, _, messages, _, _⟩ => by
    simp only [pruned, entries]
    rw [filter_isMapEntry_allPruned, allEntries_allPruned messages, List.map_nil, List.nil_append]

theorem allEntries_allPruned : (ms : List Message) → allEntries (allPruned ms) = []
  | [] => rfl
  | m :: ms => by
    cases h : m.isMapEntry with
    | true => simp only [allPruned, h, if_true, allEntries_allPruned ms]
    | false =>
      simp only [allPruned, allEntries, h, isMapEntry_pruned, Bool.false_eq_true, if_false, entries_pruned m,
        allEntries_allPruned ms, List.map_nil, List.append_nil]

end

/-- A line that goes through a map entry is no longer there after pruning, and all others are. -/
theorem filter_map_cons (self : Message) (lines : List (List Message)) :
    (lines.map (self :: ·)).filter isFree =
      if self.isMapEntry then [] else (lines.filter isFree).map (self :: ·) := by
  have hline : ∀ line, isFree (self :: line) = (!self.isMapEntry && isFree line) := fun _ => rfl
  rw [List.filter_map]
  cases h : self.isMapEntry <;> simp [Function.comp_def, hline, h]

mutual

theorem outline_pruned : (m : Message) → m.isMapEntry = false → m.pruned.outline = m.outline.filter isFree
  | ⟨name, fields, messages, enums, options⟩, h => by
    have hself : (⟨name, fields, [], enums, options⟩ : Message).isMapEntry = false := h
    have hfree : isFree [⟨name, fields, [], enums, options⟩] = true := by simp [isFree, hself]
    simp only [pruned, outline, List.filter_cons, hfree, if_true, filter_map_cons, hself,
      outline_allPruned messages, Bool.false_eq_true, if_false]

theorem outline_allPruned : (ms : List Message) → allOutline (allPruned ms) = (allOutline ms).filter isFree
  | [] => rfl
  | m :: ms => by
    simp only [allPruned, allOutline, List.filter_append]
    cases h : m.isMapEntry with
    | false =>
      simp only [Bool.false_eq_true, if_false, allOutline]
      rw [outline_pruned m h, outline_allPruned ms]
    | true =>
      -- a map entry stands at the head of all of its lines
      have hgone : m.outline.filter isFree = [] := by
        obtain ⟨name, fields, messages, enums, options⟩ := m
        have hself : (⟨name, fields, [], enums, options⟩ : Message).isMapEntry = true := h
        have hfree : isFree [⟨name, fields, [], enums, options⟩] = false := by simp [isFree, hself]
        simp [outline, hfree, filter_map_cons, hself]
      rw [if_pos rfl, outline_allPruned ms, hgone, List.nil_append]

end

end Message

namespace ProtoFile

/-- The file without its map entries. -/
def pruned (f : ProtoFile) : ProtoFile := { f with messages := Message.allPruned f.messages }

/-- The file apart from its messages. -/
def header (f : ProtoFile) : ProtoFile := { f with messages := [] }

def outline (f : ProtoFile) : List (List Message) := Message.allOutline f.messages

theorem header_pruned (f : ProtoFile) : f.pruned.header = f.header := rfl

theorem outline_pruned (f : ProtoFile) : f.pruned.outline = f.outline.filter Message.isFree :=
  Message.outline_allPruned f.messages

theorem chains_pruned (f : ProtoFile) : f.pruned.chains = f.chains := by
  rw [chains, chains, pruned, Message.allChains_allPruned]

theorem entries_pruned (f : ProtoFile) : f.pruned.entries = [] := by
  rw [entries, pruned, Message.filter_isMapEntry_allPruned, Message.allEntries_allPruned, List.map_nil,
    List.nil_append]

/-- A file is known by its header and its outline. -/
theorem eq_of_outline {f g : ProtoFile} (hh : f.header = g.header) (ho : f.outline = g.outline) : f = g := by
  have hm : f.messages = g.messages := Message.allOutline_inj _ _ ho
  cases f
  cases g
  cases hh
  cases hm
  rfl

theorem eq_of_outlines {fs gs : List ProtoFile} (hh : fs.map header = gs.map header)
    (ho : fs.map outline = gs.map outline) : fs = gs := by
  induction fs generalizing gs with
  | nil => exact (List.map_eq_nil_iff.1 hh.symm).symm
  | cons f fs ih =>
    cases gs with
    | nil => simp at hh
    | cons g gs =>
      simp only [List.map_cons, List.cons.injEq] at hh ho
      rw [eq_of_outline hh.1 ho.1, ih hh.2 ho.2]

theorem pruned_pruned (f : ProtoFile) : f.pruned.pruned = f.pruned := by
  apply eq_of_outline (header_pruned _)
  rw [outline_pruned, outline_pruned, List.filter_filter]
  simp only [Bool.and_self]

end ProtoFile

namespace Batch

variable (path : String)

mutual

theorem registerWithin_snd (scope : String) (b : Batch) :
    (m : Message) → (registerWithin path scope b m).2 = m.pruned
  | ⟨_, _, messages, _, _⟩ => by
    simp only [registerWithin, Message.pruned]
    rw [registerMessages_snd scope _ messages]

theorem registerMessages_snd (scope : String) (b : Batch) :
    (ms : List Message) → (registerMessages path scope b ms).2 = Message.allPruned ms
  | [] => rfl
  | m :: ms => by
    simp only [registerMessages, Message.allPruned]
    split
    · exact registerMessages_snd scope b ms
    · rw [registerWithin_snd _ _ m, registerMessages_snd scope _ ms]

end

theorem register_snd (b : Batch) (f : ProtoFile) : (b.register f).2 = f.pruned := by
  simp only [register, registerAs, ProtoFile.pruned, registerMessages_snd]

theorem registerAll_snd (b : Batch) (files : List ProtoFile) :
    (b.registerAll files).2 = files.map ProtoFile.pruned := by
  induction files generalizing b with
  | nil => rfl
  | cons f files ih =>
    simp only [registerAll, List.map_cons]
    rw [register_snd, ih]

/-- Registering gives the files back with the same headers and without all lines through map entries, so no
map entry is left at any depth. Registering them again takes out nothing. -/
theorem registered_files (b : Batch) (files : List ProtoFile) :
    let kept := (b.registerAll files).2
    (∀ others : List ProtoFile, others = kept ↔
      others.map ProtoFile.header = files.map ProtoFile.header ∧
        others.map ProtoFile.outline = files.map fun f => f.outline.filter Message.isFree) ∧
      (∀ f ∈ kept, ∀ line ∈ f.outline, ∀ m ∈ line, m.isMapEntry = false) ∧
      ∀ other : Batch, (other.registerAll kept).2 = kept := by
  intro kept
  have hkept : kept = files.map ProtoFile.pruned := registerAll_snd b files
  refine ⟨?_, ?_, ?_⟩
  · intro others
    constructor
    · rintro rfl
      simp only [hkept, List.map_map, Function.comp_def, ProtoFile.header_pruned, ProtoFile.outline_pruned,
        and_self]
    · rintro ⟨hh, ho⟩
      apply ProtoFile.eq_of_outlines
      · simpa only [hkept, List.map_map, Function.comp_def, ProtoFile.header_pruned] using hh
      · simpa only [hkept, List.map_map, Function.comp_def, ProtoFile.outline_pruned] using ho
  · intro f hf line hline m hm
    rw [hkept] at hf
    obtain ⟨g, _, rfl⟩ := List.mem_map.1 hf
    rw [ProtoFile.outline_pruned] at hline
    have hfree := (List.mem_filter.1 hline).2
    simpa using List.all_eq_true.1 hfree m hm
  · intro other
    rw [registerAll_snd, hkept, List.map_map]
    apply List.map_congr_left
    intro f _
    exact f.pruned_pruned

end Batch
end ProtoLink
