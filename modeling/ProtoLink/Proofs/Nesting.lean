import ProtoLink.Proofs.Pruning

/-! How deep messages are nested. Registering can be held to a number of levels: it gives what it gives without the
bound if all messages that registering keeps stand within these levels, and nothing otherwise. -/
namespace ProtoLink

namespace Message

/-- The message and those below it take up no more than so many levels. -/
def IsWithin (levels : Nat) (m : Message) : Prop := ∀ line ∈ m.outline, line.length ≤ levels

instance (levels : Nat) (m : Message) : Decidable (m.IsWithin levels) :=
  inferInstanceAs (Decidable (∀ line ∈ m.outline, line.length ≤ levels))

theorem mem_allOutline {line : List Message} {ms : List Message} :
    line ∈ allOutline ms ↔ ∃ m ∈ ms, line ∈ m.outline := by
  induction ms with
  | nil => simp [allOutline]
  | cons m ms ih => simp only [allOutline, List.mem_append, ih, List.mem_cons, exists_eq_or_imp]

theorem forall_allOutline_iff {levels : Nat} {ms : List Message} :
    (∀ line ∈ allOutline ms, line.length ≤ levels) ↔ ∀ m ∈ ms, m.IsWithin levels := by
  simp only [mem_allOutline, IsWithin]
  exact ⟨fun h m hm line hline => h line ⟨m, hm, hline⟩, fun h line ⟨m, hm, hline⟩ => h m hm line hline⟩

/-- A message takes up a level of its own. -/
theorem not_isWithin_zero (m : Message) : ¬ m.IsWithin 0 := by
  cases m
  simp [IsWithin, outline]

theorem isWithin_succ_iff {levels : Nat} {m : Message} :
    m.IsWithin (levels + 1) ↔ ∀ below ∈ m.messages, below.IsWithin levels := by
  cases m
  rw [← forall_allOutline_iff]
  simp [IsWithin, outline]

end Message

namespace Batch

variable (path : String)

mutual

/-- As `registerWithin`, with no more than so many levels of messages inside the message. -/
def registerWithinTo? (scope : String) (levels : Nat) (b : Batch) : Message → Option (Batch × Message)
  | ⟨name, fields, messages, enums, options⟩ => do
    let b := (b.declareEnums path scope enums).enterMapEntries scope messages
    let (b, kept) ← registerMessagesTo? scope levels b messages
    some (b, ⟨name, fields, kept, enums, options⟩)

/-- As `registerMessages`, with no more than so many levels of messages, of which these take up the first. -/
def registerMessagesTo? (scope : String) (levels : Nat) (b : Batch) : List Message → Option (Batch × List Message)
  | [] => some (b, [])
  | m :: ms =>
    if m.isMapEntry then registerMessagesTo? scope levels b ms
    else
      match levels with
      | 0 => none
      | inner + 1 => do
        let name := nameWithin scope m.name
        let (b, m) ← registerWithinTo? name inner (b.declare path name) m
        let (b, ms) ← registerMessagesTo? scope (inner + 1) b ms
        some (b, m :: ms)

end

/-- As `register`, with no more than so many levels of messages in the file. -/
def registerTo? (levels : Nat) (b : Batch) (f : ProtoFile) : Option (Batch × ProtoFile) := do
  let b := { b with packages := b.packages ++ [f.package] }
  let b := (b.declareEnums f.name f.package f.enums).enterMapEntries f.package f.messages
  let (b, kept) ← registerMessagesTo? f.name f.package levels b f.messages
  some (b, { f with messages := kept })

def registerAllTo? (levels : Nat) (b : Batch) : List ProtoFile → Option (Batch × List ProtoFile)
  | [] => some (b, [])
  | f :: fs => do
    let (b, f) ← b.registerTo? levels f
    let (b, fs) ← b.registerAllTo? levels fs
    some (b, f :: fs)

/-- As `load`, with no more than so many levels of messages in every file. -/
def loadTo? (levels : Nat) (b : Batch) (set : FileSet) : Option Batch := do
  let (b, files) ← b.registerAllTo? levels set.files
  some { b with files := b.files ++ files }

mutual

theorem registerWithinTo?_eq (scope : String) (levels : Nat) (b : Batch) : (m : Message) →
    registerWithinTo? path scope levels b m =
      if ∀ below ∈ m.pruned.messages, below.IsWithin levels then some (registerWithin path scope b m) else none
  | ⟨_, _, messages, _, _⟩ => by
    rw [registerWithinTo?, registerMessagesTo?_eq scope levels _ messages, registerWithin, Message.pruned]
    split <;> rfl

theorem registerMessagesTo?_eq (scope : String) (levels : Nat) (b : Batch) : (ms : List Message) →
    registerMessagesTo? path scope levels b ms =
      if ∀ m ∈ Message.allPruned ms, m.IsWithin levels then some (registerMessages path scope b ms) else none
  | [] => by simp [registerMessagesTo?, registerMessages, Message.allPruned]
  | m :: ms => by
    rw [registerMessages, Message.allPruned]
    cases hm : m.isMapEntry with
    | true =>
      simp only [registerMessagesTo?, hm, if_true]
      exact registerMessagesTo?_eq scope levels b ms
    | false =>
      simp only [Bool.false_eq_true, if_false, List.forall_mem_cons]
      cases levels with
      | zero =>
        rw [if_neg fun h => Message.not_isWithin_zero _ h.1]
        simp only [registerMessagesTo?, hm, Bool.false_eq_true, if_false]
      | succ inner =>
        have hself : m.pruned.IsWithin (inner + 1) ↔ ∀ below ∈ m.pruned.messages, below.IsWithin inner :=
          Message.isWithin_succ_iff
        simp only [registerMessagesTo?, hm, Bool.false_eq_true, if_false, registerWithinTo?_eq _ inner _ m, hself]
        by_cases hbelow : ∀ below ∈ m.pruned.messages, below.IsWithin inner
        · simp only [if_pos hbelow, and_iff_right hbelow, Option.bind_eq_bind, Option.bind_some,
            registerMessagesTo?_eq scope (inner + 1) _ ms]
          split <;> rfl
        · rw [if_neg hbelow, if_neg fun h => hbelow h.1]
          rfl

end

theorem registerTo?_eq (levels : Nat) (b : Batch) (f : ProtoFile) :
    b.registerTo? levels f = if ∀ m ∈ f.pruned.messages, m.IsWithin levels then some (b.register f) else none := by
  rw [registerTo?, registerMessagesTo?_eq, register, registerAs, ProtoFile.pruned]
  split <;> rfl

theorem registerAllTo?_eq (levels : Nat) (b : Batch) (files : List ProtoFile) :
    b.registerAllTo? levels files =
      if ∀ f ∈ files, ∀ m ∈ f.pruned.messages, m.IsWithin levels then some (b.registerAll files) else none := by
  induction files generalizing b with
  | nil => simp [registerAllTo?, registerAll]
  | cons f files ih =>
    rw [registerAllTo?, registerAll, registerTo?_eq]
    simp only [List.forall_mem_cons]
    by_cases hf : ∀ m ∈ f.pruned.messages, m.IsWithin levels
    · simp only [if_pos hf, and_iff_right hf, Option.bind_eq_bind, Option.bind_some, ih]
      split <;> rfl
    · rw [if_neg hf, if_neg fun h => hf h.1]
      rfl

/-- Loading within a bound fails if and only if a line through no map entry is longer than the bound allows. -/
theorem loadTo?_eq (levels : Nat) (b : Batch) (set : FileSet) :
    b.loadTo? levels set =
      if ∀ f ∈ set.files, ∀ line ∈ f.outline, Message.isFree line → line.length ≤ levels then some (b.load set)
      else none := by
  have hlines : ∀ f : ProtoFile, (∀ m ∈ f.pruned.messages, m.IsWithin levels) ↔
      ∀ line ∈ f.outline, Message.isFree line → line.length ≤ levels := by
    intro f
    rw [← Message.forall_allOutline_iff, ← ProtoFile.outline, ProtoFile.outline_pruned]
    simp only [List.mem_filter, and_imp]
  rw [loadTo?, registerAllTo?_eq]
  simp only [hlines]
  split <;> rfl

end Batch
end ProtoLink
