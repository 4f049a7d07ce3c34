import ProtoLink.Batch.Opening
import ProtoLink.Proofs.Datum.Conformance
import ProtoLink.Proofs.Loading
import ProtoLink.Proofs.Nesting

/-! How deep the messages of a set that was read can be nested. A message is two lists and records deeper in
the document than the one around it, so the bound of the reader leaves room for 62 levels. -/
namespace ProtoLink

open Json (IsTextOf Spells Tree)

namespace Datum

variable {R : Shape → Tree → Datum → Prop} {kind : RecordKind} {item : Shape} {m : Member} {levels : Nat}
  {t : Tree} {d : Datum} {ds : List Datum}

/-- A slot of a described record: some document says of the member what the slot holds, or it is the fallback. -/
def IsFilled (R : Shape → Tree → Datum → Prop) (m : Member) (d : Datum) : Prop :=
  m.fallback? = some d ∨ ∃ t, DescribesMember R m t d

theorem DescribesSlots.isFilled {ms : List Member} {ts : List Tree} (h : DescribesSlots R ms ts ds) :
    List.Forall₂ (IsFilled R) ms ds := by
  induction h with
  | nil => exact .nil
  | rest h _ ih => exact .cons (.inl h) ih
  | cons h _ ih => exact .cons (.inr ⟨_, h⟩) ih

/-- What is given for a member comes from a document for it. -/
theorem Gathers.exists_describesMember {members : List (List Char × Tree)} {given : List (String × Datum)}
    (h : Gathers R kind members given) (hm : m ∈ kind.members) (hd : (m.name, d) ∈ given) :
    ∃ t, DescribesMember R m t d := by
  induction h with
  | nil => cases hd
  | other _ _ ih => exact ih hd
  | member hkey ht _ ih =>
    obtain heq | hd := List.mem_cons.1 hd
    · obtain ⟨hname, rfl⟩ := Prod.mk.inj heq
      obtain rfl := RecordKind.eq_of_name_eq hm hkey.mem hname
      exact ⟨_, ht⟩
    · exact ih hd

theorem DescribesObject.isFilled {members : List (List Char × Tree)} (h : DescribesObject R kind members ds) :
    List.Forall₂ (IsFilled R) kind.members ds := by
  obtain ⟨given, hgathers, -, hds⟩ := h
  refine ((List.forall₂_and_left kind.members ds).2 ⟨fun m hm => hm, hds⟩).imp fun m d ⟨hm, hd⟩ => ?_
  obtain hd | ⟨-, hd⟩ := hd
  · exact .inr (hgathers.exists_describesMember hm hd)
  · exact .inl hd

/-- A record takes up a level, be it an object or an array. -/
theorem Describes.isFilled (h : Describes levels (.record kind) t d) :
    ∃ inner ds, levels = inner + 1 ∧ d = .record ds ∧ List.Forall₂ (IsFilled (Describes inner)) kind.members ds := by
  cases levels with
  | zero => cases h
  | succ inner =>
    obtain h | h := h
    · cases h
    · cases h with
      | array h => exact ⟨inner, _, rfl, rfl, h.isFilled⟩
      | object h => exact ⟨inner, _, rfl, rfl, h.isFilled⟩

/-- The items of a list are described by documents, with one level less than there is for the list. -/
def AreItems (levels : Nat) (item : Shape) (ds : List Datum) : Prop :=
  ∀ d ∈ ds, ∃ inner t, levels = inner + 1 ∧ Describes inner item t d

theorem AreItems.forall_mem_map {α : Type} {ofDatum : Datum → α} {P : α → Prop} (h : AreItems levels item ds)
    (hP : ∀ inner t d, levels = inner + 1 → Describes inner item t d → P (ofDatum d)) :
    ∀ a ∈ ds.map ofDatum, P a := by
  intro a ha
  obtain ⟨d, hd, rfl⟩ := List.mem_map.1 ha
  obtain ⟨inner, t, hlevels, ht⟩ := h d hd
  exact hP inner t d hlevels ht

theorem Describes.areItems (h : Describes levels (.list item) t d) : ∃ ds, d = .list ds ∧ AreItems levels item ds := by
  cases levels with
  | zero => cases h
  | succ inner =>
    obtain h | h := h
    · cases h
    · cases h with
      | list h =>
        refine ⟨_, rfl, fun d hd => ?_⟩
        obtain ⟨t, ht⟩ := exists_forall₂_iff.1 ⟨_, h.flip⟩ d hd
        exact ⟨inner, t, rfl, ht⟩

/-- A list that is left out is empty. -/
theorem IsFilled.areItems (h : IsFilled (Describes levels) m d) (hshape : m.shape = .list item)
    (hpresence : m.presence = .defaulted) : ∃ ds, d = .list ds ∧ AreItems levels item ds := by
  obtain h | ⟨t, h⟩ := h
  · rw [Member.fallback?, hpresence, hshape] at h
    obtain rfl := Option.some.inj h
    exact ⟨[], rfl, by simp [AreItems]⟩
  · cases h with
    | null h =>
      rw [hpresence] at h
      cases h
    | value h =>
      rw [hshape] at h
      exact h.areItems

end Datum

open Datum (AreItems Describes IsFilled)

variable {levels : Nat} {t : Tree} {d : Datum}

theorem Message.allOfDatum_eq_map (ds : List Datum) : allOfDatum ds = ds.map ofDatum := by
  induction ds with
  | nil => rfl
  | cons d ds ih => rw [allOfDatum, ih, List.map_cons]

theorem Message.exists_areItems (h : Describes levels (.record .message) t d) :
    ∃ inner ds, levels = inner + 1 ∧ (ofDatum d).messages = ds.map ofDatum ∧ AreItems inner (.record .message) ds := by
  obtain ⟨inner, slots, rfl, rfl, hslots⟩ := h.isFilled
  simp only [RecordKind.members] at hslots
  obtain _ | ⟨_, _ | ⟨_, _ | ⟨hnested, _ | ⟨_, _ | ⟨_, _ | _⟩⟩⟩⟩⟩ := hslots
  obtain ⟨ds, rfl, hds⟩ := hnested.areItems rfl rfl
  exact ⟨inner, ds, rfl, allOfDatum_eq_map ds, hds⟩

theorem ProtoFile.exists_areItems (h : Describes levels (.record .protoFile) t d) :
    ∃ inner ds, levels = inner + 1 ∧ (ofDatum d).messages = ds.map Message.ofDatum ∧
      AreItems inner (.record .message) ds := by
  obtain ⟨inner, slots, rfl, rfl, hslots⟩ := h.isFilled
  simp only [RecordKind.members] at hslots
  obtain _ | ⟨_, _ | ⟨_, _ | ⟨_, _ | ⟨hmessages, _ | ⟨_, _ | _⟩⟩⟩⟩⟩ := hslots
  obtain ⟨ds, rfl, hds⟩ := hmessages.areItems rfl rfl
  exact ⟨inner, ds, rfl, Message.allOfDatum_eq_map ds, hds⟩

theorem FileSet.exists_areItems (h : Describes levels (.record .fileSet) t d) :
    ∃ inner ds, levels = inner + 1 ∧ (ofDatum d).files = ds.map ProtoFile.ofDatum ∧
      AreItems inner (.record .protoFile) ds := by
  obtain ⟨inner, slots, rfl, rfl, hslots⟩ := h.isFilled
  simp only [RecordKind.members] at hslots
  obtain _ | ⟨hfiles, _ | _⟩ := hslots
  obtain ⟨ds, rfl, hds⟩ := hfiles.areItems rfl rfl
  exact ⟨inner, ds, rfl, rfl, hds⟩

/-- Every level of messages takes two of the document: that of the message and that of the list which it is in. -/
theorem Message.isWithin_ofDatum (levels : Nat) {t : Tree} {d : Datum} (h : Describes levels (.record .message) t d) :
    (ofDatum d).IsWithin ((levels + 1) / 2) := by
  induction levels using Nat.strongRecOn generalizing t d with
  | ind levels ih =>
    obtain ⟨inner, ds, rfl, hmessages, hds⟩ := exists_areItems h
    have hhalf : (inner + 1 + 1) / 2 = inner / 2 + 1 := by omega
    rw [hhalf, isWithin_succ_iff, hmessages]
    refine hds.forall_mem_map fun innermost t d hinner ht => ?_
    subst hinner
    exact ih innermost (by omega) ht

theorem ProtoFile.isWithin_ofDatum (h : Describes levels (.record .protoFile) t d) :
    ∀ m ∈ (ofDatum d).messages, m.IsWithin ((levels - 1) / 2) := by
  obtain ⟨inner, ds, rfl, hmessages, hds⟩ := exists_areItems h
  rw [hmessages]
  refine hds.forall_mem_map fun innermost t d hinner ht => ?_
  subst hinner
  exact Message.isWithin_ofDatum innermost ht

theorem FileSet.isWithin_ofDatum (h : Describes levels (.record .fileSet) t d) :
    ∀ f ∈ (ofDatum d).files, ∀ m ∈ f.messages, m.IsWithin ((levels - 3) / 2) := by
  obtain ⟨inner, ds, rfl, hfiles, hds⟩ := exists_areItems h
  rw [hfiles]
  refine hds.forall_mem_map fun innermost t d hinner ht => ?_
  subst hinner
  exact ProtoFile.isWithin_ofDatum ht

theorem FileSet.parse_eq_ok_iff {text : String} {s : FileSet} :
    parse text = .ok s ↔ ∃ t d, IsTextOf text.toList t ∧ Describes 127 (.record .fileSet) t d ∧ ofDatum d = s := by
  have hparse : parse text = .ok s ↔ ∃ d, Datum.ofText (.record .fileSet) text.toList = .ok d ∧ ofDatum d = s := by
    unfold parse
    cases Datum.ofText (.record .fileSet) text.toList <;> simp [Except.map]
  rw [hparse]
  constructor
  · rintro ⟨d, hread, hd⟩
    obtain ⟨t, htext, ht⟩ := Datum.ofText_eq_ok_iff.1 hread
    exact ⟨t, d, htext, ht, hd⟩
  · rintro ⟨t, d, htext, ht, hd⟩
    exact ⟨d, Datum.ofText_eq_ok_iff.2 ⟨t, htext, ht⟩, hd⟩

theorem Batch.ofText_eq_ok_iff {settings : Settings} {text : String} {b : Batch} :
    ofText settings text = .ok b ↔ ∃ s, FileSet.parse text = .ok s ∧ ({ settings } : Batch).load s = b := by
  rw [ofText, readSet]
  cases FileSet.parse text <;> simp [Except.map, Except.mapError]

/-! Sets that are nested as deep as can be -/

theorem exists_spells_array {ts : List Tree} (h : ∀ t ∈ ts, ∃ text, Spells t text) :
    ∃ text, Spells (.array ts) text := by
  have hitems : ∀ first, ∃ text, Json.SpellsItems first ts text := by
    induction ts with
    | nil => exact fun first => ⟨_, .nil .nil⟩
    | cons t ts ih =>
      intro first
      obtain ⟨text, ht⟩ := h t List.mem_cons_self
      obtain ⟨rest, hrest⟩ := ih (fun t ht => h t (List.mem_cons_of_mem _ ht)) false
      cases first with
      | true => exact ⟨_, .cons (.first .nil) ht hrest⟩
      | false => exact ⟨_, .cons (.later .nil .nil) ht hrest⟩
  obtain ⟨text, htext⟩ := hitems true
  exact ⟨_, .array htext⟩

namespace Message

/-- A message with so many levels below it, one message in each. -/
def tower : Nat → Message
  | 0 => { name := "M" }
  | n + 1 => { name := "M", messages := [tower n] }

theorem exists_mem_outline_tower (n : Nat) : ∃ line ∈ (tower n).outline, line.length = n + 1 ∧ isFree line = true := by
  induction n with
  | zero => exact ⟨[{ name := "M" }], by simp [tower, outline], rfl, rfl⟩
  | succ n ih =>
    obtain ⟨line, hline, hlength, hfree⟩ := ih
    refine ⟨{ name := "M" } :: line, ?_, by rw [List.length_cons, hlength], hfree⟩
    simp only [tower, outline, allOutline, List.append_nil]
    exact List.mem_cons_of_mem _ (List.mem_map_of_mem hline)

/-- A document for a tower: each message is an array without the members behind the last one that it has. -/
def towerTree : Nat → Tree
  | 0 => .array [.string ['M']]
  | n + 1 => .array [.string ['M'], .array [], .array [towerTree n]]

theorem denotes_name : Json.Denotes ['M'] "M".toList := Json.denotes_escape ['M']

theorem exists_spells_towerTree (n : Nat) : ∃ text, Spells (towerTree n) text := by
  have hname : ∃ text, Spells (.string ['M']) text := ⟨_, .string denotes_name.isString⟩
  induction n with
  | zero => exact exists_spells_array (by simpa using hname)
  | succ n ih =>
    have hnested : ∃ text, Spells (.array [towerTree n]) text := exists_spells_array (by simpa using ih)
    exact exists_spells_array (by simp [hname, hnested, exists_spells_array])

/-- Under each message there are two levels for the next one, and the last one needs a single level. -/
theorem describes_towerTree (n : Nat) {levels : Nat} (h : 2 * n + 1 ≤ levels) :
    Describes levels (.record .message) (towerTree n) (tower n).toDatum := by
  have hname : ∀ levels, Datum.DescribesMember (Describes levels)
      { name := "name", shape := .text, presence := .required } (.string ['M']) (.text "M") :=
    fun levels => .value ((Datum.DescribesLeaf.text denotes_name).describes levels)
  induction n generalizing levels with
  | zero =>
    obtain ⟨inner, rfl⟩ : ∃ inner, levels = inner + 1 := ⟨levels - 1, by omega⟩
    exact .inr (.array (.cons (hname _) (.rest rfl (.rest rfl (.rest rfl (.rest rfl .nil))))))
  | succ n ih =>
    obtain ⟨inner, rfl⟩ : ∃ inner, levels = inner + 2 := ⟨levels - 2, by omega⟩
    have hfields : Describes (inner + 1) (.list (.record .field)) (.array []) (.list []) := .inr (.list .nil)
    have hbelow : Describes inner (.record .message) (towerTree n) (tower n).toDatum := ih (by omega)
    have hnested : Describes (inner + 1) (.list (.record .message)) _ _ := .inr (.list (.cons hbelow .nil))
    exact .inr (.array (.cons (hname _) (.cons (.value hfields) (.cons (.value hnested) (.rest rfl (.rest rfl .nil))))))

end Message

namespace FileSet

/-- A set of one file that holds nothing but a tower. -/
def tower (n : Nat) : FileSet := ⟨[{ messages := [Message.tower n] }]⟩

def towerTree (n : Nat) : Tree :=
  .array [.array [.array [.string [], .string [], .array [], .array [Message.towerTree n]]]]

theorem exists_spells_towerTree (n : Nat) : ∃ text, Spells (towerTree n) text := by
  have hempty : ∃ text, Spells (.string []) text := ⟨_, .string .nil⟩
  have hmessages : ∃ text, Spells (.array [Message.towerTree n]) text :=
    exists_spells_array (by simpa using Message.exists_spells_towerTree n)
  have hfile : ∃ text, Spells (.array [.string [], .string [], .array [], .array [Message.towerTree n]]) text :=
    exists_spells_array (by simp [hempty, hmessages, exists_spells_array])
  exact exists_spells_array (by simpa using exists_spells_array (by simpa using hfile))

/-- There is room for a tower of 62 messages. -/
theorem describes_towerTree {n : Nat} (h : n < 62) :
    Describes 127 (.record .fileSet) (towerTree n) (tower n).toDatum := by
  have hempty : Describes 124 .text (.string []) (.text "") := .inl (.text .nil)
  have hdependencies : Describes 124 (.list .text) (.array []) (.list []) := .inr (.list .nil)
  have hmessage : Describes 123 (.record .message) (Message.towerTree n) (Message.tower n).toDatum :=
    Message.describes_towerTree n (by omega)
  have hmessages : Describes 124 (.list (.record .message)) _ _ := .inr (.list (.cons hmessage .nil))
  have hfile : Describes 125 (.record .protoFile)
      (.array [.string [], .string [], .array [], .array [Message.towerTree n]])
      (ProtoFile.toDatum { messages := [Message.tower n] }) :=
    .inr (.array (.cons (.value hempty) (.cons (.value hempty) (.cons (.value hdependencies) (.cons (.value hmessages)
      (.rest rfl .nil))))))
  have hfiles : Describes 126 (.list (.record .protoFile)) _ _ := .inr (.list (.cons hfile .nil))
  exact .inr (.array (.cons (.value hfiles) .nil))

theorem exists_parse_tower {n : Nat} (h : n < 62) : ∃ text, parse text = .ok (tower n) := by
  obtain ⟨text, htext⟩ := exists_spells_towerTree n
  refine ⟨.ofList text, parse_eq_ok_iff.2 ⟨_, _, ⟨[], text, [], .nil, htext, .nil, ?_⟩, describes_towerTree h, ?_⟩⟩
  · rw [String.toList_ofList, List.nil_append, List.append_nil]
  · exact ofDatum_toDatum (tower n)

/-- A message of a set that was read is nested no more than 62 levels deep, and registering goes through no
more levels of any file. Every level up to that is reached by a message of some text. -/
theorem nesting_parse :
    (∀ text s, parse text = .ok s →
      (∀ f ∈ s.files, ∀ line ∈ f.outline, line.length ≤ 62) ∧ ∀ b : Batch, b.loadTo? 62 s = some (b.load s)) ∧
    (∀ settings text b, Batch.ofText settings text = .ok b →
      (∃ s, parse text = .ok s ∧ ({ settings } : Batch).loadTo? 62 s = some b) ∧
        ∀ f ∈ b.files, ∀ line ∈ f.outline, line.length ≤ 62) ∧
    ∀ n, 1 ≤ n → n ≤ 62 → ∃ text s, parse text = .ok s ∧
      (∃ f ∈ s.files, ∃ line ∈ f.outline, line.length = n) ∧ ∀ b : Batch, b.loadTo? (n - 1) s = none := by
  have hbound : ∀ text s, parse text = .ok s →
      (∀ f ∈ s.files, ∀ line ∈ f.outline, line.length ≤ 62) ∧ ∀ b : Batch, b.loadTo? 62 s = some (b.load s) := by
    intro text s hs
    obtain ⟨t, d, -, hd, rfl⟩ := parse_eq_ok_iff.1 hs
    have hlines : ∀ f ∈ (ofDatum d).files, ∀ line ∈ f.outline, line.length ≤ 62 :=
      fun f hf => Message.forall_allOutline_iff.2 (isWithin_ofDatum hd f hf)
    refine ⟨hlines, fun b => ?_⟩
    rw [Batch.loadTo?_eq, if_pos fun f hf line hline _ => hlines f hf line hline]
  refine ⟨hbound, fun settings text b hb => ?_, fun n hpos hle => ?_⟩
  · obtain ⟨s, hs, rfl⟩ := Batch.ofText_eq_ok_iff.1 hb
    obtain ⟨hlines, hload⟩ := hbound text s hs
    refine ⟨⟨s, hs, hload _⟩, fun f hf line hline => ?_⟩
    rw [Batch.files_load, List.nil_append] at hf
    obtain ⟨g, hg, rfl⟩ := List.mem_map.1 hf
    rw [ProtoFile.outline_pruned] at hline
    exact hlines g hg line (List.mem_filter.1 hline).1
  · obtain ⟨k, rfl⟩ : ∃ k, n = k + 1 := ⟨n - 1, by omega⟩
    obtain ⟨text, htext⟩ := exists_parse_tower (Nat.lt_of_succ_le hle)
    obtain ⟨line, hline, hlength, hfree⟩ := Message.exists_mem_outline_tower k
    have hmem : line ∈ ProtoFile.outline { messages := [Message.tower k] } :=
      Message.mem_allOutline.2 ⟨_, List.mem_singleton_self _, hline⟩
    refine ⟨text, tower k, htext, ⟨_, List.mem_singleton_self _, line, hmem, hlength⟩, fun b => ?_⟩
    rw [Batch.loadTo?_eq, if_neg]
    intro h
    have hshort := h _ (List.mem_singleton_self _) line hmem hfree
    omega

/-- The deepest that there is: registering gets along with 62 levels and not with one less. -/
theorem nesting_parse_deepest :
    ∃ text s, parse text = .ok s ∧ (∃ f ∈ s.files, ∃ line ∈ f.outline, line.length = 62) ∧
      ({} : Batch).loadTo? 62 s = some (({} : Batch).load s) ∧ ({} : Batch).loadTo? 61 s = none := by
  obtain ⟨hbound, -, hreach⟩ := nesting_parse
  obtain ⟨text, s, hs, hdeep, hnone⟩ := hreach 62 (by decide) (by decide)
  exact ⟨text, s, hs, hdeep, (hbound text s hs).2 _, hnone _⟩

end FileSet
end ProtoLink
