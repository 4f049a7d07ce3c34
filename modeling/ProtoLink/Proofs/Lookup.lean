import ProtoLink.Batch.Listing
import ProtoLink.Proofs.Loading

/-! What the tables of a batch give for a name. Names are listed and looked up without one leading dot, so a
listed name finds itself unless a dot is left in front of it. -/
namespace ProtoLink

theorem nameAlong_concat (scope : String) (front : List String) (name : String) :
    nameAlong scope (front ++ [name]) = nameWithin (nameAlong scope front) name := by
  rw [nameAlong, List.foldl_append]
  rfl

theorem NameTable.get?_of_mem {υ : Type} {t : NameTable υ} {name : String} {v : υ} (h : (name, v) ∈ t.entries) :
    t.get? name = some v ↔ leadingDots name = 0 ∨ (unrooted name, v) ∈ t.entries := by
  rw [get?_eq_some_iff]
  refine ⟨Or.inr, ?_⟩
  rintro (hdots | hrest)
  · rwa [unrooted_eq_self_iff.2 hdots]
  · exact hrest

theorem Message.mapFields?_eq_some_iff {m : Message} {fields : MapFields} :
    m.mapFields? = some fields ↔ m.field? 1 = some fields.key ∧ m.field? 2 = some fields.value := by
  obtain ⟨key, value⟩ := fields
  unfold mapFields?
  split
  · rename_i hkey hvalue
    simp [hkey, hvalue]
  · rename_i hnone
    constructor
    · intro h
      cases h
    · rintro ⟨hkey, hvalue⟩
      exact (hnone _ _ hkey hvalue).elim

theorem Message.mapFields?_eq_none_iff {m : Message} :
    m.mapFields? = none ↔ m.field? 1 = none ∨ m.field? 2 = none := by
  unfold mapFields?
  cases m.field? 1 <;> cases m.field? 2 <;> simp

namespace ProtoFile

variable {files : List ProtoFile}

theorem flatMap_mapEntries (hnamed : ∀ f ∈ files, f.IsWellNamed)
    (hentries : ∀ f ∈ files, ∀ e ∈ f.entries, ∀ name ∈ e.1, IsSegment name) :
    files.flatMap mapEntries = files.flatMap fun f => f.entries.map fun e => (f.qualified e.1, e.2) := by
  rw [List.flatMap_def, List.flatMap_def]
  congr 1
  apply List.map_congr_left
  intro f hf
  apply List.map_congr_left
  intro e he
  obtain ⟨hname, hunrooted⟩ :=
    (hnamed f hf).nameAlong_of_segments (ne_nil_of_mem_entries he) (hentries f hf e he)
  rw [hname, hunrooted]

theorem map_fst_flatMap_mapEntries (hnamed : ∀ f ∈ files, f.IsWellNamed)
    (hentries : ∀ f ∈ files, ∀ e ∈ f.entries, ∀ name ∈ e.1, IsSegment name) :
    (files.flatMap mapEntries).map Prod.fst = files.flatMap entryNames := by
  rw [flatMap_mapEntries hnamed hentries, List.map_flatMap]
  simp only [List.map_map]
  rfl

end ProtoFile

namespace Batch

/-- The text for a map entry with both fields goes on in another way after the bracket. -/
theorem mapText_eq_malformed_iff {fields? : Option MapFields} :
    mapText fields? = " (malformed)" ↔ fields? = none := by
  cases fields? with
  | none => exact iff_of_true rfl rfl
  | some fields =>
    refine iff_of_false (fun h => ?_) (by simp)
    have htext := congrArg (fun text => text.toList[2]?) h
    simp [mapText] at htext

theorem mapLine_eq_malformed_iff {p : Palette} {b : Batch} {name : String} :
    mapLine p b name = "  " ++ p.paintName name ++ " (malformed)" ++ "\n" ↔ b.mapFields? name = none := by
  rw [mapLine, String.append_left_inj, String.append_right_inj, mapText_eq_malformed_iff]

variable (settings : Settings) {sets : List FileSet} {name : String}

theorem mem_symbols_loadAll (h : name ∈ (loadAll { settings } sets).symbols.names) :
    ∃ f ∈ sets.flatMap FileSet.files, ∃ chain ∈ f.chains, name = unrooted (nameAlong f.package chain) := by
  rw [NameTable.names, symbols_loadAll, Table.mem_keys_insertAll] at h
  obtain ⟨d, hd, rfl⟩ := List.mem_map.1 (h.resolve_left List.not_mem_nil)
  obtain ⟨f, hf, hd⟩ := List.mem_flatMap.1 hd
  obtain ⟨chain, hc, rfl⟩ := List.mem_map.1 hd
  exact ⟨f, hf, chain, hc, rfl⟩

theorem mem_mapEntries_loadAll (h : name ∈ (loadAll { settings } sets).mapEntries.names) :
    ∃ f ∈ sets.flatMap FileSet.files, ∃ chain ∈ f.entries.map Prod.fst,
      name = unrooted (nameAlong f.package chain) := by
  rw [NameTable.names, mapEntries_loadAll, Table.mem_keys_insertAll] at h
  obtain ⟨d, hd, rfl⟩ := List.mem_map.1 (h.resolve_left List.not_mem_nil)
  obtain ⟨f, hf, hd⟩ := List.mem_flatMap.1 hd
  obtain ⟨e, he, rfl⟩ := List.mem_map.1 hd
  exact ⟨f, hf, e.1, List.mem_map.2 ⟨e, he, rfl⟩, rfl⟩

/-- A dot is left in front of a listed name only if it came with five of them. -/
theorem five_le_leadingDots {scope : String} {chain : List String} (hne : chain ≠ [])
    (hdots : leadingDots (unrooted (nameAlong scope chain)) ≠ 0) :
    ∃ front last, chain = front ++ [last] ∧ 5 ≤ leadingDots (nameAlong scope front ++ "." ++ last) := by
  refine ⟨chain.dropLast, chain.getLast hne, (List.dropLast_concat_getLast hne).symm, ?_⟩
  rw [← List.dropLast_concat_getLast hne, nameAlong_concat, leadingDots_unrooted_nameWithin] at hdots
  omega

/-- A listed name finds what is listed beside it, unless a dot is left in front of it: then it finds what is
listed under the rest. A dot is left there if the scope and the name put together began with five or more. -/
theorem get?_listed (sets : List FileSet) (p : Palette) :
    let b := loadAll { settings } sets
    (∀ name path, (name, path) ∈ b.symbols.entries →
      (b.symbols.get? name = some path ↔
        leadingDots name = 0 ∨ (unrooted name, path) ∈ b.symbols.entries)) ∧
    (∀ name entry, (name, entry) ∈ b.mapEntries.entries →
      (b.mapEntries.get? name = some entry ↔
        leadingDots name = 0 ∨ (unrooted name, entry) ∈ b.mapEntries.entries) ∧
      (leadingDots name = 0 → (mapLine p b name = "  " ++ p.paintName name ++ " (malformed)" ++ "\n" ↔
        entry.field? 1 = none ∨ entry.field? 2 = none))) ∧
    (∀ name ∈ b.symbols.names ++ b.mapEntries.names, leadingDots name ≠ 0 →
      ∃ f ∈ sets.flatMap FileSet.files, ∃ front last,
        front ++ [last] ∈ f.chains ++ f.entries.map Prod.fst ∧
        name = unrooted (nameAlong f.package (front ++ [last])) ∧
        5 ≤ leadingDots (nameAlong f.package front ++ "." ++ last)) := by
  intro b
  refine ⟨fun name path h => NameTable.get?_of_mem h,
    fun name entry h => ⟨NameTable.get?_of_mem h, fun hdots => ?_⟩, ?_⟩
  · have hget : b.mapEntries.get? name = some entry := (NameTable.get?_of_mem h).2 (Or.inl hdots)
    rw [mapLine_eq_malformed_iff, mapFields?, hget, Option.bind_some, Message.mapFields?_eq_none_iff]
  · intro name hname hdots
    obtain ⟨f, hf, chain, hc, rfl⟩ : ∃ f ∈ sets.flatMap FileSet.files,
        ∃ chain ∈ f.chains ++ f.entries.map Prod.fst, name = unrooted (nameAlong f.package chain) := by
      obtain h | h := List.mem_append.1 hname
      · obtain ⟨f, hf, chain, hc, rfl⟩ := mem_symbols_loadAll settings h
        exact ⟨f, hf, chain, List.mem_append_left _ hc, rfl⟩
      · obtain ⟨f, hf, chain, hc, rfl⟩ := mem_mapEntries_loadAll settings h
        exact ⟨f, hf, chain, List.mem_append_right _ hc, rfl⟩
    have hne : chain ≠ [] := by
      obtain hc | hc := List.mem_append.1 hc
      · exact ProtoFile.ne_nil_of_mem_chains hc
      · obtain ⟨e, he, rfl⟩ := List.mem_map.1 hc
        exact ProtoFile.ne_nil_of_mem_entries he
    obtain ⟨front, last, rfl, hfive⟩ := five_le_leadingDots hne hdots
    exact ⟨f, hf, front, last, hc, rfl, hfive⟩

/-- Four dots for a package leave one in front of the names of the file, and nothing is found under these. -/
theorem listed_not_found :
    let entry : Message :=
      { name := "E", fields := [{ name := "key", number := 1 }, { name := "value", number := 2 }],
        options := some { mapEntry := true } }
    let file : ProtoFile := { name := "f", package := "....", messages := [{ name := "X" }, entry] }
    let b := loadAll { settings := {} } [⟨[file]⟩]
    b.symbols.entries = [(".X", "f")] ∧ b.symbols.get? ".X" = none ∧
      b.mapEntries.entries = [(".E", entry)] ∧ b.mapEntries.get? ".E" = none ∧
      mapLine .plain b ".E" = "  .E (malformed)\n" ∧ entry.field? 1 ≠ none ∧ entry.field? 2 ≠ none := by
  decide

/-! Map entries of well named files -/

/-- A map entry that shares its name with no other one is found under that name, whole. -/
theorem get?_mapEntries_loadAll (hnamed : ∀ f ∈ sets.flatMap FileSet.files, f.IsWellNamed)
    (hentries : ∀ f ∈ sets.flatMap FileSet.files, ∀ e ∈ f.entries, ∀ name ∈ e.1, IsSegment name)
    {f : ProtoFile} (hf : f ∈ sets.flatMap FileSet.files) {chain : List String} {m : Message}
    (hm : (chain, m) ∈ f.entries)
    (honly : ((sets.flatMap FileSet.files).flatMap ProtoFile.entryNames).count (f.qualified chain) = 1) :
    (loadAll { settings } sets).mapEntries.table.get? (f.qualified chain) = some m := by
  rw [mapEntries_loadAll]
  generalize sets.flatMap FileSet.files = files at hnamed hentries hf honly ⊢
  rw [Table.get?_insertAll, Table.last?_of_count]
  · rfl
  · rwa [ProtoFile.map_fst_flatMap_mapEntries hnamed hentries]
  · rw [ProtoFile.flatMap_mapEntries hnamed hentries]
    exact List.mem_flatMap.2 ⟨f, hf, List.mem_map.2 ⟨_, hm, rfl⟩⟩

/-- No map entry is lost: under its name in full stands the message as it was in its file, with its key and
value. The name is that of a symbol too only if a type is declared under it. -/
theorem mapEntry_found (hnamed : ∀ f ∈ sets.flatMap FileSet.files, f.IsWellNamed)
    (hentries : ∀ f ∈ sets.flatMap FileSet.files, ∀ e ∈ f.entries, ∀ name ∈ e.1, IsSegment name)
    {f : ProtoFile} (hf : f ∈ sets.flatMap FileSet.files) {chain : List String} {m : Message}
    (hm : (chain, m) ∈ f.entries)
    (honly : ((sets.flatMap FileSet.files).flatMap ProtoFile.entryNames).count (f.qualified chain) = 1) :
    let b := loadAll { settings } sets
    ∀ name ∈ [f.qualified chain, "." ++ f.qualified chain],
      b.mapEntries.get? name = some m ∧
      (∀ fields, b.mapFields? name = some fields ↔
        m.field? 1 = some fields.key ∧ m.field? 2 = some fields.value) ∧
      (b.mapFields? name = none ↔ m.field? 1 = none ∨ m.field? 2 = none) ∧
      (b.symbols.contains name = true ↔
        ∃ g ∈ sets.flatMap FileSet.files, f.qualified chain ∈ g.typeNames) := by
  intro b name hname
  have hfull : unrooted name = f.qualified chain := by
    rw [List.mem_cons, List.mem_singleton] at hname
    obtain rfl | rfl := hname
    · exact ((hnamed f hf).nameAlong_of_segments (ProtoFile.ne_nil_of_mem_entries hm)
        (hentries f hf _ hm)).2
    · exact unrooted_dot_append _
  have hget : b.mapEntries.get? name = some m := by
    rw [NameTable.get?, hfull]
    exact get?_mapEntries_loadAll settings hnamed hentries hf hm honly
  have hfields : b.mapFields? name = m.mapFields? := by
    rw [mapFields?, hget, Option.bind_some]
  refine ⟨hget, fun fields => ?_, ?_, ?_⟩
  · rw [hfields, Message.mapFields?_eq_some_iff]
  · rw [hfields, Message.mapFields?_eq_none_iff]
  · rw [NameTable.contains_iff, hfull]
    exact mem_names_loadAll settings hnamed

/-- A map entry two messages down keeps its own map entry, beside a message of its name in another file. -/
theorem mapEntry_found_namesake :
    let inner : Message := { name := "E", options := some { mapEntry := true } }
    let key : Field := { name := "key", number := 1 }
    let value : Field := { name := "value", number := 2 }
    let entry : Message :=
      { name := "E", fields := [value, key, { value with name := "other" }], messages := [inner],
        options := some { mapEntry := true } }
    let outer : Message := { name := "M", messages := [{ name := "N", messages := [entry] }] }
    let first : ProtoFile := { name := "f", package := "p", messages := [outer] }
    let second : ProtoFile := { name := "g", package := "p.M.N", messages := [{ name := "E" }] }
    let b := loadAll { settings := {} } [⟨[first]⟩, ⟨[second]⟩]
    b.mapEntries.get? ".p.M.N.E" = some entry ∧ b.mapFields? ".p.M.N.E" = some ⟨key, value⟩ ∧
      b.symbols.contains ".p.M.N.E" = true := by
  intro inner key value entry outer first second b
  let sets : List FileSet := [⟨[first]⟩, ⟨[second]⟩]
  have hnamed : ∀ f ∈ sets.flatMap FileSet.files, f.IsWellNamed := by decide
  have hentries : ∀ f ∈ sets.flatMap FileSet.files, ∀ e ∈ f.entries, ∀ name ∈ e.1, IsSegment name := by decide
  have hm : (["M", "N", "E"], entry) ∈ first.entries := by decide
  obtain ⟨hget, hfields, _, hsymbol⟩ := mapEntry_found {} hnamed hentries
    List.mem_cons_self hm (by decide) ".p.M.N.E" (by decide)
  exact ⟨hget, (hfields ⟨key, value⟩).2 (by decide), hsymbol.2 ⟨second, by decide, by decide⟩⟩

end Batch
end ProtoLink
