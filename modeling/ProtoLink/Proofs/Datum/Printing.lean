import ProtoLink.Proofs.Datum.Reading

/-! What is written for a value is the text of a document that describes it. -/
namespace ProtoLink

namespace Json

mutual

/-- A document with its strings and names as they are written. -/
def tree : Json → Tree
  | .null => .null
  | .bool value => .bool value
  | .number literal => .number literal
  | .string value => .string (value.toList.flatMap escape)
  | .array items => .array (treesOfItems items)
  | .object members => .object (treesOfMembers members)

def treesOfItems : List Json → List Tree
  | [] => []
  | item :: items => tree item :: treesOfItems items

def treesOfMembers : List (String × Json) → List (List Char × Tree)
  | [] => []
  | (name, value) :: members => (name.toList.flatMap escape, tree value) :: treesOfMembers members

end

end Json

namespace Datum

open Json (Spells SpellsItems SpellsMembers compact depth depthOfItems depthOfMembers quote tree treesOfItems
  treesOfMembers)

/-- An integer is written as a number. -/
theorem exists_ofInt_eq (n : Int) : ∃ literal, Json.ofInt n = .number literal := by
  cases n <;> exact ⟨_, rfl⟩

mutual

theorem spells_toJson : (d : Datum) → (shape : Shape) → Fits shape d →
    Spells (toJson shape d).tree (compact (toJson shape d))
  | .absent, shape, hfit => by cases shape <;> exact hfit.elim
  | .text t, shape, hfit => by
    cases shape <;> try exact hfit.elim
    exact .string (Json.denotes_escape _).isString
  | .int n, shape, hfit => by
    cases shape <;> try exact hfit.elim
    obtain ⟨literal, hn⟩ := exists_ofInt_eq n
    simp only [toJson, hn]
    exact .number (Json.isNumber_of_ofInt hn)
  | .flag v, shape, hfit => by
    cases shape <;> try exact hfit.elim
    cases v
    · exact .no
    · exact .yes
  | .list ds, shape, hfit => by
    cases shape <;> try exact hfit.elim
    rw [toJson, compact_array]
    exact .array (spells_itemsToJson ds _ true hfit)
  | .record ds, shape, hfit => by
    cases shape <;> try exact hfit.elim
    rw [toJson, compact_object]
    exact .object (spells_slotsToJson ds _ true hfit)

theorem spells_itemsToJson : (ds : List Datum) → (item : Shape) → (first : Bool) → AllFit item ds →
    SpellsItems first (treesOfItems (itemsToJson item ds)) (itemsText first (itemsToJson item ds))
  | [], _, _, _ => .nil .nil
  | d :: ds, item, first, hfit => by
    have hitems := spells_itemsToJson ds item false hfit.2
    rw [itemsText_false] at hitems
    exact .cons (leadsIn_comma first) (spells_toJson d item hfit.1) hitems

theorem spells_slotsToJson : (ds : List Datum) → (ms : List Member) → (first : Bool) → SlotsFit ms ds →
    SpellsMembers first (treesOfMembers (slotsToJson ms ds)) (membersText first (slotsToJson ms ds))
  | [], ms, first, hfit => by
    cases ms with
    | cons m ms => exact hfit.elim
    | nil => exact .nil .nil
  | d :: ds, ms, first, hfit => by
    cases ms with
    | nil => exact hfit.elim
    | cons m ms =>
      by_cases hd : d = .absent
      · subst d
        exact spells_slotsToJson ds ms first hfit.2
      · have hvalue := spells_toJson d m.shape (hfit.1.resolve_left fun h => hd h.2)
        have hmembers := spells_slotsToJson ds ms false hfit.2
        rw [membersText_false] at hmembers
        rw [slotsToJson_cons m ms hd]
        have hspells := SpellsMembers.cons (leadsIn_comma first) (Json.denotes_escape m.name.toList).isString .nil .nil
          hvalue hmembers
        simp only [membersText, quote, List.cons_append, List.append_assoc, List.nil_append]
        exact hspells

end

mutual

theorem describes_toJson : (d : Datum) → (shape : Shape) → (levels : Nat) → Fits shape d →
    depth (toJson shape d) ≤ levels → Describes levels shape (toJson shape d).tree d
  | .absent, shape, _, hfit, _ => by cases shape <;> exact hfit.elim
  | .text t, shape, levels, hfit, _ => by
    cases shape <;> try exact hfit.elim
    exact (DescribesLeaf.text (Json.denotes_escape _)).describes levels
  | .int n, shape, levels, hfit, _ => by
    cases shape <;> try exact hfit.elim
    obtain ⟨literal, hn⟩ := exists_ofInt_eq n
    simp only [toJson, hn]
    exact (DescribesLeaf.int32 hn hfit).describes levels
  | .flag v, shape, levels, hfit, _ => by
    cases shape <;> try exact hfit.elim
    exact DescribesLeaf.flag.describes levels
  | .list ds, shape, levels, hfit, hdepth => by
    cases shape <;> try exact hfit.elim
    obtain ⟨levels, rfl⟩ := Nat.exists_eq_succ_of_ne_zero (Nat.ne_zero_of_lt hdepth)
    exact .inr (.list (describes_itemsToJson ds _ levels hfit (Nat.le_of_succ_le_succ hdepth)))
  | .record ds, shape, levels, hfit, hdepth => by
    cases shape <;> try exact hfit.elim
    rename_i kind
    obtain ⟨levels, rfl⟩ := Nat.exists_eq_succ_of_ne_zero (Nat.ne_zero_of_lt hdepth)
    have hgathers := gathers_slotsToJson ds kind kind.members levels hfit (fun _ h => h) (Nat.le_of_succ_le_succ hdepth)
    have hnodup := kind.nodup_names.sublist (sublist_names_named kind.members ds)
    have hslots := (assemble_eq_ok_iff hnodup).1 (assemble_named [] (Awaits.start kind) hfit)
    exact .inr (.object ⟨_, hgathers, hnodup, hslots⟩)

theorem describes_itemsToJson : (ds : List Datum) → (item : Shape) → (levels : Nat) → AllFit item ds →
    depthOfItems (itemsToJson item ds) ≤ levels →
    List.Forall₂ (Describes levels item) (treesOfItems (itemsToJson item ds)) ds
  | [], _, _, _, _ => .nil
  | d :: ds, item, levels, hfit, hdepth => by
    obtain ⟨hd, hds⟩ := Nat.max_le.1 hdepth
    exact .cons (describes_toJson d item levels hfit.1 hd) (describes_itemsToJson ds item levels hfit.2 hds)

theorem gathers_slotsToJson : (ds : List Datum) → (kind : RecordKind) → (ms : List Member) → (levels : Nat) →
    SlotsFit ms ds → (∀ m ∈ ms, m ∈ kind.members) → depthOfMembers (slotsToJson ms ds) ≤ levels →
    Gathers (Describes levels) kind (treesOfMembers (slotsToJson ms ds)) (named ms ds)
  | [], kind, ms, levels, hfit, _, _ => by
    cases ms with
    | cons m ms => exact hfit.elim
    | nil => exact .nil
  | d :: ds, kind, ms, levels, hfit, hmem, hdepth => by
    cases ms with
    | nil => exact hfit.elim
    | cons m ms =>
      obtain ⟨hm, hms⟩ := List.forall_mem_cons.1 hmem
      by_cases hd : d = .absent
      · subst d
        exact gathers_slotsToJson ds kind ms levels hfit.2 hms hdepth
      · rw [slotsToJson_cons m ms hd] at hdepth ⊢
        rw [named_cons m ms hd]
        obtain ⟨hvalue, hrest⟩ := Nat.max_le.1 hdepth
        have hdescribes := describes_toJson d m.shape levels (hfit.1.resolve_left fun h => hd h.2) hvalue
        have hkey := RecordKind.names_of_member? (RecordKind.member?_name hm)
        exact .member hkey (.value hdescribes) (gathers_slotsToJson ds kind ms levels hfit.2 hms hrest)

end

end Datum
end ProtoLink
