import ProtoLink.Table

/-! Tables after a run of entries: keys stand where they came first, and the last value of a key counts. -/
namespace ProtoLink

namespace Entries

variable {κ υ : Type} [DecidableEq κ] {k l : κ} {v : υ} {es : List (κ × υ)}

theorem mem_of_get?_eq_some (h : get? k es = some v) : (k, v) ∈ es := by
  induction es with
  | nil => cases h
  | cons e es ih =>
    by_cases hk : e.1 = k
    · rw [get?, if_pos hk, Option.some.injEq] at h
      exact List.mem_cons.2 (Or.inl (Prod.ext hk.symm h.symm))
    · rw [get?, if_neg hk] at h
      exact List.mem_cons_of_mem _ (ih h)

/-- Under different keys, what is found is what stands there. -/
theorem get?_eq_some_iff (hnodup : (es.map Prod.fst).Nodup) : get? k es = some v ↔ (k, v) ∈ es := by
  refine ⟨mem_of_get?_eq_some, fun h => ?_⟩
  induction es with
  | nil => cases h
  | cons e es ih =>
    rw [List.map_cons, List.nodup_cons] at hnodup
    obtain rfl | h := List.mem_cons.1 h
    · exact if_pos rfl
    · have hne : e.1 ≠ k := fun he => hnodup.1 (List.mem_map.2 ⟨_, h, he.symm⟩)
      rw [get?, if_neg hne]
      exact ih hnodup.2 h

/-- If no value stands there twice, a value has one key. -/
theorem eq_of_get?_eq_some (hnodup : (es.map Prod.snd).Nodup) (hk : get? k es = some v)
    (hl : get? l es = some v) : k = l := by
  induction es with
  | nil => cases hk
  | cons e es ih =>
    rw [List.map_cons, List.nodup_cons] at hnodup
    have hnew : ∀ {m}, get? m es = some v → e.2 ≠ v := by
      rintro m hm rfl
      exact hnodup.1 (List.mem_map.2 ⟨_, mem_of_get?_eq_some hm, rfl⟩)
    by_cases hek : e.1 = k
    · by_cases hel : e.1 = l
      · exact hek.symm.trans hel
      · rw [get?, if_pos hek, Option.some.injEq] at hk
        rw [get?, if_neg hel] at hl
        exact absurd hk (hnew hl)
    · rw [get?, if_neg hek] at hk
      by_cases hel : e.1 = l
      · rw [get?, if_pos hel, Option.some.injEq] at hl
        exact absurd hl (hnew hk)
      · rw [get?, if_neg hel] at hl
        exact ih hnodup.2 hk hl

/-- Entries under the same keys in the same order are told apart by what is found under a key. -/
theorem eq_of_get?_eq {fs : List (κ × υ)} (hnodup : (es.map Prod.fst).Nodup)
    (hkeys : fs.map Prod.fst = es.map Prod.fst) (hget : ∀ k, get? k fs = get? k es) : fs = es := by
  induction es generalizing fs with
  | nil => exact List.map_eq_nil_iff.1 hkeys
  | cons e es ih =>
    cases fs with
    | nil => cases hkeys
    | cons f fs =>
      simp only [List.map_cons, List.cons.injEq] at hkeys
      rw [List.map_cons, List.nodup_cons] at hnodup
      obtain ⟨hkey, hkeys⟩ := hkeys
      have hvalue : f.2 = e.2 := by
        have := hget e.1
        rw [get?, get?, if_pos hkey, if_pos rfl] at this
        exact Option.some.inj this
      have hrest : ∀ k, get? k fs = get? k es := by
        intro k
        by_cases hk : e.1 = k
        · -- the key of the head comes once in either list
          have hes : get? k es = none := get?_eq_none_iff.2 (hk ▸ hnodup.1)
          have hfs : get? k fs = none := get?_eq_none_iff.2 (hkeys ▸ hk ▸ hnodup.1)
          rw [hes, hfs]
        · have := hget k
          rwa [get?, get?, if_neg hk, if_neg (hkey ▸ hk)] at this
      rw [ih hnodup.2 hkeys hrest, Prod.ext hkey hvalue]

end Entries

namespace Table

variable {κ υ : Type} [DecidableEq κ]

/-- Enters one value after the other. -/
def insertAll (t : Table κ υ) (es : List (κ × υ)) : Table κ υ :=
  es.foldl (fun t e => t.insert e.1 e.2) t

/-- The value that a run enters last under a key. -/
def last? (es : List (κ × υ)) (k : κ) : Option υ := (es.filter fun e => e.1 = k).getLast?.map Prod.snd

@[simp] theorem insertAll_nil (t : Table κ υ) : t.insertAll [] = t := rfl

@[simp] theorem insertAll_cons (t : Table κ υ) (e : κ × υ) (es : List (κ × υ)) :
    t.insertAll (e :: es) = (t.insert e.1 e.2).insertAll es := rfl

theorem last?_cons (e : κ × υ) (es : List (κ × υ)) (k : κ) :
    last? (e :: es) k = (last? es k).or (if e.1 = k then some e.2 else none) := by
  by_cases h : e.1 = k
  · simp only [last?, List.filter_cons, h, decide_true, if_true, List.getLast?_cons]
    cases (es.filter fun e => e.1 = k).getLast? <;> rfl
  · simp [last?, h]

theorem last?_of_notMem {es : List (κ × υ)} {k : κ} (h : k ∉ es.map Prod.fst) : last? es k = none := by
  rw [last?, List.filter_eq_nil_iff.2]
  · rfl
  · intro e he hk
    exact h (List.mem_map.2 ⟨e, he, of_decide_eq_true hk⟩)

theorem mem_of_last?_eq_some {es : List (κ × υ)} {k : κ} {v : υ} (h : last? es k = some v) :
    (k, v) ∈ es := by
  obtain ⟨e, he, rfl⟩ := Option.map_eq_some_iff.1 h
  obtain ⟨hmem, hkey⟩ := List.mem_filter.1 (List.mem_of_getLast? he)
  rwa [← of_decide_eq_true hkey]

/-- A key that is entered once has the value that it is entered with. -/
theorem last?_of_count {es : List (κ × υ)} {k : κ} {v : υ} (hcount : (es.map Prod.fst).count k = 1)
    (h : (k, v) ∈ es) : last? es k = some v := by
  induction es with
  | nil => cases h
  | cons e es ih =>
    rw [last?_cons]
    rw [List.map_cons, List.count_cons] at hcount
    obtain rfl | h := List.mem_cons.1 h
    · have hlater : k ∉ es.map Prod.fst := List.count_eq_zero.1 (by simpa using hcount)
      rw [last?_of_notMem hlater, if_pos rfl, Option.none_or]
    · have hlater := List.count_pos_iff.2 (List.mem_map.2 ⟨_, h, rfl⟩ : k ∈ es.map Prod.fst)
      rw [ih (by split at hcount <;> omega) h, Option.some_or]

theorem last?_of_mem {es : List (κ × υ)} {k : κ} {v : υ} (hnodup : (es.map Prod.fst).Nodup)
    (h : (k, v) ∈ es) : last? es k = some v := by
  apply last?_of_count ?_ h
  rw [hnodup.count, if_pos (List.mem_map.2 ⟨_, h, rfl⟩)]

/-- If no key is entered twice, the order of the entries does not matter. -/
theorem last?_perm {es fs : List (κ × υ)} (hnodup : (es.map Prod.fst).Nodup) (hperm : es.Perm fs) (k : κ) :
    last? es k = last? fs k := by
  have hnodup' : (fs.map Prod.fst).Nodup := (hperm.map Prod.fst).nodup_iff.1 hnodup
  apply Option.ext
  intro v
  constructor
  · intro h
    exact last?_of_mem hnodup' (hperm.mem_iff.1 (mem_of_last?_eq_some h))
  · intro h
    exact last?_of_mem hnodup (hperm.mem_iff.2 (mem_of_last?_eq_some h))

theorem keys_insertAll (t : Table κ υ) (es : List (κ × υ)) :
    (t.insertAll es).keys = t.keys ++ ((es.map Prod.fst).filter (· ∉ t.keys)).eraseDups := by
  induction es generalizing t with
  | nil => simp
  | cons e es ih =>
    rw [insertAll_cons, ih, keys_insert]
    by_cases he : e.1 ∈ t.keys
    · simp [he]
    · simp only [he, if_false, List.map_cons, List.filter_cons, not_false_eq_true, decide_true, if_true,
        List.eraseDups_cons, List.append_assoc, List.singleton_append]
      -- what is new behind `e` is neither an old key nor that of `e`
      have hnew : ((es.map Prod.fst).filter fun k => k ∉ t.keys ++ [e.1]) =
          ((es.map Prod.fst).filter (· ∉ t.keys)).filter fun k => !k == e.1 := by
        rw [List.filter_filter]
        apply List.filter_congr
        intro k _
        by_cases hk : k = e.1 <;> simp [hk]
      rw [hnew]

theorem mem_keys_insertAll {t : Table κ υ} {es : List (κ × υ)} {k : κ} :
    k ∈ (t.insertAll es).keys ↔ k ∈ t.keys ∨ k ∈ es.map Prod.fst := by
  rw [keys_insertAll, List.mem_append, List.mem_eraseDups, List.mem_filter]
  by_cases hk : k ∈ t.keys <;> simp [hk]

theorem get?_insertAll (t : Table κ υ) (es : List (κ × υ)) (k : κ) :
    (t.insertAll es).get? k = (last? es k).or (t.get? k) := by
  induction es generalizing t with
  | nil => simp [last?]
  | cons e es ih =>
    rw [insertAll_cons, ih, get?_insert, last?_cons, Option.or_assoc]
    by_cases h : e.1 = k <;> simp [h]

/-- What stands in a table after a run was entered by it or stood there before. -/
theorem mem_of_mem_insertAll {t : Table κ υ} {es : List (κ × υ)} {e : κ × υ}
    (h : e ∈ (t.insertAll es).entries) : e ∈ es ∨ e ∈ t.entries := by
  have hget : (t.insertAll es).get? e.1 = some e.2 := (Entries.get?_eq_some_iff (keys_nodup _)).2 h
  rw [get?_insertAll] at hget
  cases hlast : last? es e.1 with
  | some v =>
    rw [hlast, Option.some_or] at hget
    exact Or.inl (mem_of_last?_eq_some (hlast.trans hget))
  | none =>
    rw [hlast, Option.none_or] at hget
    exact Or.inr (Entries.mem_of_get?_eq_some hget)

theorem eq_of_get?_eq {s t : Table κ υ} (hkeys : s.keys = t.keys) (hget : ∀ k, s.get? k = t.get? k) : s = t :=
  ext (Entries.eq_of_get?_eq t.keys_nodup hkeys hget)

/-- A run that is entered again changes nothing: every key keeps its place and ends with its last value. -/
theorem insertAll_insertAll (t : Table κ υ) (es : List (κ × υ)) :
    (t.insertAll es).insertAll es = t.insertAll es := by
  apply eq_of_get?_eq
  · have hold : (es.map Prod.fst).filter (· ∉ (t.insertAll es).keys) = [] := by
      rw [List.filter_eq_nil_iff]
      intro k hk hnew
      exact of_decide_eq_true hnew (mem_keys_insertAll.2 (Or.inr hk))
    rw [keys_insertAll (t.insertAll es), hold, List.eraseDups_nil, List.append_nil]
  · intro k
    rw [get?_insertAll (t.insertAll es), get?_insertAll, ← Option.or_assoc, Option.or_self]

end Table

namespace NameTable

variable {υ : Type}

@[ext] theorem ext {s t : NameTable υ} (h : s.table = t.table) : s = t := by
  cases s
  cases t
  cases h
  rfl

/-- Enters one value after the other under names that may have their leading dot. -/
def insertAll (t : NameTable υ) (es : List (String × υ)) : NameTable υ :=
  es.foldl (fun t e => t.insert e.1 e.2) t

theorem insertAll_append (t : NameTable υ) (es fs : List (String × υ)) :
    t.insertAll (es ++ fs) = (t.insertAll es).insertAll fs :=
  List.foldl_append

theorem contains_insert (t : NameTable υ) (name other : String) (v : υ) :
    (t.insert name v).contains other = (decide (unrooted name = unrooted other) || t.contains other) := by
  rw [contains, get?_insert]
  by_cases h : unrooted name = unrooted other <;> simp [h, contains]

theorem contains_of_get?_eq_some {t : NameTable υ} {name : String} {v : υ} (h : t.get? name = some v) :
    t.contains name = true := by
  rw [contains, h, Option.isSome_some]

/-- A name finds what stands beside it without its leading dot. -/
theorem get?_eq_some_iff {t : NameTable υ} {name : String} {v : υ} :
    t.get? name = some v ↔ (unrooted name, v) ∈ t.entries :=
  Entries.get?_eq_some_iff t.table.keys_nodup

/-- Entering under names is entering under the keys that they stand for. -/
theorem table_insertAll (t : NameTable υ) (es : List (String × υ)) :
    (t.insertAll es).table = t.table.insertAll (es.map fun e => (unrooted e.1, e.2)) := by
  induction es generalizing t with
  | nil => rfl
  | cons e es ih => exact ih (t.insert e.1 e.2)

theorem insertAll_insertAll (t : NameTable υ) (es : List (String × υ)) :
    (t.insertAll es).insertAll es = t.insertAll es := by
  apply ext
  rw [table_insertAll, table_insertAll, Table.insertAll_insertAll]

theorem mem_names_insertAll {t : NameTable υ} {es : List (String × υ)} {name : String} :
    name ∈ (t.insertAll es).names ↔ name ∈ t.names ∨ name ∈ es.map fun e => unrooted e.1 := by
  rw [names, table_insertAll, Table.mem_keys_insertAll, List.map_map]
  rfl

/-- Under different keys, a run leads to the same answers in any order. -/
theorem get?_insertAll_perm (t : NameTable υ) {es fs : List (String × υ)}
    (hnodup : (es.map fun e => unrooted e.1).Nodup) (hperm : es.Perm fs) (name : String) :
    (t.insertAll es).get? name = (t.insertAll fs).get? name := by
  have hkeys : ((es.map fun e => (unrooted e.1, e.2)).map Prod.fst).Nodup := by
    rwa [List.map_map]
  rw [get?, get?, table_insertAll, table_insertAll, Table.get?_insertAll, Table.get?_insertAll,
    Table.last?_perm hkeys (hperm.map _)]

end NameTable
end ProtoLink
