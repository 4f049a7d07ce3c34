import ProtoLink.Name

/-! Tables that keep their keys in the order in which they were first entered, each key once. Those for the names of
types do not mind a leading dot. -/
namespace ProtoLink

namespace Entries

variable {κ υ : Type} [DecidableEq κ]

/-- The value beside a key. -/
def get? (k : κ) : List (κ × υ) → Option υ
  | [] => none
  | (k', v) :: rest => if k' = k then some v else get? k rest

/-- Puts a value beside a key: in place if the key is there, else at the end. -/
def put (k : κ) (v : υ) : List (κ × υ) → List (κ × υ)
  | [] => [(k, v)]
  | (k', v') :: rest => if k' = k then (k, v) :: rest else (k', v') :: put k v rest

theorem keys_put (k : κ) (v : υ) (es : List (κ × υ)) :
    (put k v es).map Prod.fst =
      if k ∈ es.map Prod.fst then es.map Prod.fst else es.map Prod.fst ++ [k] := by
  induction es with
  | nil => simp [put]
  | cons e es ih =>
    obtain ⟨k', v'⟩ := e
    by_cases h : k' = k
    · simp [put, h]
    · simp only [put, h, if_false, List.map_cons, ih, List.mem_cons, Ne.symm h, false_or]
      split <;> simp

theorem nodup_put {k : κ} {v : υ} {es : List (κ × υ)} (h : (es.map Prod.fst).Nodup) :
    ((put k v es).map Prod.fst).Nodup := by
  rw [keys_put]
  split
  · exact h
  · rename_i hk
    rw [List.nodup_append]
    refine ⟨h, by simp, ?_⟩
    intro a ha b hb
    rw [List.mem_singleton.1 hb]
    rintro rfl
    exact hk ha

theorem get?_put (k l : κ) (v : υ) (es : List (κ × υ)) :
    get? l (put k v es) = if k = l then some v else get? l es := by
  induction es with
  | nil => simp [put, get?]
  | cons e es ih =>
    obtain ⟨k', v'⟩ := e
    by_cases h : k' = k
    · subst k'
      by_cases hl : k = l <;> simp [put, get?, hl]
    · by_cases hl : k' = l
      · subst l
        simp [put, get?, h, Ne.symm h]
      · simp [put, get?, h, hl, ih]

theorem get?_eq_none_iff {k : κ} {es : List (κ × υ)} : get? k es = none ↔ k ∉ es.map Prod.fst := by
  induction es with
  | nil => simp [get?]
  | cons e es ih =>
    obtain ⟨k', v'⟩ := e
    by_cases h : k' = k
    · simp [get?, h]
    · simp [get?, h, ih, Ne.symm h]

end Entries

/-- A finite map whose entries stand in the order in which their keys came first. -/
structure Table (κ υ : Type) [DecidableEq κ] where
  entries : List (κ × υ) := []
  keys_nodup : (entries.map Prod.fst).Nodup := by simp

namespace Table

variable {κ υ : Type} [DecidableEq κ]

instance : EmptyCollection (Table κ υ) := ⟨{}⟩

instance : Inhabited (Table κ υ) := ⟨∅⟩

@[ext] theorem ext {s t : Table κ υ} (h : s.entries = t.entries) : s = t := by
  cases s
  cases t
  cases h
  rfl

def get? (t : Table κ υ) (k : κ) : Option υ := Entries.get? k t.entries

/-- Enters a value under a key. A key that is there already keeps its place. -/
def insert (t : Table κ υ) (k : κ) (v : υ) : Table κ υ :=
  ⟨Entries.put k v t.entries, Entries.nodup_put t.keys_nodup⟩

def contains (t : Table κ υ) (k : κ) : Bool := (t.get? k).isSome

def keys (t : Table κ υ) : List κ := t.entries.map Prod.fst

def size (t : Table κ υ) : Nat := t.entries.length

def isEmpty (t : Table κ υ) : Bool := t.entries.isEmpty

theorem get?_insert (t : Table κ υ) (k l : κ) (v : υ) :
    (t.insert k v).get? l = if k = l then some v else t.get? l :=
  Entries.get?_put k l v t.entries

theorem keys_insert (t : Table κ υ) (k : κ) (v : υ) :
    (t.insert k v).keys = if k ∈ t.keys then t.keys else t.keys ++ [k] :=
  Entries.keys_put k v t.entries

theorem get?_eq_none_iff {t : Table κ υ} {k : κ} : t.get? k = none ↔ k ∉ t.keys :=
  Entries.get?_eq_none_iff

@[simp] theorem get?_empty (k : κ) : (∅ : Table κ υ).get? k = none := rfl

end Table

/-- A table whose keys are dotted names without their leading dot. A name may be given with the dot, which is how
descriptors spell their references. -/
structure NameTable (υ : Type) where
  table : Table String υ := ∅

namespace NameTable

variable {υ : Type}

instance : EmptyCollection (NameTable υ) := ⟨{}⟩

instance : Inhabited (NameTable υ) := ⟨∅⟩

def insert (t : NameTable υ) (name : String) (v : υ) : NameTable υ := ⟨t.table.insert (unrooted name) v⟩

def get? (t : NameTable υ) (name : String) : Option υ := t.table.get? (unrooted name)

def contains (t : NameTable υ) (name : String) : Bool := (t.get? name).isSome

def entries (t : NameTable υ) : List (String × υ) := t.table.entries

def names (t : NameTable υ) : List String := t.table.keys

def size (t : NameTable υ) : Nat := t.table.size

def isEmpty (t : NameTable υ) : Bool := t.table.isEmpty

theorem get?_insert (t : NameTable υ) (name other : String) (v : υ) :
    (t.insert name v).get? other = if unrooted name = unrooted other then some v else t.get? other :=
  t.table.get?_insert _ _ _

theorem names_insert (t : NameTable υ) (name : String) (v : υ) :
    (t.insert name v).names = if unrooted name ∈ t.names then t.names else t.names ++ [unrooted name] :=
  t.table.keys_insert _ _

theorem contains_iff {t : NameTable υ} {name : String} :
    t.contains name = true ↔ unrooted name ∈ t.names := by
  rw [contains, Option.isSome_iff_ne_none, get?, ne_eq, Table.get?_eq_none_iff, Classical.not_not]
  rfl

@[simp] theorem get?_empty (name : String) : (∅ : NameTable υ).get? name = none := rfl

end NameTable
end ProtoLink
