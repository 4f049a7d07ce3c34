import Mathlib.Data.List.Forall2
import Mathlib.Data.List.Nodup
import ProtoLink.Datum
import ProtoLink.Proofs.Json.Quoted

/-! What a document says of a value that has a shape. A record is described by an object with its members, in any
order and among others, or by an array of its members in their order. -/
namespace ProtoLink

open Json (Denotes Tree)

namespace RecordKind

section Members

variable {kind : RecordKind} {m m' : Member} {key : String}

/-- A name finds the one member that has it for its name or its byname. -/
theorem member?_eq_some_iff : kind.member? key = some m ↔ m ∈ kind.members ∧ m.answersTo key = true := by
  constructor
  · intro h
    rw [member?] at h
    have hkey := List.find?_some h
    exact ⟨List.mem_of_find?_eq_some h, hkey⟩
  · rintro ⟨hm, hkey⟩
    have hname : ∀ m ∈ kind.members, kind.member? m.name = some m := by cases kind <;> decide
    have hbyname : ∀ m ∈ kind.members, ∀ name ∈ m.byname, kind.member? name = some m := by cases kind <;> decide
    simp only [Member.answersTo, Bool.or_eq_true, decide_eq_true_eq] at hkey
    obtain rfl | hkey := hkey
    · exact hname m hm
    · exact hbyname m hm key hkey

theorem member?_eq_none_iff : kind.member? key = none ↔ ∀ m ∈ kind.members, m.answersTo key = false := by
  simp [member?]

theorem member?_name (h : m ∈ kind.members) : kind.member? m.name = some m :=
  member?_eq_some_iff.2 ⟨h, by simp [Member.answersTo]⟩

theorem nodup_names (kind : RecordKind) : (kind.members.map Member.name).Nodup := by
  cases kind <;> decide

theorem eq_of_name_eq (hm : m ∈ kind.members) (hm' : m' ∈ kind.members) (h : m.name = m'.name) : m = m' :=
  List.inj_on_of_nodup_map kind.nodup_names hm hm' h

end Members

variable {kind : RecordKind} {key : List Char} {m m' : Member}

/-- The key of an object denotes a name that this member of the record answers to. -/
def Names (kind : RecordKind) (key : List Char) (m : Member) : Prop :=
  m ∈ kind.members ∧ ∃ name, Denotes key name ∧ m.answersTo (.ofList name) = true

/-- The key of an object denotes a name that no member of the record answers to. -/
def Ignores (kind : RecordKind) (key : List Char) : Prop :=
  ∃ name, Denotes key name ∧ ∀ m ∈ kind.members, m.answersTo (.ofList name) = false

/-- Two keys of an object stand for the same member. -/
def SameMember (kind : RecordKind) (key key' : List Char) : Prop := ∃ m, kind.Names key m ∧ kind.Names key' m

theorem names_iff : kind.Names key m ↔ ∃ name, Denotes key name ∧ kind.member? (.ofList name) = some m := by
  simp only [Names, member?_eq_some_iff, ← exists_and_left, and_left_comm]

theorem ignores_iff : kind.Ignores key ↔ ∃ name, Denotes key name ∧ kind.member? (.ofList name) = none := by
  simp only [Ignores, member?_eq_none_iff]

theorem names_of_member? {name : String} (h : kind.member? name = some m) :
    kind.Names (name.toList.flatMap Json.escape) m :=
  names_iff.2 ⟨name.toList, Json.denotes_escape _, by rwa [String.ofList_toList]⟩

theorem ignores_of_member? {name : String} (h : kind.member? name = none) :
    kind.Ignores (name.toList.flatMap Json.escape) :=
  ignores_iff.2 ⟨name.toList, Json.denotes_escape _, by rwa [String.ofList_toList]⟩

theorem Names.mem (h : kind.Names key m) : m ∈ kind.members := h.1

theorem Names.isString (h : kind.Names key m) : Json.IsString key := by
  obtain ⟨_, name, hname, _⟩ := h
  exact hname.isString

theorem Ignores.isString (h : kind.Ignores key) : Json.IsString key := by
  obtain ⟨name, hname, _⟩ := h
  exact hname.isString

theorem Names.unique (h : kind.Names key m) (h' : kind.Names key m') : m = m' := by
  obtain ⟨name, hname, hm⟩ := names_iff.1 h
  obtain ⟨name', hname', hm'⟩ := names_iff.1 h'
  obtain rfl := hname.unique hname'
  exact Option.some.inj (hm.symm.trans hm')

theorem Names.not_names (h : kind.Names key m) (hne : m ≠ m') : ¬ kind.Names key m' := fun h' => hne (h.unique h')

theorem Ignores.not_names (h : kind.Ignores key) : ¬ kind.Names key m := by
  rintro ⟨hm, name, hname, hanswers⟩
  obtain ⟨name', hname', hnone⟩ := h
  obtain rfl := hname.unique hname'
  rw [hnone m hm] at hanswers
  cases hanswers

end RecordKind

namespace Datum

inductive DescribesLeaf : Shape → Tree → Datum → Prop
  | text {literal : List Char} {value : String} (h : Denotes literal value.toList) :
      DescribesLeaf .text (.string literal) (.text value)
  | flag {value : Bool} : DescribesLeaf .flag (.bool value) (.flag value)
  | int32 {n : Int} {literal : List Char} (h : Json.ofInt n = .number literal)
      (hn : -0x80000000 ≤ n ∧ n < 0x80000000) : DescribesLeaf .int32 (.number literal) (.int n)

section

-- what documents say of the parts of a value
variable (R : Shape → Tree → Datum → Prop)

/-- Null says of an optional member that it is absent. -/
inductive DescribesMember (m : Member) : Tree → Datum → Prop
  | null (h : m.presence = .optional) : DescribesMember m .null .absent
  | value {t : Tree} {d : Datum} (h : R m.shape t d) : DescribesMember m t d

/-- The items of an array for members in their order. The last members may be left out if they have fallbacks. -/
inductive DescribesSlots : List Member → List Tree → List Datum → Prop
  | nil : DescribesSlots [] [] []
  | rest {m : Member} {ms : List Member} {d : Datum} {ds : List Datum} (h : m.fallback? = some d)
      (hs : DescribesSlots ms [] ds) : DescribesSlots (m :: ms) [] (d :: ds)
  | cons {m : Member} {ms : List Member} {t : Tree} {ts : List Tree} {d : Datum} {ds : List Datum}
      (h : DescribesMember R m t d) (hs : DescribesSlots ms ts ds) : DescribesSlots (m :: ms) (t :: ts) (d :: ds)

/-- The values that an object gives for the members of a record, in the order of the object. -/
inductive Gathers (kind : RecordKind) : List (List Char × Tree) → List (String × Datum) → Prop
  | nil : Gathers kind [] []
  | other {key : List Char} {t : Tree} {members : List (List Char × Tree)} {given : List (String × Datum)}
      (hkey : kind.Ignores key) (h : Gathers kind members given) : Gathers kind ((key, t) :: members) given
  | member {key : List Char} {t : Tree} {members : List (List Char × Tree)} {given : List (String × Datum)}
      {m : Member} {d : Datum} (hkey : kind.Names key m) (ht : DescribesMember R m t d)
      (h : Gathers kind members given) : Gathers kind ((key, t) :: members) ((m.name, d) :: given)

/-- A slot has what is given for its member, or the fallback if nothing is given. -/
def FillsSlot (given : List (String × Datum)) (m : Member) (d : Datum) : Prop :=
  (m.name, d) ∈ given ∨ m.name ∉ given.map Prod.fst ∧ m.fallback? = some d

/-- The members of an object for a record. No member is given twice. -/
def DescribesObject (kind : RecordKind) (members : List (List Char × Tree)) (ds : List Datum) : Prop :=
  ∃ given, Gathers R kind members given ∧ (given.map Prod.fst).Nodup ∧
    List.Forall₂ (FillsSlot given) kind.members ds

inductive DescribesContainer : Shape → Tree → Datum → Prop
  | list {item : Shape} {ts : List Tree} {ds : List Datum} (h : List.Forall₂ (R item) ts ds) :
      DescribesContainer (.list item) (.array ts) (.list ds)
  | array {kind : RecordKind} {ts : List Tree} {ds : List Datum} (h : DescribesSlots R kind.members ts ds) :
      DescribesContainer (.record kind) (.array ts) (.record ds)
  | object {kind : RecordKind} {members : List (List Char × Tree)} {ds : List Datum}
      (h : DescribesObject R kind members ds) : DescribesContainer (.record kind) (.object members) (.record ds)

end

/-- What a document says of a value, with at most `levels` lists and records inside of each other. -/
def Describes : (levels : Nat) → Shape → Tree → Datum → Prop
  | 0, shape, t, d => DescribesLeaf shape t d
  | levels + 1, shape, t, d => DescribesLeaf shape t d ∨ DescribesContainer (Describes levels) shape t d

/-! What an object gives -/

namespace Gathers

variable {R : Shape → Tree → Datum → Prop} {kind : RecordKind} {members : List (List Char × Tree)}
  {given : List (String × Datum)} {m : Member}

theorem mem_names_iff (h : Gathers R kind members given) (hm : m ∈ kind.members) :
    m.name ∈ given.map Prod.fst ↔ ∃ e ∈ members, kind.Names e.1 m := by
  induction h with
  | nil => simp
  | other hkey _ ih => rw [ih, List.exists_mem_cons_iff, or_iff_right hkey.not_names]
  | @member key t members given m' d hkey _ _ ih =>
    have hhead : m.name = m'.name ↔ kind.Names key m := by
      constructor
      · intro h
        rwa [RecordKind.eq_of_name_eq hm hkey.mem h]
      · intro h
        rw [h.unique hkey]
    rw [List.map_cons, List.mem_cons, ih, hhead, List.exists_mem_cons_iff]

/-- No member is given twice if and only if no two keys stand for the same member. -/
theorem nodup_iff (h : Gathers R kind members given) :
    (given.map Prod.fst).Nodup ↔ members.Pairwise fun e e' => ¬ kind.SameMember e.1 e'.1 := by
  induction h with
  | nil => simp
  | @other key t members given hkey _ ih =>
    have hhead : ∀ e ∈ members, ¬ kind.SameMember key e.1 := fun e _ ⟨m, hm, _⟩ => hkey.not_names hm
    rw [ih, List.pairwise_cons, and_iff_right hhead]
  | @member key t members given m d hkey _ hgathers ih =>
    have hhead : m.name ∉ given.map Prod.fst ↔ ∀ e ∈ members, ¬ kind.SameMember key e.1 := by
      rw [hgathers.mem_names_iff hkey.mem]
      constructor
      · rintro h e he ⟨m', hm', hm''⟩
        obtain rfl := hm'.unique hkey
        exact h ⟨e, he, hm''⟩
      · rintro h ⟨e, he, hm'⟩
        exact h e he ⟨m, hkey, hm'⟩
    rw [List.map_cons, List.nodup_cons, List.pairwise_cons, ih, hhead]

theorem exists_mem (h : Gathers R kind members given) {key : List Char} {t : Tree} (hmem : (key, t) ∈ members)
    (hkey : kind.Names key m) : ∃ d, (m.name, d) ∈ given ∧ DescribesMember R m t d := by
  induction h with
  | nil => exact absurd hmem List.not_mem_nil
  | other hother _ ih =>
    obtain heq | hmem := List.mem_cons.1 hmem
    · cases heq
      exact absurd hkey hother.not_names
    · exact ih hmem
  | member hkey' ht _ ih =>
    obtain heq | hmem := List.mem_cons.1 hmem
    · cases heq
      obtain rfl := hkey.unique hkey'
      exact ⟨_, List.mem_cons_self, ht⟩
    · obtain ⟨d, hd, hdescribes⟩ := ih hmem
      exact ⟨d, List.mem_cons_of_mem _ hd, hdescribes⟩

end Gathers

/-! Levels -/

variable {levels : Nat} {shape : Shape} {t : Tree} {d : Datum}

theorem DescribesLeaf.describes (h : DescribesLeaf shape t d) (levels : Nat) : Describes levels shape t d := by
  cases levels with
  | zero => exact h
  | succ levels => exact .inl h

/-- Without items and members inside, levels make no difference. -/
theorem describes_iff_describesLeaf (h : ∀ R, ¬ DescribesContainer R shape t d) :
    Describes levels shape t d ↔ DescribesLeaf shape t d := by
  cases levels with
  | zero => exact Iff.rfl
  | succ levels => exact or_iff_left (h _)

theorem describes_succ_iff (h : ¬ DescribesLeaf shape t d) :
    Describes (levels + 1) shape t d ↔ DescribesContainer (Describes levels) shape t d := or_iff_right h

/-- Null says nothing by itself. -/
theorem not_describes_null : ¬ Describes levels shape .null d := by
  cases levels with
  | zero => exact fun h => nomatch h
  | succ levels =>
    rintro (h | h)
    · cases h
    · cases h

end Datum
end ProtoLink
