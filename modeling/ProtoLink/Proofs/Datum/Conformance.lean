import ProtoLink.Proofs.Datum.Reading

/-! The format of a shape: the documents that can be read as a value of it, said without the values. Every list and
record inside has to keep to the format too. -/
namespace ProtoLink.Datum

open Json (Denotes IsTextOf Tree)

inductive ConformsLeaf : Shape → Tree → Prop
  | text {literal text : List Char} (h : Denotes literal text) : ConformsLeaf .text (.string literal)
  | flag {value : Bool} : ConformsLeaf .flag (.bool value)
  | int32 {n : Int} {literal : List Char} (h : Json.ofInt n = .number literal)
      (hn : -0x80000000 ≤ n ∧ n < 0x80000000) : ConformsLeaf .int32 (.number literal)

section

-- what keeps to the format inside of a list or a record
variable (P : Shape → Tree → Prop)

/-- Only an optional member may be null. -/
inductive ConformsMember (m : Member) : Tree → Prop
  | null (h : m.presence = .optional) : ConformsMember m .null
  | value {t : Tree} (h : P m.shape t) : ConformsMember m t

/-- A record as an array: its members in their order. None that must be given is behind the end. -/
structure ConformsArray (ms : List Member) (ts : List Tree) : Prop where
  length_le : ts.length ≤ ms.length
  member : ∀ e ∈ ms.zip ts, ConformsMember P e.1 e.2
  required : ∀ m ∈ ms.drop ts.length, m.presence ≠ .required

/-- A record as an object: each member of the record at most once, and the required ones. -/
structure ConformsObject (kind : RecordKind) (members : List (List Char × Tree)) : Prop where
  member : ∀ e ∈ members, kind.Ignores e.1 ∨ ∃ m, kind.Names e.1 m ∧ ConformsMember P m e.2
  once : members.Pairwise fun e e' => ¬ kind.SameMember e.1 e'.1
  required : ∀ m ∈ kind.members, m.presence = .required → ∃ e ∈ members, kind.Names e.1 m

inductive ConformsContainer : Shape → Tree → Prop
  | list {item : Shape} {ts : List Tree} (h : ∀ t ∈ ts, P item t) : ConformsContainer (.list item) (.array ts)
  | array {kind : RecordKind} {ts : List Tree} (h : ConformsArray P kind.members ts) :
      ConformsContainer (.record kind) (.array ts)
  | object {kind : RecordKind} {members : List (List Char × Tree)} (h : ConformsObject P kind members) :
      ConformsContainer (.record kind) (.object members)

end

/-- The format of a shape, with at most `levels` lists and records inside of each other. -/
def Conforms : (levels : Nat) → Shape → Tree → Prop
  | 0, shape, t => ConformsLeaf shape t
  | levels + 1, shape, t => ConformsLeaf shape t ∨ ConformsContainer (Conforms levels) shape t

theorem conformsLeaf_iff {shape : Shape} {t : Tree} : ConformsLeaf shape t ↔ ∃ d, DescribesLeaf shape t d := by
  constructor
  · rintro (h | _ | ⟨h, hn⟩)
    · exact ⟨.text (.ofList _), .text (by rwa [String.toList_ofList])⟩
    · exact ⟨_, .flag⟩
    · exact ⟨_, .int32 h hn⟩
  · rintro ⟨_, h | _ | ⟨h, hn⟩⟩
    · exact .text h
    · exact .flag
    · exact .int32 h hn

/-! What keeps to the format is what describes a value -/

/-- One choice for each element makes a list of choices. -/
theorem exists_forall₂_iff {α β : Type} {S : α → β → Prop} {as : List α} :
    (∃ bs, List.Forall₂ S as bs) ↔ ∀ a ∈ as, ∃ b, S a b := by
  induction as with
  | nil => exact iff_of_true ⟨[], .nil⟩ (by simp)
  | cons a as ih =>
    rw [List.forall_mem_cons, ← ih]
    constructor
    · rintro ⟨_, hb | ⟨hb, hbs⟩⟩
      exact ⟨⟨_, hb⟩, _, hbs⟩
    · rintro ⟨⟨b, hb⟩, bs, hbs⟩
      exact ⟨b :: bs, .cons hb hbs⟩

section

variable {P : Shape → Tree → Prop} {R : Shape → Tree → Datum → Prop} {kind : RecordKind} {m : Member} {t : Tree}

theorem fallback?_eq_none_iff : m.fallback? = none ↔ m.presence = .required := by
  unfold Member.fallback?
  cases m.presence <;> simp

theorem exists_fallback? (h : m.presence ≠ .required) : ∃ d, m.fallback? = some d := by
  rwa [← Option.ne_none_iff_exists', Ne, fallback?_eq_none_iff]

theorem conformsMember_iff (hP : ∀ shape t, P shape t ↔ ∃ d, R shape t d) :
    ConformsMember P m t ↔ ∃ d, DescribesMember R m t d := by
  constructor
  · rintro (h | h)
    · exact ⟨_, .null h⟩
    · obtain ⟨d, hd⟩ := (hP _ _).1 h
      exact ⟨d, .value hd⟩
  · rintro ⟨d, h | h⟩
    · exact .null h
    · exact .value ((hP _ _).2 ⟨d, h⟩)

theorem conformsArray_iff (hP : ∀ shape t, P shape t ↔ ∃ d, R shape t d) {ms : List Member} {ts : List Tree} :
    ConformsArray P ms ts ↔ ∃ ds, DescribesSlots R ms ts ds := by
  induction ms generalizing ts with
  | nil =>
    constructor
    · intro h
      obtain rfl := List.length_eq_zero_iff.1 (Nat.le_zero.1 h.length_le)
      exact ⟨[], .nil⟩
    · rintro ⟨_, ⟨⟩⟩
      exact ⟨Nat.le_refl _, by simp, by simp⟩
  | cons m ms ih =>
    constructor
    · intro h
      cases ts with
      | nil =>
        have hrequired := List.forall_mem_cons.1 h.required
        obtain ⟨d, hd⟩ := exists_fallback? hrequired.1
        obtain ⟨ds, hds⟩ : ∃ ds, DescribesSlots R ms [] ds := ih.1 ⟨Nat.zero_le _, by simp, hrequired.2⟩
        exact ⟨d :: ds, .rest hd hds⟩
      | cons t ts =>
        have hmember := List.forall_mem_cons.1 h.member
        obtain ⟨d, hd⟩ := (conformsMember_iff hP).1 hmember.1
        obtain ⟨ds, hds⟩ := ih.1 ⟨Nat.le_of_succ_le_succ h.length_le, hmember.2, h.required⟩
        exact ⟨d :: ds, .cons hd hds⟩
    · rintro ⟨_, _ | ⟨hd, hds⟩ | ⟨hd, hds⟩⟩
      · have hrest := ih.2 ⟨_, hds⟩
        refine ⟨Nat.zero_le _, by simp, List.forall_mem_cons.2 ⟨?_, hrest.required⟩⟩
        intro h
        rw [fallback?_eq_none_iff.2 h] at hd
        cases hd
      · have hrest := ih.2 ⟨_, hds⟩
        exact ⟨Nat.succ_le_succ hrest.length_le,
          List.forall_mem_cons.2 ⟨(conformsMember_iff hP).2 ⟨_, hd⟩, hrest.member⟩, hrest.required⟩

theorem exists_gathers_iff (hP : ∀ shape t, P shape t ↔ ∃ d, R shape t d) {members : List (List Char × Tree)} :
    (∀ e ∈ members, kind.Ignores e.1 ∨ ∃ m, kind.Names e.1 m ∧ ConformsMember P m e.2) ↔
      ∃ given, Gathers R kind members given := by
  induction members with
  | nil => exact iff_of_true (by simp) ⟨[], .nil⟩
  | cons e members ih =>
    obtain ⟨key, t⟩ := e
    rw [List.forall_mem_cons, ih]
    constructor
    · rintro ⟨hkey | ⟨m, hkey, ht⟩, given, hgathers⟩
      · exact ⟨given, .other hkey hgathers⟩
      · obtain ⟨d, hd⟩ := (conformsMember_iff hP).1 ht
        exact ⟨_, .member hkey hd hgathers⟩
    · rintro ⟨_, _ | ⟨hkey, hgathers⟩ | ⟨hkey, ht, hgathers⟩⟩
      · exact ⟨.inl hkey, _, hgathers⟩
      · exact ⟨.inr ⟨_, hkey, (conformsMember_iff hP).2 ⟨_, ht⟩⟩, _, hgathers⟩

theorem conformsObject_iff (hP : ∀ shape t, P shape t ↔ ∃ d, R shape t d) {members : List (List Char × Tree)} :
    ConformsObject P kind members ↔ ∃ ds, DescribesObject R kind members ds := by
  -- a slot that is not given needs a fallback
  have hslots : ∀ {given}, Gathers R kind members given → ((∃ ds, List.Forall₂ (FillsSlot given) kind.members ds) ↔
      ∀ m ∈ kind.members, m.presence = .required → ∃ e ∈ members, kind.Names e.1 m) := by
    intro given hgathers
    rw [exists_forall₂_iff]
    refine forall₂_congr fun m hm => ?_
    rw [← hgathers.mem_names_iff hm]
    constructor
    · rintro ⟨d, hd | ⟨_, hd⟩⟩ hrequired
      · exact List.mem_map.2 ⟨_, hd, rfl⟩
      · rw [fallback?_eq_none_iff.2 hrequired] at hd
        cases hd
    · intro h
      by_cases hgiven : m.name ∈ given.map Prod.fst
      · obtain ⟨⟨_, d⟩, hd, rfl⟩ := List.mem_map.1 hgiven
        exact ⟨d, .inl hd⟩
      · obtain ⟨d, hd⟩ := exists_fallback? fun hrequired => hgiven (h hrequired)
        exact ⟨d, .inr ⟨hgiven, hd⟩⟩
  constructor
  · intro h
    obtain ⟨given, hgathers⟩ := (exists_gathers_iff hP).1 h.member
    obtain ⟨ds, hds⟩ := (hslots hgathers).2 h.required
    exact ⟨ds, given, hgathers, hgathers.nodup_iff.2 h.once, hds⟩
  · rintro ⟨ds, given, hgathers, hnodup, hds⟩
    exact ⟨(exists_gathers_iff hP).2 ⟨given, hgathers⟩, hgathers.nodup_iff.1 hnodup, (hslots hgathers).1 ⟨ds, hds⟩⟩

theorem conformsContainer_iff (hP : ∀ shape t, P shape t ↔ ∃ d, R shape t d) {shape : Shape} :
    ConformsContainer P shape t ↔ ∃ d, DescribesContainer R shape t d := by
  constructor
  · rintro (h | h | h)
    · obtain ⟨ds, hds⟩ := exists_forall₂_iff.2 fun t ht => (hP _ t).1 (h t ht)
      exact ⟨_, .list hds⟩
    · obtain ⟨ds, hds⟩ := (conformsArray_iff hP).1 h
      exact ⟨_, .array hds⟩
    · obtain ⟨ds, hds⟩ := (conformsObject_iff hP).1 h
      exact ⟨_, .object hds⟩
  · rintro ⟨_, h | h | h⟩
    · exact .list fun t ht => (hP _ t).2 (exists_forall₂_iff.1 ⟨_, h⟩ t ht)
    · exact .array ((conformsArray_iff hP).2 ⟨_, h⟩)
    · exact .object ((conformsObject_iff hP).2 ⟨_, h⟩)

end

theorem conforms_iff {levels : Nat} {shape : Shape} {t : Tree} :
    Conforms levels shape t ↔ ∃ d, Describes levels shape t d := by
  induction levels generalizing shape t with
  | zero => exact conformsLeaf_iff
  | succ levels ih =>
    have hcontainer : ConformsContainer (Conforms levels) shape t ↔
        ∃ d, DescribesContainer (Describes levels) shape t d := conformsContainer_iff fun _ _ => ih
    simp only [Conforms, Describes, conformsLeaf_iff, hcontainer, exists_or]

end ProtoLink.Datum
