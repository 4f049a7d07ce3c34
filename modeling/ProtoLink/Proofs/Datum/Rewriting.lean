import Mathlib.Logic.Relation
import ProtoLink.Proofs.Datum.Reading

/-! Other ways to write a document of a shape: members in another order, under bynames, left out, null or
passed over, and records as arrays. None of them changes what the document says. -/
namespace ProtoLink

open Json (Denotes Tree)

/-- How the default of a shape is written. -/
def Shape.defaultTree : Shape → Tree
  | .text => .string []
  | .int32 => .number ['0']
  | .flag => .bool false
  | .list _ => .array []
  | .record _ => .null

namespace Datum

/-- What stands for a member in an array instead of an object: its value, or null for an optional one that is absent. -/
inductive Moves (kind : RecordKind) (members : List (List Char × Tree)) (m : Member) : Tree → Prop
  | value {key : List Char} {t : Tree} (hkey : kind.Names key m) (h : (key, t) ∈ members) : Moves kind members m t
  | null (hm : m.presence = .optional) (h : ∀ e ∈ members, ¬ kind.Names e.1 m) : Moves kind members m .null

/-- One change in how a document is written. -/
inductive Rewrites : Shape → Tree → Tree → Prop
  | permute {kind : RecordKind} {members members' : List (List Char × Tree)} (h : members.Perm members') :
      Rewrites (.record kind) (.object members) (.object members')
  | rename {kind : RecordKind} {key key' : List Char} {m : Member} {t : Tree} {members : List (List Char × Tree)}
      (hkey : kind.Names key m) (hkey' : kind.Names key' m) :
      Rewrites (.record kind) (.object ((key, t) :: members)) (.object ((key', t) :: members))
  | drop {kind : RecordKind} {key : List Char} {m : Member} {members : List (List Char × Tree)}
      (hkey : kind.Names key m) (hm : m.presence = .defaulted) :
      Rewrites (.record kind) (.object ((key, m.shape.defaultTree) :: members)) (.object members)
  | null {kind : RecordKind} {key : List Char} {m : Member} {members : List (List Char × Tree)}
      (hkey : kind.Names key m) (hm : m.presence = .optional) (h : ∀ e ∈ members, ¬ kind.Names e.1 m) :
      Rewrites (.record kind) (.object members) (.object ((key, .null) :: members))
  | insert {kind : RecordKind} {key : List Char} {members : List (List Char × Tree)} (hkey : kind.Ignores key)
      (t : Tree) : Rewrites (.record kind) (.object members) (.object ((key, t) :: members))
  | array {kind : RecordKind} {members : List (List Char × Tree)} {ts : List Tree}
      (h : List.Forall₂ (Moves kind members) kind.members ts) :
      Rewrites (.record kind) (.object members) (.array ts)
  | item {item : Shape} {t t' : Tree} (ts ts' : List Tree) (h : Rewrites item t t') :
      Rewrites (.list item) (.array (ts ++ t :: ts')) (.array (ts ++ t' :: ts'))
  | member {kind : RecordKind} {key : List Char} {m : Member} {t t' : Tree} {members : List (List Char × Tree)}
      (hkey : kind.Names key m) (h : Rewrites m.shape t t') :
      Rewrites (.record kind) (.object ((key, t) :: members)) (.object ((key, t') :: members))
  | slot {kind : RecordKind} {m : Member} {t t' : Tree} {ts ts' : List Tree} (hm : kind.members[ts.length]? = some m)
      (h : Rewrites m.shape t t') : Rewrites (.record kind) (.array (ts ++ t :: ts')) (.array (ts ++ t' :: ts'))

/-! What an object says after each of the changes -/

section

variable {R : Shape → Tree → Datum → Prop} {kind : RecordKind} {key key' : List Char} {m : Member} {t t' : Tree}
  {members members' : List (List Char × Tree)} {given given' : List (String × Datum)} {ds : List Datum}

theorem FillsSlot.perm {d : Datum} (h : FillsSlot given m d) (hperm : given.Perm given') : FillsSlot given' m d := by
  obtain hd | ⟨hnot, hd⟩ := h
  · exact .inl (hperm.mem_iff.1 hd)
  · exact .inr ⟨fun hmem => hnot ((hperm.map Prod.fst).mem_iff.2 hmem), hd⟩

theorem Gathers.perm (hperm : members.Perm members') (h : Gathers R kind members given) :
    ∃ given', given.Perm given' ∧ Gathers R kind members' given' := by
  induction hperm generalizing given with
  | nil => exact ⟨given, .refl _, h⟩
  | cons e _ ih =>
    cases h with
    | other hkey h =>
      obtain ⟨given', hgiven, h'⟩ := ih h
      exact ⟨given', hgiven, .other hkey h'⟩
    | member hkey ht h =>
      obtain ⟨given', hgiven, h'⟩ := ih h
      exact ⟨_, hgiven.cons _, .member hkey ht h'⟩
  | swap e e' members =>
    cases h with
    | other hkey h =>
      cases h with
      | other hkey' h => exact ⟨given, .refl _, .other hkey' (.other hkey h)⟩
      | member hkey' ht' h => exact ⟨_, .refl _, .member hkey' ht' (.other hkey h)⟩
    | member hkey ht h =>
      cases h with
      | other hkey' h => exact ⟨_, .refl _, .other hkey' (.member hkey ht h)⟩
      | member hkey' ht' h => exact ⟨_, .swap .., .member hkey' ht' (.member hkey ht h)⟩
  | trans _ _ ih ih' =>
    obtain ⟨given', hgiven, h'⟩ := ih h
    obtain ⟨given'', hgiven', h''⟩ := ih' h'
    exact ⟨given'', hgiven.trans hgiven', h''⟩

/-- What is given in front is the value of the member that the key stands for. -/
theorem Gathers.of_names (h : Gathers R kind ((key, t) :: members) given) (hkey : kind.Names key m) :
    ∃ d given', given = (m.name, d) :: given' ∧ DescribesMember R m t d ∧ Gathers R kind members given' := by
  cases h with
  | other hother => exact absurd hkey hother.not_names
  | member hkey' ht h =>
    obtain rfl := hkey.unique hkey'
    exact ⟨_, _, rfl, ht, h⟩

/-- It makes no difference whether a fallback is given or not. -/
theorem fillsSlot_cons_iff {m' : Member} {d d' : Datum} (hm : m ∈ kind.members) (hm' : m' ∈ kind.members)
    (hnot : m.name ∉ given.map Prod.fst) (hd : m.fallback? = some d) :
    FillsSlot ((m.name, d) :: given) m' d' ↔ FillsSlot given m' d' := by
  by_cases hname : m'.name = m.name
  · obtain rfl := RecordKind.eq_of_name_eq hm' hm hname
    have hmem : (m'.name, d') ∉ given := fun h => hnot (List.mem_map.2 ⟨_, h, rfl⟩)
    simp [FillsSlot, hmem, hnot, hd, eq_comm]
  · simp [FillsSlot, hname]

theorem forall₂_congr_of_mem {α β : Type} {S T : α → β → Prop} {as : List α} {bs : List β}
    (h : ∀ a ∈ as, ∀ b, S a b ↔ T a b) : List.Forall₂ S as bs ↔ List.Forall₂ T as bs := by
  induction as generalizing bs with
  | nil => rw [List.forall₂_nil_left_iff, List.forall₂_nil_left_iff]
  | cons a as ih =>
    obtain ⟨ha, has⟩ := List.forall_mem_cons.1 h
    rw [List.forall₂_cons_left_iff, List.forall₂_cons_left_iff]
    simp only [ha, ih has]

namespace DescribesObject

theorem perm (hperm : members.Perm members') (h : DescribesObject R kind members ds) :
    DescribesObject R kind members' ds := by
  obtain ⟨given, hgathers, hnodup, hds⟩ := h
  obtain ⟨given', hgiven, hgathers'⟩ := hgathers.perm hperm
  exact ⟨given', hgathers', (hgiven.map Prod.fst).nodup_iff.1 hnodup, hds.imp fun _ _ hd => hd.perm hgiven⟩

/-- Another key for a member, and a value that says the same of it. -/
theorem replace (hkey : kind.Names key m) (hkey' : kind.Names key' m)
    (ht : ∀ d, DescribesMember R m t d → DescribesMember R m t' d)
    (h : DescribesObject R kind ((key, t) :: members) ds) : DescribesObject R kind ((key', t') :: members) ds := by
  obtain ⟨given, hgathers, hnodup, hds⟩ := h
  obtain ⟨d, given', rfl, hd, hrest⟩ := hgathers.of_names hkey
  exact ⟨_, .member hkey' (ht d hd) hrest, hnodup, hds⟩

/-- A member that is given its fallback can be left out. -/
theorem drop (hkey : kind.Names key m) (ht : ∀ d, DescribesMember R m t d → m.fallback? = some d)
    (h : DescribesObject R kind ((key, t) :: members) ds) : DescribesObject R kind members ds := by
  obtain ⟨given, hgathers, hnodup, hds⟩ := h
  obtain ⟨d, given', rfl, hd, hrest⟩ := hgathers.of_names hkey
  obtain ⟨hnot, hnodup'⟩ := List.nodup_cons.1 hnodup
  refine ⟨given', hrest, hnodup', (forall₂_congr_of_mem fun m' hm' d' => ?_).1 hds⟩
  exact fillsSlot_cons_iff hkey.mem hm' hnot (ht d hd)

/-- A member that is left out can be given its fallback. -/
theorem give {d : Datum} (hkey : kind.Names key m) (habsent : ∀ e ∈ members, ¬ kind.Names e.1 m)
    (hd : m.fallback? = some d) (ht : DescribesMember R m t d) (h : DescribesObject R kind members ds) :
    DescribesObject R kind ((key, t) :: members) ds := by
  obtain ⟨given, hgathers, hnodup, hds⟩ := h
  have hnot : m.name ∉ given.map Prod.fst := by
    rw [hgathers.mem_names_iff hkey.mem]
    rintro ⟨e, he, hname⟩
    exact habsent e he hname
  refine ⟨_, .member hkey ht hgathers, List.nodup_cons.2 ⟨hnot, hnodup⟩, ?_⟩
  exact (forall₂_congr_of_mem fun m' hm' d' => fillsSlot_cons_iff hkey.mem hm' hnot hd).2 hds

theorem insert (hkey : kind.Ignores key) (t : Tree) (h : DescribesObject R kind members ds) :
    DescribesObject R kind ((key, t) :: members) ds := by
  obtain ⟨given, hgathers, hnodup, hds⟩ := h
  exact ⟨given, .other hkey hgathers, hnodup, hds⟩

/-- What is moved into an array says the same of its member. -/
theorem array {ts : List Tree} (hmoves : List.Forall₂ (Moves kind members) kind.members ts)
    (h : DescribesObject R kind members ds) : DescribesSlots R kind.members ts ds := by
  obtain ⟨given, hgathers, hnodup, hds⟩ := h
  have hslot : ∀ m ∈ kind.members, ∀ t d, Moves kind members m t → FillsSlot given m d → DescribesMember R m t d := by
    intro m hm t d hmoves hd
    cases hmoves with
    | value hkey hmem =>
      obtain ⟨d', hd', ht⟩ := hgathers.exists_mem hmem hkey
      obtain hd | ⟨hnot, _⟩ := hd
      · rw [← given?_eq_some_iff hnodup] at hd hd'
        obtain rfl := Option.some.inj (hd.symm.trans hd')
        exact ht
      · exact absurd (List.mem_map.2 ⟨_, hd', rfl⟩) hnot
    | null hopt habsent =>
      obtain hd | ⟨_, hd⟩ := hd
      · obtain ⟨e, he, hname⟩ := (hgathers.mem_names_iff hm).1 (List.mem_map.2 ⟨_, hd, rfl⟩)
        exact absurd hname (habsent e he)
      · rw [Member.fallback?, hopt] at hd
        cases hd
        exact .null hopt
  generalize kind.members = ms at hmoves hds hslot
  induction hmoves generalizing ds with
  | nil =>
    cases hds
    exact .nil
  | cons hm _ ih =>
    cases hds with
    | cons hd hds =>
      obtain ⟨hhead, htail⟩ := List.forall_mem_cons.1 hslot
      exact .cons (hhead _ _ hm hd) (ih hds htail)

end DescribesObject

theorem DescribesSlots.replace {ms : List Member} {ts ts' : List Tree} (hm : ms[ts.length]? = some m)
    (ht : ∀ d, DescribesMember R m t d → DescribesMember R m t' d)
    (h : DescribesSlots R ms (ts ++ t :: ts') ds) : DescribesSlots R ms (ts ++ t' :: ts') ds := by
  induction ts generalizing ms ds with
  | nil =>
    cases h with
    | cons hd hds =>
      obtain rfl := Option.some.inj hm
      exact .cons (ht _ hd) hds
  | cons t₀ ts ih =>
    cases h with
    | cons hd hds => exact .cons hd (ih hm hds)

theorem forall₂_replace {S : Tree → Datum → Prop} {ts ts' : List Tree} (ht : ∀ d, S t d → S t' d)
    (h : List.Forall₂ S (ts ++ t :: ts') ds) : List.Forall₂ S (ts ++ t' :: ts') ds := by
  induction ts generalizing ds with
  | nil =>
    cases h with
    | cons hd hds => exact .cons (ht _ hd) hds
  | cons t₀ ts ih =>
    cases h with
    | cons hd hds => exact .cons hd (ih hds)

end

/-! What a document says after each of the changes -/

variable {levels : Nat} {kind : RecordKind} {m : Member} {d : Datum}

theorem describes_list_iff {item : Shape} {ts : List Tree} :
    Describes levels (.list item) (.array ts) d ↔
      ∃ n ds, levels = n + 1 ∧ d = .list ds ∧ List.Forall₂ (Describes n item) ts ds := by
  constructor
  · intro h
    cases levels with
    | zero => cases h
    | succ n =>
      obtain h | h := h
      · cases h
      · cases h with
        | list h => exact ⟨n, _, rfl, rfl, h⟩
  · rintro ⟨n, ds, rfl, rfl, h⟩
    exact .inr (.list h)

theorem describes_array_iff {ts : List Tree} :
    Describes levels (.record kind) (.array ts) d ↔
      ∃ n ds, levels = n + 1 ∧ d = .record ds ∧ DescribesSlots (Describes n) kind.members ts ds := by
  constructor
  · intro h
    cases levels with
    | zero => cases h
    | succ n =>
      obtain h | h := h
      · cases h
      · cases h with
        | array h => exact ⟨n, _, rfl, rfl, h⟩
  · rintro ⟨n, ds, rfl, rfl, h⟩
    exact .inr (.array h)

theorem describes_object_iff {members : List (List Char × Tree)} :
    Describes levels (.record kind) (.object members) d ↔
      ∃ n ds, levels = n + 1 ∧ d = .record ds ∧ DescribesObject (Describes n) kind members ds := by
  constructor
  · intro h
    cases levels with
    | zero => cases h
    | succ n =>
      obtain h | h := h
      · cases h
      · cases h with
        | object h => exact ⟨n, _, rfl, rfl, h⟩
  · rintro ⟨n, ds, rfl, rfl, h⟩
    exact .inr (.object h)

theorem ofInt_eq_zero {n : Int} (h : Json.ofInt n = .number ['0']) : n = 0 := by
  cases n with
  | negSucc n => cases h
  | ofNat n =>
    have hdigits : Json.digits n = ['0'] := Json.number.inj h
    by_cases hn : n = 0
    · rw [hn]
      rfl
    · obtain ⟨c, cs, hd, hc⟩ := Json.exists_digits_cons (Nat.pos_of_ne_zero hn)
      rw [hd] at hdigits
      exact absurd (List.cons.inj hdigits).1 hc

/-- What is written for a default is read as the default. -/
theorem default_of_describes {shape : Shape} (h : Describes levels shape shape.defaultTree d) : d = shape.default := by
  cases shape with
  | text =>
    cases (describes_iff_describesLeaf (by rintro _ ⟨⟩)).1 h with
    | text hliteral =>
      have hempty := hliteral.unique .nil
      rw [String.toList_eq_nil_iff] at hempty
      rw [hempty]
      rfl
  | int32 =>
    cases (describes_iff_describesLeaf (by rintro _ ⟨⟩)).1 h with
    | int32 hzero =>
      rw [ofInt_eq_zero hzero]
      rfl
  | flag =>
    cases (describes_iff_describesLeaf (by rintro _ ⟨⟩)).1 h
    rfl
  | list item =>
    obtain ⟨n, ds, _, rfl, hds⟩ := describes_list_iff.1 h
    cases hds
    rfl
  | record kind => exact absurd h not_describes_null

theorem fallback?_of_defaultTree (hm : m.presence = .defaulted)
    (h : DescribesMember (Describes levels) m m.shape.defaultTree d) : m.fallback? = some d := by
  rw [Member.fallback?, hm]
  generalize ht : m.shape.defaultTree = t at h
  cases h with
  | null hopt =>
    rw [hm] at hopt
    cases hopt
  | value h =>
    subst t
    rw [default_of_describes h]

theorem not_rewrites_null {shape : Shape} {t : Tree} : ¬ Rewrites shape .null t := by
  rintro ⟨⟩

/-- What says the same of a value says the same of a member. -/
theorem describesMember_of_rewrites {t t' : Tree} (h : Rewrites m.shape t t')
    (ht : ∀ d, Describes levels m.shape t d → Describes levels m.shape t' d) (d : Datum)
    (hd : DescribesMember (Describes levels) m t d) : DescribesMember (Describes levels) m t' d := by
  cases hd with
  | null => exact absurd h not_rewrites_null
  | value hd => exact .value (ht d hd)

theorem describes_of_object {members members' : List (List Char × Tree)}
    (h : ∀ n ds, DescribesObject (Describes n) kind members ds → DescribesObject (Describes n) kind members' ds)
    (hd : Describes levels (.record kind) (.object members) d) :
    Describes levels (.record kind) (.object members') d := by
  obtain ⟨n, ds, hlevels, rfl, hds⟩ := describes_object_iff.1 hd
  exact describes_object_iff.2 ⟨n, ds, hlevels, rfl, h n ds hds⟩

/-- A document says the same after any of the changes. -/
theorem Rewrites.describes {shape : Shape} {t t' : Tree} (h : Rewrites shape t t') {levels : Nat} {d : Datum}
    (hd : Describes levels shape t d) : Describes levels shape t' d := by
  induction h generalizing levels d with
  | permute hperm => exact describes_of_object (fun _ _ => .perm hperm) hd
  | rename hkey hkey' => exact describes_of_object (fun _ _ => .replace hkey hkey' fun _ h => h) hd
  | drop hkey hm => exact describes_of_object (fun _ _ => .drop hkey fun _ => fallback?_of_defaultTree hm) hd
  | @null kind key m members hkey hm habsent =>
    have hfall : m.fallback? = some .absent := by rw [Member.fallback?, hm]
    exact describes_of_object (fun _ _ => .give hkey habsent hfall (.null hm)) hd
  | insert hkey t => exact describes_of_object (fun _ _ => .insert hkey t) hd
  | array hmoves =>
    obtain ⟨n, ds, hlevels, rfl, hds⟩ := describes_object_iff.1 hd
    exact describes_array_iff.2 ⟨n, ds, hlevels, rfl, hds.array hmoves⟩
  | item ts ts' _ ih =>
    obtain ⟨n, ds, hlevels, rfl, hds⟩ := describes_list_iff.1 hd
    exact describes_list_iff.2 ⟨n, ds, hlevels, rfl, forall₂_replace (fun _ => ih) hds⟩
  | member hkey h ih =>
    exact describes_of_object
      (fun _ _ => .replace hkey hkey (describesMember_of_rewrites h fun _ => ih)) hd
  | slot hm h ih =>
    obtain ⟨n, ds, hlevels, rfl, hds⟩ := describes_array_iff.1 hd
    exact describes_array_iff.2
      ⟨n, ds, hlevels, rfl, hds.replace hm (describesMember_of_rewrites h fun _ => ih)⟩

/-- Any number of changes leaves what a document says as it is. -/
theorem describes_of_reflTransGen {shape : Shape} {t t' : Tree} (h : Relation.ReflTransGen (Rewrites shape) t t')
    (hd : Describes levels shape t d) : Describes levels shape t' d := by
  induction h with
  | refl => exact hd
  | tail _ h ih => exact h.describes ih

end Datum
end ProtoLink
