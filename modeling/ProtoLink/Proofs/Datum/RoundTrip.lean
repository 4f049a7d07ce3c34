import ProtoLink.Proofs.Datum.Step
import ProtoLink.Proofs.Json.Literal

/-! The compact text of a value that fits its shape is read as that value, as long as it is nested no deeper than
the reader goes. Deeper ones are refused for their depth. -/
namespace ProtoLink

namespace Datum

open Json (EndsNumber Fault LeadsIn compact compactItems compactMembers depth depthOfItems depthOfMembers isBlank
  isBlank_eq_false_of_isDigit quote skipBlanks)

mutual

/-- Whether a value has a shape. Numbers have to be in the range of 32-bit integers. -/
def Fits : Shape → Datum → Prop
  | .text, .text _ => True
  | .int32, .int n => -0x80000000 ≤ n ∧ n < 0x80000000
  | .flag, .flag _ => True
  | .list item, .list ds => AllFit item ds
  | .record kind, .record ds => SlotsFit kind.members ds
  | _, _ => False

def AllFit (item : Shape) : List Datum → Prop
  | [] => True
  | d :: ds => Fits item d ∧ AllFit item ds

/-- Only what is optional may be absent. -/
def SlotsFit : List Member → List Datum → Prop
  | [], [] => True
  | m :: ms, d :: ds => (m.presence = .optional ∧ d = .absent ∨ Fits m.shape d) ∧ SlotsFit ms ds
  | _, _ => False

end

/-! The pieces of a printed container -/

/-- The rest of an array in front of an item or of its end. Only the first item has no comma in front. -/
def itemsText (first : Bool) : List Json → List Char
  | [] => [']']
  | j :: js => (if first then [] else [',']) ++ (compact j ++ compactItems js)

/-- The rest of an object in front of a member or of its end. -/
def membersText (first : Bool) : List (String × Json) → List Char
  | [] => ['\x7d']
  | (name, j) :: js =>
    (if first then [] else [',']) ++ (quote name ++ ':' :: (compact j ++ compactMembers js))

theorem itemsText_false (js : List Json) : itemsText false js = compactItems js := by
  cases js <;> simp [itemsText, compactItems]

theorem membersText_false (js : List (String × Json)) : membersText false js = compactMembers js := by
  cases js <;> simp [membersText, compactMembers]

theorem compact_array (js : List Json) : compact (.array js) = '[' :: itemsText true js := by
  cases js <;> simp [itemsText, compact]

theorem compact_object (js : List (String × Json)) :
    compact (.object js) = '\x7b' :: membersText true js := by
  cases js <;> simp [membersText, compact]

theorem endsNumber_nil : EndsNumber [] := by
  rintro c ⟨⟩

theorem endsNumber_compactItems (js : List Json) (rest : List Char) : EndsNumber (compactItems js ++ rest) := by
  cases js <;> (rintro c ⟨⟩; decide)

theorem endsNumber_compactMembers (js : List (String × Json)) (rest : List Char) :
    EndsNumber (compactMembers js ++ rest) := by
  rcases js with _ | ⟨⟨name, j⟩, js⟩ <;> (rintro c ⟨⟩; decide)

/-- Of the constructors of a shape's values. -/
theorem Fits.cases {shape : Shape} {d : Datum} (h : Fits shape d) :
    (∃ t, shape = .text ∧ d = .text t) ∨
      (∃ n, shape = .int32 ∧ d = .int n ∧ -0x80000000 ≤ n ∧ n < 0x80000000) ∨
      (∃ v, shape = .flag ∧ d = .flag v) ∨
      (∃ item ds, shape = .list item ∧ d = .list ds ∧ AllFit item ds) ∨
      ∃ kind ds, shape = .record kind ∧ d = .record ds ∧ SlotsFit kind.members ds := by
  cases shape <;> cases d <;> simp_all [Fits]

/-- The first character of an integer is its sign or a digit. -/
theorem exists_compact_ofInt (n : Int) :
    (∃ k : Nat, n = -(k + 1 : Nat) ∧ compact (.ofInt n) = '-' :: Json.digits (k + 1)) ∨
      ∃ (k : Nat) (c : Char) (cs : List Char), n = k ∧ compact (.ofInt n) = c :: cs ∧ c :: cs = Json.digits k ∧
        c.isDigit = true := by
  cases n with
  | negSucc k => exact .inl ⟨k, rfl, rfl⟩
  | ofNat k =>
    right
    obtain ⟨c, cs, hd⟩ := List.exists_cons_of_ne_nil (Json.digits_ne_nil k)
    exact ⟨k, c, cs, rfl, hd, hd.symm, Json.isDigit_of_mem_digits (n := k) (by simp [hd])⟩

/-- A value begins with no blank, does not look like the end of a list and not like a null. -/
theorem exists_compact_cons {shape : Shape} {d : Datum} (h : Fits shape d) :
    ∃ c cs, compact (toJson shape d) = c :: cs ∧ isBlank c = false ∧ c ≠ ']' ∧ c ≠ 'n' := by
  obtain ⟨t, rfl, rfl⟩ | ⟨n, rfl, rfl, _⟩ | ⟨v, rfl, rfl⟩ | ⟨item, ds, rfl, rfl, _⟩ |
    ⟨kind, ds, rfl, rfl, _⟩ := h.cases
  · exact ⟨_, _, rfl, by decide⟩
  · obtain ⟨k, _, hk⟩ | ⟨k, c, cs, _, hk, _, hc⟩ := exists_compact_ofInt n
    · exact ⟨_, _, hk, by decide⟩
    · refine ⟨c, cs, hk, isBlank_eq_false_of_isDigit hc, ?_, ?_⟩ <;>
        (rintro rfl; exact absurd hc (by decide))
  · cases v <;> exact ⟨_, _, rfl, by decide⟩
  · exact ⟨_, _, compact_array _, by decide⟩
  · exact ⟨_, _, compact_object _, by decide⟩

theorem readText_quote (t : String) {steps : Nat} (rest : List Char) (h : (quote t).length < steps) :
    readText steps (quote t ++ rest) = .ok (.text t, rest) := by
  simp only [quote, List.cons_append, List.length_cons, List.length_append] at h
  have hscan := Json.scanString_complete (Json.denotes_escape t.toList) rest (show _ < steps by omega)
  simp only [readText, quote, List.cons_append, Json.skipBlanks_cons (show isBlank '"' = false by decide),
    List.append_assoc, List.nil_append, hscan, bind, Except.bind, pure, Except.pure, String.ofList_toList]

theorem readFlag_compact (steps : Nat) (v : Bool) (rest : List Char) :
    readFlag steps (compact (.bool v) ++ rest) = .ok (.flag v, rest) := by
  cases v with
  | false =>
    simp [readFlag, compact, skipBlanks, isBlank, Json.scanWord, bind, Except.bind, pure, Except.pure]
  | true =>
    simp [readFlag, compact, skipBlanks, isBlank, Json.scanWord, bind, Except.bind, pure, Except.pure]

theorem int32Of_integer {n : Int} (hn : -0x80000000 ≤ n ∧ n < 0x80000000) (rest : List Char) :
    int32Of (.integer n) rest = .ok (.int n) := by
  rw [int32Of, if_pos hn]

theorem readInt32_compact (steps : Nat) {n : Int} {rest : List Char} (hn : -0x80000000 ≤ n ∧ n < 0x80000000)
    (hrest : EndsNumber rest) : readInt32 steps (compact (.ofInt n) ++ rest) = .ok (.int n, rest) := by
  have hread := int32Of_integer hn rest
  obtain ⟨k, hk, hcompact⟩ | ⟨k, c, cs, hk, hcompact, hd, hc⟩ := exists_compact_ofInt n
  · have hscan : Json.scanNumber true (Json.digits (k + 1) ++ rest) = .ok (.integer n, rest) := by
      rw [hk]
      exact Json.scanNumber_digits hrest (by omega) fun _ => by omega
    rw [hcompact, readInt32, List.cons_append, Json.skipBlanks_cons (by decide)]
    simp only [hscan, hread, bind, Except.bind, pure, Except.pure]
  · have hscan : Json.scanNumber false (c :: (cs ++ rest)) = .ok (.integer n, rest) := by
      rw [← List.cons_append, hd, hk]
      exact Json.scanNumber_digits hrest (by omega) fun h => by cases h
    rw [hcompact, readInt32, List.cons_append, Json.skipBlanks_cons (isBlank_eq_false_of_isDigit hc)]
    split
    · rename_i heq
      cases heq
      exact absurd hc (by decide)
    · contradiction
    · rename_i heq
      cases heq
      simp only [hc, if_true, hscan, hread, bind, Except.bind, pure, Except.pure]

/-! Outcomes by depth -/

/-- What becomes of the text of `a`, nested `depth` deep, if at most `levels` containers are opened inside of each
other: it is read up to `rest`, or refused for its depth. -/
def Recovers {α : Type} (levels depth : Nat) (a : α) (rest : List Char)
    (r : Except Fault (α × List Char)) : Prop :=
  if depth ≤ levels then r = .ok (a, rest) else ∃ unread, r = .error ⟨.tooDeep, unread⟩

namespace Recovers

variable {α β : Type} {levels depth depth' : Nat} {a : α} {b : β} {s rest : List Char}

theorem of_ok {r : Except Fault (α × List Char)} (h : r = .ok (a, rest)) : Recovers levels 0 a rest r := by
  rw [Recovers, if_pos (Nat.zero_le _)]
  exact h

/-- One piece after the other: the deeper one decides. -/
theorem bind {x : Except Fault (α × List Char)} {f : α × List Char → Except Fault (β × List Char)}
    (hx : Recovers levels depth a s x) (hf : Recovers levels depth' b rest (f (a, s))) :
    Recovers levels (max depth depth') b rest (x >>= f) := by
  by_cases hd : depth ≤ levels
  · rw [Recovers, if_pos hd] at hx
    subst hx
    by_cases hd' : depth' ≤ levels
    · rw [Recovers, if_pos hd'] at hf
      rw [Recovers, if_pos (Nat.max_le.2 ⟨hd, hd'⟩)]
      exact hf
    · rw [Recovers, if_neg hd'] at hf
      rw [Recovers, if_neg (by omega)]
      exact hf
  · rw [Recovers, if_neg hd] at hx
    obtain ⟨unread, rfl⟩ := hx
    rw [Recovers, if_neg (by omega)]
    exact ⟨unread, rfl⟩

/-- Around a piece, when all that follows has been read. -/
theorem map {x : Except Fault (α × List Char)} (g : α → β) (hx : Recovers levels depth a rest x) :
    Recovers levels depth (g a) rest (x >>= fun p => pure (g p.1, p.2)) := by
  have hend : Recovers levels 0 (g a) rest (pure (g a, rest)) := of_ok rfl
  have h := hx.bind (f := fun p => pure (g p.1, p.2)) hend
  rwa [Nat.max_zero] at h

theorem inside {r : Except Fault (α × List Char)} (h : Recovers levels depth a rest r) :
    Recovers (levels + 1) (depth + 1) a rest r := by
  simpa only [Recovers, Nat.add_le_add_iff_right] using h

end Recovers

/-! One step in a container -/

/-- Only the first item or member has no comma in front. -/
theorem leadsIn_comma (first : Bool) : LeadsIn first (if first then [] else [',']) := by
  cases first with
  | true => exact .first .nil
  | false => exact .later .nil .nil

theorem readMember_eq (read : Shape → Reader Datum) (m : Member) {s : List Char} {c : Char} {cs : List Char}
    (h : skipBlanks s = c :: cs) (hnull : c ≠ 'n') : readMember read m s = read m.shape (c :: cs) := by
  simp only [readMember, h]
  split <;> simp_all

theorem readMembers_quote (read : Shape → Reader Datum) {kind : RecordKind} {m : Member}
    (hm : m ∈ kind.members) {k : Nat} (hk : (quote m.name).length < k) {given : List (String × Datum)}
    (hgiven : given? m.name given = none) (first : Bool) {c : Char} (cs : List Char)
    (hblank : isBlank c = false) (hnull : c ≠ 'n') :
    readMembers read kind (k + 1) given first
        ((if first then [] else [',']) ++ (quote m.name ++ ':' :: c :: cs)) = (do
      let (d, r) ← read m.shape (c :: cs)
      readMembers read kind k (given ++ [(m.name, d)]) false r) := by
  have hcolon : Json.scanColon (':' :: c :: cs) = .ok (c :: cs) :=
    Json.scanColon_eq_ok_iff.2 (Json.skipBlanks_cons (by decide))
  have hlen : (m.name.toList.flatMap Json.escape).length < k := by
    simp only [quote, List.cons_append, List.length_cons, List.length_append] at hk
    omega
  have hnames := RecordKind.names_of_member? (RecordKind.member?_name hm)
  have hmember := readMembers_member read hgiven (leadsIn_comma first) hnames hlen (':' :: c :: cs)
  simp only [hcolon, readMember_eq read m (Json.skipBlanks_cons hblank) hnull, bind, Except.bind] at hmember
  simp only [quote, List.cons_append, List.append_assoc, List.nil_append, hmember, bind, Except.bind]

/-! What is given for the members of a record -/

/-- The values of the members that are not absent, under their names. -/
def named : List Member → List Datum → List (String × Datum)
  | _ :: ms, .absent :: ds => named ms ds
  | m :: ms, d :: ds => (m.name, d) :: named ms ds
  | _, _ => []

theorem named_cons (m : Member) (ms : List Member) {d : Datum} (h : d ≠ .absent) (ds : List Datum) :
    named (m :: ms) (d :: ds) = (m.name, d) :: named ms ds := by
  cases d <;> first | rfl | exact absurd rfl h

theorem slotsToJson_cons (m : Member) (ms : List Member) {d : Datum} (h : d ≠ .absent) (ds : List Datum) :
    slotsToJson (m :: ms) (d :: ds) = (m.name, toJson m.shape d) :: slotsToJson ms ds := by
  cases d <;> first | rfl | exact absurd rfl h

theorem not_fits_absent (shape : Shape) : ¬ Fits shape .absent := by
  cases shape <;> exact fun h => h.elim

theorem given?_eq_none_iff {name : String} {given : List (String × Datum)} :
    given? name given = none ↔ name ∉ given.map Prod.fst := by
  induction given with
  | nil => simp [given?]
  | cons e given ih =>
    obtain ⟨n, d⟩ := e
    by_cases h : n = name
    · simp [given?, h]
    · simp [given?, h, ih, Ne.symm h]

theorem given?_append_of_notMem {name : String} {given : List (String × Datum)}
    (h : name ∉ given.map Prod.fst) (more : List (String × Datum)) :
    given? name (given ++ more) = given? name more := by
  induction given with
  | nil => rfl
  | cons e given ih =>
    simp only [List.map_cons, List.mem_cons, not_or] at h
    rw [List.cons_append, given?, if_neg (Ne.symm h.1), ih h.2]

theorem sublist_names_named (ms : List Member) (ds : List Datum) :
    ((named ms ds).map Prod.fst).Sublist (ms.map Member.name) := by
  induction ms generalizing ds with
  | nil => simp [named]
  | cons m ms ih =>
    cases ds with
    | nil => simp [named]
    | cons d ds =>
      by_cases hd : d = .absent
      · subst d
        exact (ih ds).cons m.name
      · rw [named_cons m ms hd, List.map_cons, List.map_cons]
        exact (ih ds).cons_cons m.name

/-- What holds between two members of a record: those still to come are its own, and none of them is given yet. -/
structure Awaits (kind : RecordKind) (given : List (String × Datum)) (ms : List Member) : Prop where
  mem : ∀ m ∈ ms, m ∈ kind.members
  nodup : (ms.map Member.name).Nodup
  notGiven : ∀ name ∈ ms.map Member.name, name ∉ given.map Prod.fst

namespace Awaits

variable {kind : RecordKind} {given : List (String × Datum)} {m : Member} {ms : List Member}

theorem start (kind : RecordKind) : Awaits kind [] kind.members :=
  ⟨fun _ h => h, kind.nodup_names, by simp⟩

theorem given?_eq_none (h : Awaits kind given (m :: ms)) : given? m.name given = none :=
  given?_eq_none_iff.2 (h.notGiven m.name List.mem_cons_self)

theorem name_notMem (h : Awaits kind given (m :: ms)) : m.name ∉ ms.map Member.name :=
  (List.nodup_cons.1 h.nodup).1

/-- An absent member is left out. -/
theorem skip (h : Awaits kind given (m :: ms)) : Awaits kind given ms where
  mem := (List.forall_mem_cons.1 h.mem).2
  nodup := (List.nodup_cons.1 h.nodup).2
  notGiven := (List.forall_mem_cons.1 h.notGiven).2

theorem give (h : Awaits kind given (m :: ms)) (d : Datum) : Awaits kind (given ++ [(m.name, d)]) ms where
  mem := h.skip.mem
  nodup := h.skip.nodup
  notGiven := by
    intro name hname hmem
    rw [List.map_append, List.mem_append] at hmem
    obtain hmem | hmem := hmem
    · exact h.skip.notGiven name hname hmem
    · obtain rfl := List.mem_singleton.1 hmem
      exact h.name_notMem hname

end Awaits

/-- The slots are put together again from the values that were given, whatever was given before. -/
theorem assemble_named {kind : RecordKind} {given : List (String × Datum)} {ms : List Member}
    {ds : List Datum} (rest : List Char) (hawaits : Awaits kind given ms) (hfit : SlotsFit ms ds) :
    assemble (given ++ named ms ds) rest ms = .ok ds := by
  induction ms generalizing ds given with
  | nil =>
    cases ds with
    | nil => rfl
    | cons d ds => exact hfit.elim
  | cons m ms ih =>
    cases ds with
    | nil => exact hfit.elim
    | cons d ds =>
      have hgiven : m.name ∉ given.map Prod.fst := hawaits.notGiven m.name List.mem_cons_self
      by_cases hd : d = .absent
      · subst d
        have hopt : m.presence = .optional := by
          obtain ⟨h, _⟩ | h := hfit.1
          · exact h
          · exact absurd h (not_fits_absent _)
        have hnone : given? m.name (given ++ named ms ds) = none := by
          rw [given?_append_of_notMem hgiven, given?_eq_none_iff]
          exact fun h => hawaits.name_notMem ((sublist_names_named ms ds).subset h)
        have hfall : m.fallback? = some .absent := by simp [Member.fallback?, hopt]
        simp only [named, assemble, hnone, hfall, ih hawaits.skip hfit.2]
        rfl
      · have hsome : given? m.name (given ++ (m.name, d) :: named ms ds) = some d := by
          rw [given?_append_of_notMem hgiven, given?, if_pos rfl]
        have hrest := ih (hawaits.give d) hfit.2
        rw [List.append_assoc, List.singleton_append] at hrest
        simp only [named_cons m ms hd, assemble, hsome, hrest]
        rfl

/-! Whole values -/

mutual

/-- The text of a value that fits its shape is read as that value, or refused for its depth. -/
theorem read_toJson (steps : Nat) : (d : Datum) → (shape : Shape) → (levels : Nat) → (rest : List Char) →
    Fits shape d → EndsNumber rest → (compact (toJson shape d)).length < steps →
    Recovers levels (depth (toJson shape d)) d rest (read steps levels shape (compact (toJson shape d) ++ rest))
  | .absent, shape, _, _, hfit, _, _ => by cases shape <;> exact hfit.elim
  | .text t, shape, levels, rest, hfit, _, hlen => by
    cases shape <;> try exact hfit.elim
    apply Recovers.of_ok
    simp only [read]
    exact readText_quote t rest hlen
  | .int n, shape, levels, rest, hfit, hrest, _ => by
    cases shape <;> try exact hfit.elim
    have hdepth : depth (toJson .int32 (.int n)) = 0 := by cases n <;> rfl
    rw [hdepth]
    apply Recovers.of_ok
    simp only [read]
    exact readInt32_compact steps hfit hrest
  | .flag v, shape, levels, rest, hfit, _, _ => by
    cases shape <;> try exact hfit.elim
    apply Recovers.of_ok
    simp only [read]
    exact readFlag_compact steps v rest
  | .list ds, shape, levels, rest, hfit, _, hlen => by
    cases shape <;> try exact hfit.elim
    rename_i item
    simp only [toJson, compact_array, depth, List.cons_append, List.length_cons] at hlen ⊢
    cases levels with
    | zero =>
      rw [Recovers, if_neg (by omega)]
      simp only [read, Json.skipBlanks_cons (show isBlank '[' = false by decide)]
      exact ⟨_, rfl⟩
    | succ levels =>
      have hitems := readItems_toJson steps ds item levels rest steps true hfit (by omega) (by omega)
      simp only [read, Json.skipBlanks_cons (show isBlank '[' = false by decide)]
      exact (hitems.map Datum.list).inside
  | .record ds, shape, levels, rest, hfit, _, hlen => by
    cases shape <;> try exact hfit.elim
    rename_i kind
    simp only [toJson, compact_object, depth, List.cons_append, List.length_cons] at hlen ⊢
    cases levels with
    | zero =>
      rw [Recovers, if_neg (by omega)]
      simp only [read, Json.skipBlanks_cons (show isBlank '\x7b' = false by decide)]
      exact ⟨_, rfl⟩
    | succ levels =>
      have hall := assemble_named rest (Awaits.start kind) hfit
      have hmembers := readMembers_toJson steps ds kind kind.members levels rest steps [] true ds hfit
        (Awaits.start kind) hall (by omega) (by omega)
      simp only [read, Json.skipBlanks_cons (show isBlank '\x7b' = false by decide)]
      exact (hmembers.map Datum.record).inside

theorem readItems_toJson (steps : Nat) : (ds : List Datum) → (item : Shape) → (levels : Nat) →
    (rest : List Char) → (k : Nat) → (first : Bool) → AllFit item ds →
    (itemsText first (itemsToJson item ds)).length < steps →
    (itemsText first (itemsToJson item ds)).length ≤ k →
    Recovers levels (depthOfItems (itemsToJson item ds)) ds rest
      (readItems (read steps levels item) k first (itemsText first (itemsToJson item ds) ++ rest))
  | [], item, levels, rest, k, first, _, _, hk => by
    obtain ⟨k, rfl⟩ := Nat.exists_eq_succ_of_ne_zero (Nat.ne_of_gt hk)
    apply Recovers.of_ok
    exact readItems_end _ k first .nil rest
  | d :: ds, item, levels, rest, k, first, hfit, hlen, hk => by
    obtain ⟨c, cs, hc, hblank, hend, _⟩ := exists_compact_cons hfit.1
    have hitem := read_toJson steps d item levels (compactItems (itemsToJson item ds) ++ rest) hfit.1
      (endsNumber_compactItems _ rest)
    have hitems := readItems_toJson steps ds item levels rest (k - 1) false hfit.2
    rw [itemsText_false] at hitems
    simp only [itemsToJson, itemsText, depthOfItems, List.append_assoc, List.length_append] at hlen hk ⊢
    obtain ⟨k, rfl⟩ : ∃ n, k = n + 1 := ⟨k - 1, by simp only [hc, List.length_cons] at hk; omega⟩
    simp only [hc, List.cons_append, List.length_cons] at hlen hk hitem ⊢
    rw [readItems_item _ k (leadsIn_comma first) _ hblank hend]
    exact (hitem (by omega)).bind ((hitems (by omega) (by omega)).map (d :: ·))

theorem readMembers_toJson (steps : Nat) : (ds : List Datum) → (kind : RecordKind) → (ms : List Member) →
    (levels : Nat) → (rest : List Char) → (k : Nat) → (given : List (String × Datum)) → (first : Bool) →
    (all : List Datum) → SlotsFit ms ds → Awaits kind given ms →
    assemble (given ++ named ms ds) rest kind.members = .ok all →
    (membersText first (slotsToJson ms ds)).length < steps →
    (membersText first (slotsToJson ms ds)).length ≤ k →
    Recovers levels (depthOfMembers (slotsToJson ms ds)) all rest
      (readMembers (read steps levels) kind k given first (membersText first (slotsToJson ms ds) ++ rest))
  | [], kind, ms, levels, rest, k, given, first, all, hfit, _, hall, _, hk => by
    cases ms with
    | cons m ms => exact hfit.elim
    | nil =>
      obtain ⟨k, rfl⟩ := Nat.exists_eq_succ_of_ne_zero (Nat.ne_of_gt hk)
      apply Recovers.of_ok
      have hnone : named [] [] = [] := rfl
      rw [hnone, List.append_nil] at hall
      simp only [slotsToJson, membersText, List.singleton_append]
      rw [← List.nil_append ('\x7d' :: rest), readMembers_end _ _ _ _ _ .nil, hall]
      rfl
  | d :: ds, kind, ms, levels, rest, k, given, first, all, hfit, hawaits, hall, hlen, hk => by
    cases ms with
    | nil => exact hfit.elim
    | cons m ms =>
      by_cases hd : d = .absent
      · subst d
        exact readMembers_toJson steps ds kind ms levels rest k given first all hfit.2 hawaits.skip hall hlen hk
      · have hvalue : Fits m.shape d := hfit.1.resolve_left fun h => hd h.2
        obtain ⟨c, cs, hc, hblank, _, hnull⟩ := exists_compact_cons hvalue
        have hmember := read_toJson steps d m.shape levels (compactMembers (slotsToJson ms ds) ++ rest) hvalue
          (endsNumber_compactMembers _ rest)
        -- what is behind the member is read with its value among those that were given
        rw [named_cons m ms hd, List.append_cons] at hall
        have hmembers := readMembers_toJson steps ds kind ms levels rest (k - 1) (given ++ [(m.name, d)])
          false all hfit.2 (hawaits.give d) hall
        rw [membersText_false] at hmembers
        rw [slotsToJson_cons m ms hd] at hlen hk ⊢
        simp only [membersText, depthOfMembers, List.append_assoc, List.length_append, List.length_cons]
          at hlen hk ⊢
        obtain ⟨k, rfl⟩ : ∃ n, k = n + 1 := ⟨k - 1, by omega⟩
        simp only [hc, List.cons_append, List.append_assoc, List.length_cons] at hlen hk hmember ⊢
        have hm : m ∈ kind.members := hawaits.mem m List.mem_cons_self
        rw [readMembers_quote _ hm (by omega) hawaits.given?_eq_none first _ hblank hnull]
        refine (hmember (by omega)).bind ?_
        exact hmembers (by omega) (by omega)

end

/-- The text of a value is read as the value up to the greatest depth, and refused beyond it. -/
theorem ofText_toJson {shape : Shape} {d : Datum} (hfit : Fits shape d) :
    ∃ place, ofText shape (compact (toJson shape d)) =
      if depth (toJson shape d) ≤ maxDepth then .ok d else .error ⟨.tooDeep, place⟩ := by
  have hread := read_toJson (2 * (compact (toJson shape d)).length + 1) d shape maxDepth [] hfit endsNumber_nil
    (by omega)
  rw [List.append_nil] at hread
  by_cases hdepth : depth (toJson shape d) ≤ maxDepth
  · rw [Recovers, if_pos hdepth] at hread
    refine ⟨⟨0, 0⟩, ?_⟩
    simp only [ofText, hread, if_pos hdepth]
    rfl
  · rw [Recovers, if_neg hdepth] at hread
    obtain ⟨unread, hread⟩ := hread
    refine ⟨(Fault.inText ⟨.tooDeep, unread⟩ (compact (toJson shape d))).place, ?_⟩
    simp only [ofText, hread, if_neg hdepth]
    rfl

end Datum
end ProtoLink
