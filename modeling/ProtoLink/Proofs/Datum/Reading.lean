import ProtoLink.Proofs.Datum.RoundTrip

/-! A reader takes off the text of a document that describes its value, and it reads every such text. So the texts
that are read as a value are those of the documents that describe it. -/
namespace ProtoLink.Datum

open Json (AreBlank EndsNumber IsTextOf LeadsIn Spells SpellsItems SpellsMembers Tree bind_eq_ok_iff scanWord_eq_ok_iff
  skipBlanks skipBlanks_append skipBlanks_cons skipBlanks_sound)

variable {α : Type} {limit : Nat} {s r body text : List Char} {first : Bool}

/-- A reader for the documents of which `R` holds: what it takes off is the text of one, and it gets over the text
of each that is shorter than half of the limit. -/
structure Reads (limit : Nat) (R : Tree → α → Prop) (reader : Reader α) : Prop where
  sound : ∀ {s r : List Char} {a : α}, reader s = .ok (a, r) →
    ∃ t body, Spells t body ∧ skipBlanks s = body ++ r ∧ R t a
  complete : ∀ {t : Tree} {a : α} {body s r : List Char}, R t a → Spells t body → skipBlanks s = body ++ r →
    EndsNumber r → 2 * body.length < limit → reader s = .ok (a, r)

/-! Leaves -/

theorem readText_reads (steps : Nat) : Reads steps (DescribesLeaf .text) (readText steps) where
  sound := by
    intro s r d h
    unfold readText at h
    split at h
    · rename_i heq
      obtain ⟨⟨cs, r'⟩, hscan, h⟩ := bind_eq_ok_iff.1 h
      cases h
      obtain ⟨literal, hliteral, rfl⟩ := Json.scanString_sound hscan
      refine ⟨.string literal, _, .string hliteral.isString, by rw [heq]; simp, .text ?_⟩
      rwa [String.toList_ofList]
    · cases h
  complete := by
    intro t d body s r hd hbody heq _ hlen
    cases hd with
    | text h =>
      cases hbody with
      | string =>
        simp only [List.cons_append, List.append_assoc, List.nil_append] at heq
        simp only [List.length_cons, List.length_append] at hlen
        simp only [readText, heq, Json.scanString_complete h r (show _ < steps by omega), bind, Except.bind, pure,
          Except.pure, String.ofList_toList]

theorem readFlag_reads (steps : Nat) : Reads steps (DescribesLeaf .flag) (readFlag steps) where
  sound := by
    intro s r d h
    unfold readFlag at h
    split at h
    · rename_i heq
      obtain ⟨r', hword, h⟩ := bind_eq_ok_iff.1 h
      cases h
      exact ⟨.bool true, _, .yes, by rw [heq, scanWord_eq_ok_iff.1 hword]; rfl, .flag⟩
    · rename_i heq
      obtain ⟨r', hword, h⟩ := bind_eq_ok_iff.1 h
      cases h
      exact ⟨.bool false, _, .no, by rw [heq, scanWord_eq_ok_iff.1 hword]; rfl, .flag⟩
    · cases h
  complete := by
    intro t d body s r hd hbody heq _ _
    cases hd with
    | flag => cases hbody <;> simp [readFlag, heq, Json.scanWord, bind, Except.bind, pure, Except.pure]

theorem int32Of_eq_ok_iff {value : Json.Numeral.Value} {d : Datum} :
    int32Of value r = .ok d ↔ ∃ n, value = .integer n ∧ (-0x80000000 ≤ n ∧ n < 0x80000000) ∧ d = .int n := by
  unfold int32Of
  split
  · split
    · rename_i hn
      simp only [Except.ok.injEq, Json.Numeral.Value.integer.injEq]
      constructor
      · rintro rfl
        exact ⟨_, rfl, hn, rfl⟩
      · rintro ⟨_, rfl, _, rfl⟩
        rfl
    · rename_i hn
      constructor
      · intro h
        cases h
      · rintro ⟨_, ⟨⟩, hn', _⟩
        exact absurd hn' hn
  · constructor
    · intro h
      cases h
    · rintro ⟨_, ⟨⟩, _⟩

theorem readInt32_reads (steps : Nat) : Reads steps (DescribesLeaf .int32) (readInt32 steps) where
  sound := by
    intro s r d h
    have hnumber : ∀ {negative : Bool} {r₀ : List Char},
        (Json.scanNumber negative r₀ >>= fun p => int32Of p.1 p.2 >>= fun d => pure (d, p.2)) = Except.ok (d, r) →
        ∃ whole, r₀ = whole ++ r ∧ ∃ n, Json.ofInt n = .number (if negative then '-' :: whole else whole) ∧
          (-0x80000000 ≤ n ∧ n < 0x80000000) ∧ d = .int n := by
      intro negative r₀ h
      obtain ⟨⟨value, r'⟩, hscan, h⟩ := bind_eq_ok_iff.1 h
      obtain ⟨d', hint, h⟩ := bind_eq_ok_iff.1 h
      cases h
      obtain ⟨n, rfl, hn, rfl⟩ := int32Of_eq_ok_iff.1 hint
      obtain ⟨whole, _, hr, hnumber⟩ := Json.scanNumber_integer hscan
      exact ⟨whole, hr, n, hnumber, hn, rfl⟩
    unfold readInt32 at h
    split at h
    · rename_i heq
      obtain ⟨whole, rfl, n, hn, hrange, rfl⟩ := hnumber h
      exact ⟨_, _, .number (Json.isNumber_of_ofInt hn), heq, .int32 hn hrange⟩
    · cases h
    · rename_i heq
      split at h
      · obtain ⟨whole, hr, n, hn, hrange, rfl⟩ := hnumber h
        exact ⟨_, _, .number (Json.isNumber_of_ofInt hn), heq.trans hr, .int32 hn hrange⟩
      · cases h
  complete := by
    intro t d body s r hd hbody heq hrest _
    have hblanks := (hbody.skipBlanks_eq r).trans heq.symm
    cases hd with
    | int32 h hn =>
      cases hbody with
      | number =>
        have hread := readInt32_compact steps hn hrest
        rwa [h, Json.compact, readInt32, hblanks] at hread

/-! Members and items -/

theorem readMember_reads {R : Shape → Tree → Datum → Prop} {read : Shape → Reader Datum}
    (hread : ∀ shape, Reads limit (R shape) (read shape)) (hnull : ∀ shape d, ¬ R shape .null d) (m : Member) :
    Reads limit (DescribesMember R m) (readMember read m) where
  sound := by
    intro s r d h
    unfold readMember at h
    split at h
    · rename_i hopt heq
      obtain ⟨r', hword, h⟩ := bind_eq_ok_iff.1 h
      cases h
      exact ⟨.null, _, .null, by rw [heq, scanWord_eq_ok_iff.1 hword]; rfl, .null hopt⟩
    · obtain ⟨t, body, hbody, heq, ht⟩ := (hread m.shape).sound h
      rw [Json.skipBlanks_skipBlanks] at heq
      exact ⟨t, body, hbody, heq, .value ht⟩
  complete := by
    intro t d body s r hd hbody heq hrest hlen
    cases hd with
    | null hopt =>
      cases hbody
      simp [readMember, hopt, heq, Json.scanWord, bind, Except.bind, pure, Except.pure]
    | value hvalue =>
      have hblanks := hbody.skipBlanks_eq r
      obtain ⟨c, cs, rfl, _⟩ := hbody.exists_cons
      have hn : c ≠ 'n' := by
        rintro rfl
        obtain rfl := hbody.eq_null
        exact hnull _ _ hvalue
      rw [readMember_eq read m heq hn]
      exact (hread m.shape).complete hvalue hbody hblanks hrest hlen

theorem readItems_sound {R : Tree → Datum → Prop} {item : Reader Datum} (hitem : Reads limit R item) {k : Nat}
    {ds : List Datum} (h : readItems item k first s = .ok (ds, r)) :
    ∃ ts text, SpellsItems first ts text ∧ s = text ++ r ∧ List.Forall₂ R ts ds := by
  induction k generalizing first s ds with
  | zero => cases h
  | succ k ih =>
    obtain ⟨b, hb, rfl, rfl⟩ | ⟨lead, s', d, r', ds', hlead, rfl, hd, hds, rfl⟩ := readItems_cases h
    · exact ⟨[], _, .nil hb, by simp, .nil⟩
    · obtain ⟨t, body, hbody, heq, ht⟩ := hitem.sound hd
      obtain ⟨b, hb, rfl⟩ := skipBlanks_sound heq
      obtain ⟨ts, text, htext, rfl, hts⟩ := ih hds
      exact ⟨t :: ts, _, .cons (hlead.append hb) hbody htext, by simp, .cons ht hts⟩

theorem readItems_complete {R : Tree → Datum → Prop} {item : Reader Datum} (hitem : Reads limit R item)
    {ts : List Tree} {ds : List Datum} (hts : List.Forall₂ R ts ds) (htext : SpellsItems first ts text) (r : List Char)
    (hlimit : 2 * text.length < limit) {k : Nat} (hk : text.length ≤ k) :
    readItems item k first (text ++ r) = .ok (ds, r) := by
  induction hts generalizing first text k with
  | nil =>
    have hpos := htext.length_pos
    obtain ⟨k, rfl⟩ := Nat.exists_eq_succ_of_ne_zero (Nat.ne_of_gt (Nat.lt_of_lt_of_le hpos hk))
    cases htext with
    | nil hb =>
      rw [List.append_assoc]
      exact readItems_end item k first hb r
  | cons ht _ ih =>
    cases htext with
    | cons hlead hbody hrest =>
      have hpos := hbody.length_pos
      simp only [List.length_append] at hlimit hk
      have hread := hitem.complete ht hbody (hbody.skipBlanks_eq _) (hrest.endsNumber r) (by omega)
      have hreads := ih hrest (by omega) (show _ ≤ k - 1 by omega)
      obtain ⟨c, cs, rfl, hblank, hend, _⟩ := hbody.exists_cons
      obtain ⟨k, rfl⟩ : ∃ n, k = n + 1 := ⟨k - 1, by omega⟩
      simp only [List.append_assoc, List.cons_append] at hread ⊢
      rw [readItems_item item k hlead _ hblank hend, hread]
      simp only [bind, Except.bind, Nat.add_sub_cancel] at hreads ⊢
      rw [hreads]
      rfl

section

variable {R : Shape → Tree → Datum → Prop} {read : Shape → Reader Datum} {kind : RecordKind}

/-! Slots -/

theorem readSlots_rest_sound {ms : List Member} {count : Nat} {ds : List Datum} {r' : List Char}
    (hend : skipBlanks s = ']' :: r') (h : readSlots read kind count ms s = .ok (ds, r)) :
    r = r' ∧ DescribesSlots R ms [] ds := by
  induction ms generalizing count s ds with
  | nil =>
    obtain ⟨r₀, hlist, h⟩ := bind_eq_ok_iff.1 h
    cases h
    rw [readListEnd_eq_ok_iff, hend] at hlist
    cases hlist
    exact ⟨rfl, .nil⟩
  | cons m ms ih =>
    cases hd : m.fallback? with
    | none =>
      simp only [readSlots, hend, hd] at h
      cases h
    | some d =>
      rw [readSlots_fallback read kind count hd ms hend] at h
      obtain ⟨⟨ds', r₀⟩, hslots, h⟩ := bind_eq_ok_iff.1 h
      cases h
      obtain ⟨rfl, hrest⟩ := ih (skipBlanks_cons (by decide)) hslots
      exact ⟨rfl, .rest hd hrest⟩

theorem readSlots_sound (hmember : ∀ m, Reads limit (DescribesMember R m) (readMember read m)) {ms : List Member}
    {count : Nat} {ds : List Datum} (h : readSlots read kind count ms s = .ok (ds, r)) :
    ∃ ts text, SpellsItems (count == 0) ts text ∧ s = text ++ r ∧ DescribesSlots R ms ts ds := by
  induction ms generalizing count s ds with
  | nil =>
    obtain ⟨r₀, hlist, h⟩ := bind_eq_ok_iff.1 h
    cases h
    obtain ⟨b, hb, rfl⟩ := skipBlanks_sound (readListEnd_eq_ok_iff.1 hlist)
    exact ⟨[], _, .nil hb, by simp, .nil⟩
  | cons m ms ih =>
    obtain ⟨b, r', d, ds', hb, rfl, hd, hslots, rfl⟩ | ⟨lead, s', d, r', ds', hlead, rfl, hslot, hslots, rfl⟩ :=
      readSlots_cases h
    · obtain ⟨rfl, hrest⟩ := readSlots_rest_sound (skipBlanks_cons (by decide)) hslots
      exact ⟨[], _, .nil hb, by simp, .rest hd hrest⟩
    · obtain ⟨t, body, hbody, heq, ht⟩ := (hmember m).sound hslot
      obtain ⟨b, hb, rfl⟩ := skipBlanks_sound heq
      obtain ⟨ts, text, htext, rfl, hts⟩ := ih hslots
      exact ⟨t :: ts, _, .cons (hlead.append hb) hbody htext, by simp, .cons ht hts⟩

theorem readSlots_complete (hmember : ∀ m, Reads limit (DescribesMember R m) (readMember read m))
    (kind : RecordKind) {ms : List Member} {ts : List Tree} {ds : List Datum} (hts : DescribesSlots R ms ts ds)
    {count : Nat} (htext : SpellsItems (count == 0) ts text) (r : List Char) (hlimit : 2 * text.length < limit) :
    readSlots read kind count ms (text ++ r) = .ok (ds, r) := by
  induction hts generalizing count text with
  | nil =>
    cases htext with
    | nil hb =>
      rw [List.append_assoc]
      exact readSlots_nil read kind count (by rw [skipBlanks_append hb]; rfl)
  | @rest m ms d ds hd _ ih =>
    cases htext with
    | @nil _ b hb =>
      rw [List.length_append] at hlimit
      have hslots : readSlots read kind (count + 1) ms (']' :: r) = .ok (ds, r) :=
        ih (.nil .nil) (by rw [List.length_append, List.length_nil]; omega)
      have hend : skipBlanks (b ++ [']'] ++ r) = ']' :: r := by
        rw [List.append_assoc, skipBlanks_append hb]
        rfl
      rw [readSlots_fallback read kind count hd ms hend, hslots]
      rfl
  | @cons m ms t ts d ds ht _ ih =>
    cases htext with
    | cons hlead hbody hrest =>
      simp only [List.length_append] at hlimit
      have hread := (hmember m).complete ht hbody (hbody.skipBlanks_eq _) (hrest.endsNumber r) (by omega)
      have hreads : readSlots read kind (count + 1) ms (_ ++ r) = .ok (ds, r) := ih hrest (by omega)
      obtain ⟨c, cs, rfl, hblank, hend, _⟩ := hbody.exists_cons
      simp only [List.append_assoc, List.cons_append] at hread ⊢
      rw [readSlots_slot read kind m ms hlead _ hblank hend, hread]
      simp only [bind, Except.bind, hreads]
      rfl

/-! Members -/

variable {given : List (String × Datum)}

theorem given?_eq_some_iff (hnodup : (given.map Prod.fst).Nodup) {name : String} {d : Datum} :
    given? name given = some d ↔ (name, d) ∈ given := by
  induction given with
  | nil => simp [given?]
  | cons e given ih =>
    obtain ⟨n, d'⟩ := e
    obtain ⟨hn, hnodup⟩ := List.nodup_cons.1 hnodup
    by_cases h : n = name
    · subst n
      have hnot : (name, d) ∉ given := fun hmem => hn (List.mem_map.2 ⟨_, hmem, rfl⟩)
      simp [given?, hnot, eq_comm]
    · simp [given?, h, ih hnodup, Ne.symm h]

/-- The slots are put together from what is given and from fallbacks. -/
theorem assemble_eq_ok_iff (hnodup : (given.map Prod.fst).Nodup) {rest : List Char} {ms : List Member}
    {ds : List Datum} : assemble given rest ms = .ok ds ↔ List.Forall₂ (FillsSlot given) ms ds := by
  have hslot : ∀ {m : Member} {d : Datum}, FillsSlot given m d ↔
      given? m.name given = some d ∨ given? m.name given = none ∧ m.fallback? = some d := by
    intro m d
    rw [FillsSlot, given?_eq_some_iff hnodup, given?_eq_none_iff]
  constructor
  · intro h
    induction ms generalizing ds with
    | nil =>
      cases h
      exact .nil
    | cons m ms ih =>
      rw [assemble] at h
      split at h
      · rename_i hgiven
        obtain ⟨ds', hds, h⟩ := bind_eq_ok_iff.1 h
        cases h
        exact .cons (hslot.2 (.inl hgiven)) (ih hds)
      · rename_i hgiven hfall
        obtain ⟨ds', hds, h⟩ := bind_eq_ok_iff.1 h
        cases h
        exact .cons (hslot.2 (.inr ⟨hgiven, hfall⟩)) (ih hds)
      · cases h
  · intro h
    induction h with
    | nil => rfl
    | cons hd _ ih =>
      obtain hgiven | ⟨hgiven, hfall⟩ := hslot.1 hd
      · simp only [assemble, hgiven, ih]
        rfl
      · simp only [assemble, hgiven, hfall, ih]
        rfl

theorem readMembers_sound (hmember : ∀ m, Reads limit (DescribesMember R m) (readMember read m)) {k : Nat}
    {ds : List Datum} (hnodup : (given.map Prod.fst).Nodup)
    (h : readMembers read kind k given first s = .ok (ds, r)) :
    ∃ members text given', SpellsMembers first members text ∧ s = text ++ r ∧ Gathers R kind members given' ∧
      ((given ++ given').map Prod.fst).Nodup ∧ List.Forall₂ (FillsSlot (given ++ given')) kind.members ds := by
  induction k generalizing given first s ds with
  | zero => cases h
  | succ k ih =>
    obtain ⟨b, hb, rfl, hds⟩ | ⟨lead, key, s', r₀, r₁, hlead, rfl, hcolon, hnext⟩ := readMembers_cases h
    · refine ⟨[], _, [], .nil hb, by simp, .nil, ?_, ?_⟩
      · rwa [List.append_nil]
      · rwa [List.append_nil, ← assemble_eq_ok_iff hnodup]
    · obtain ⟨b, hb, rfl⟩ := skipBlanks_sound (Json.scanColon_eq_ok_iff.1 hcolon)
      obtain ⟨hkey, hskip, hrest⟩ | ⟨m, d, hkey, hgiven, hvalue, hrest⟩ := hnext
      · obtain ⟨t, body, hbody, heq⟩ := Json.skipValue_sound k hskip
        obtain ⟨b', hb', rfl⟩ := skipBlanks_sound heq
        obtain ⟨members, text, given', htext, rfl, hgathers, hall, hslots⟩ := ih hnodup hrest
        exact ⟨(key, t) :: members, _, given', .cons hlead hkey.isString hb hb' hbody htext, by simp,
          .other hkey hgathers, hall, hslots⟩
      · obtain ⟨t, body, hbody, heq, ht⟩ := (hmember m).sound hvalue
        obtain ⟨b', hb', rfl⟩ := skipBlanks_sound heq
        have hnodup' : ((given ++ [(m.name, d)]).map Prod.fst).Nodup := by
          rw [List.map_append]
          exact (List.nodup_append_comm.2 (List.nodup_cons.2 ⟨given?_eq_none_iff.1 hgiven, hnodup⟩))
        obtain ⟨members, text, given', htext, rfl, hgathers, hall, hslots⟩ := ih hnodup' hrest
        rw [List.append_assoc, List.singleton_append] at hall hslots
        exact ⟨(key, t) :: members, _, (m.name, d) :: given', .cons hlead hkey.isString hb hb' hbody htext, by simp,
          .member hkey ht hgathers, hall, hslots⟩

theorem readMembers_complete (hmember : ∀ m, Reads limit (DescribesMember R m) (readMember read m))
    {members : List (List Char × Tree)} {given' : List (String × Datum)} {ds : List Datum}
    (hgathers : Gathers R kind members given') (htext : SpellsMembers first members text)
    (hnodup : ((given ++ given').map Prod.fst).Nodup)
    (hslots : List.Forall₂ (FillsSlot (given ++ given')) kind.members ds) (r : List Char)
    (hlimit : 2 * text.length < limit) {k : Nat} (hk : 2 * text.length ≤ k) :
    readMembers read kind k given first (text ++ r) = .ok (ds, r) := by
  induction hgathers generalizing given first text k with
  | nil =>
    rw [List.append_nil] at hnodup hslots
    cases htext with
    | nil hb =>
      obtain ⟨k, rfl⟩ : ∃ n, k = n + 1 := ⟨k - 1, by simp at hk; omega⟩
      rw [List.append_assoc, List.singleton_append, readMembers_end read kind k given first hb,
        (assemble_eq_ok_iff hnodup).2 hslots]
      rfl
  | other hkey _ ih =>
    cases htext with
    | @cons _ key t members lead b b' body text hlead hstring hb hb' hbody hrest =>
      simp only [List.length_append, List.length_cons] at hlimit hk
      obtain ⟨k, rfl⟩ : ∃ n, k = n + 1 := ⟨k - 1, by omega⟩
      have hcolon := Json.scanColon_blanks hb (b' ++ (body ++ (text ++ r)))
      have hskip : Json.skipValue k (b' ++ (body ++ (text ++ r))) = .ok (text ++ r) :=
        Json.skipValue_complete k hbody (by rw [skipBlanks_append hb', hbody.skipBlanks_eq]) (hrest.endsNumber r)
          (by omega)
      have hread := ih hrest hnodup hslots (by omega) (show _ ≤ k by omega)
      simp only [List.append_assoc, List.cons_append]
      rw [readMembers_other read given hlead hkey (by omega)]
      simp only [hcolon, hskip, hread, bind, Except.bind]
  | @member key t members given' m d hkey ht _ ih =>
    cases htext with
    | @cons _ _ _ _ lead b b' body text hlead hstring hb hb' hbody hrest =>
      simp only [List.length_append, List.length_cons] at hlimit hk
      obtain ⟨k, rfl⟩ : ∃ n, k = n + 1 := ⟨k - 1, by omega⟩
      have hgiven : given? m.name given = none := by
        rw [List.map_append, List.map_cons] at hnodup
        exact given?_eq_none_iff.2 fun hmem => List.disjoint_of_nodup_append hnodup hmem List.mem_cons_self
      have hcolon := Json.scanColon_blanks hb (b' ++ (body ++ (text ++ r)))
      have hvalue : readMember read m (b' ++ (body ++ (text ++ r))) = .ok (d, text ++ r) :=
        (hmember m).complete ht hbody (by rw [skipBlanks_append hb', hbody.skipBlanks_eq]) (hrest.endsNumber r)
          (by omega)
      rw [List.append_cons] at hnodup hslots
      have hread := ih hrest hnodup hslots (by omega) (show _ ≤ k by omega)
      simp only [List.append_assoc, List.cons_append]
      rw [readMembers_member read hgiven hlead hkey (by omega)]
      simp only [hcolon, hvalue, hread, bind, Except.bind]

end

/-! Whole values -/

theorem Reads.congr {R R' : Tree → Datum → Prop} {reader : Reader Datum} (h : Reads limit R reader)
    (heq : ∀ t d, R t d ↔ R' t d) : Reads limit R' reader := by
  obtain rfl : R = R' := by
    funext t d
    exact propext (heq t d)
  exact h

variable {steps levels : Nat}

theorem read_list_reads {item : Shape} (hitem : Reads steps (Describes levels item) (read steps levels item)) :
    Reads steps (DescribesContainer (Describes levels) (.list item)) (read steps (levels + 1) (.list item)) where
  sound := by
    intro s r d h
    simp only [read] at h
    split at h
    · rename_i heq
      obtain ⟨⟨ds, r'⟩, hitems, h⟩ := bind_eq_ok_iff.1 h
      cases h
      obtain ⟨ts, text, htext, rfl, hts⟩ := readItems_sound hitem hitems
      exact ⟨.array ts, _, .array htext, by rw [heq]; simp, .list hts⟩
    · cases h
  complete := by
    intro t d body s r hd hbody heq _ hlen
    cases hd with
    | list hts =>
      cases hbody with
      | array htext =>
        rw [List.length_cons] at hlen
        have hread := readItems_complete hitem hts htext r (by omega) (show _ ≤ steps by omega)
        rw [List.cons_append] at heq
        simp only [read, heq, hread, bind, Except.bind, pure, Except.pure]

theorem read_record_reads (hread : ∀ shape, Reads steps (Describes levels shape) (read steps levels shape))
    (kind : RecordKind) :
    Reads steps (DescribesContainer (Describes levels) (.record kind)) (read steps (levels + 1) (.record kind)) where
  sound := by
    have hmember := readMember_reads hread fun _ _ => not_describes_null
    intro s r d h
    simp only [read] at h
    split at h
    · rename_i heq
      obtain ⟨⟨ds, r'⟩, hslots, h⟩ := bind_eq_ok_iff.1 h
      cases h
      obtain ⟨ts, text, htext, rfl, hts⟩ := readSlots_sound hmember hslots
      exact ⟨.array ts, _, .array htext, by rw [heq]; simp, .array hts⟩
    · rename_i heq
      obtain ⟨⟨ds, r'⟩, hmembers, h⟩ := bind_eq_ok_iff.1 h
      cases h
      obtain ⟨members, text, given, htext, rfl, hgathers, hnodup, hds⟩ :=
        readMembers_sound hmember (by exact List.nodup_nil) hmembers
      exact ⟨.object members, _, .object htext, by rw [heq]; simp, .object ⟨given, hgathers, hnodup, hds⟩⟩
    · cases h
  complete := by
    have hmember := readMember_reads hread fun _ _ => not_describes_null
    intro t d body s r hd hbody heq _ hlen
    cases hd with
    | array hts =>
      cases hbody with
      | array htext =>
        rw [List.length_cons] at hlen
        have hitems : SpellsItems ((0 : Nat) == 0) _ _ := htext
        have hslots := readSlots_complete hmember kind hts hitems r (by omega)
        rw [List.cons_append] at heq
        simp only [read, heq, hslots, bind, Except.bind, pure, Except.pure]
    | object hobject =>
      cases hbody with
      | object htext =>
        obtain ⟨given, hgathers, hnodup, hds⟩ := hobject
        rw [List.length_cons] at hlen
        rw [← List.nil_append given] at hnodup hds
        have hmembers : readMembers (read steps levels) kind steps [] true (_ ++ r) = .ok (_, r) :=
          readMembers_complete hmember hgathers htext hnodup hds r (by omega) (by omega)
        rw [List.cons_append] at heq
        simp only [read, heq, hmembers, bind, Except.bind, pure, Except.pure]

/-- The reader of a shape reads the documents that describe values of it, as deep as it goes. -/
theorem read_reads (steps : Nat) : (levels : Nat) → (shape : Shape) →
    Reads steps (Describes levels shape) (read steps levels shape)
  | levels, .text => by
    rw [read]
    exact (readText_reads steps).congr fun _ _ => (describes_iff_describesLeaf (by rintro _ ⟨⟩)).symm
  | levels, .flag => by
    rw [read]
    exact (readFlag_reads steps).congr fun _ _ => (describes_iff_describesLeaf (by rintro _ ⟨⟩)).symm
  | levels, .int32 => by
    rw [read]
    exact (readInt32_reads steps).congr fun _ _ => (describes_iff_describesLeaf (by rintro _ ⟨⟩)).symm
  | levels + 1, .list item =>
    (read_list_reads (read_reads steps levels item)).congr fun _ _ => (describes_succ_iff (by rintro ⟨⟩)).symm
  | levels + 1, .record kind =>
    (read_record_reads (read_reads steps levels) kind).congr fun _ _ => (describes_succ_iff (by rintro ⟨⟩)).symm
  | 0, .list item => by
    refine ⟨fun {s r d} h => ?_, fun hd => ?_⟩
    · simp only [read] at h
      split at h <;> cases h
    · cases hd
  | 0, .record kind => by
    refine ⟨fun {s r d} h => ?_, fun hd => ?_⟩
    · simp only [read] at h
      split at h <;> cases h
    · cases hd

/-- A text is read as a value if and only if it is the text of a document that describes the value. -/
theorem ofText_eq_ok_iff {shape : Shape} {text : List Char} {d : Datum} :
    ofText shape text = .ok d ↔ ∃ t, IsTextOf text t ∧ Describes maxDepth shape t d := by
  have hreads := read_reads (2 * text.length + 1) maxDepth shape
  constructor
  · intro h
    unfold ofText at h
    split at h
    · cases h
    · rename_i hread
      split at h
      · rename_i hend
        cases h
        obtain ⟨t, body, hbody, heq, ht⟩ := hreads.sound hread
        obtain ⟨before, hbefore, htext⟩ := skipBlanks_sound heq
        obtain ⟨after, hafter, rfl⟩ := skipBlanks_sound hend
        rw [List.append_nil] at htext
        exact ⟨t, ⟨before, body, after, hbefore, hbody, hafter, htext⟩, ht⟩
      · cases h
  · rintro ⟨t, ⟨before, body, after, hbefore, hbody, hafter, rfl⟩, ht⟩
    have hend : skipBlanks after = [] := by
      have hskip := skipBlanks_append hafter []
      rwa [List.append_nil] at hskip
    have hread := hreads.complete ht hbody (by rw [skipBlanks_append hbefore, hbody.skipBlanks_eq])
      (s := before ++ (body ++ after)) ?_ ?_
    · simp only [ofText, hread, hend]
    · have hnumber := EndsNumber.blanks hafter endsNumber_nil
      rwa [List.append_nil] at hnumber
    · simp only [List.length_append]
      omega

end ProtoLink.Datum
