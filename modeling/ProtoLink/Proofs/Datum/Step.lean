import ProtoLink.Datum.Reader
import ProtoLink.Proofs.Datum.Description
import ProtoLink.Proofs.Json.Skip

/-! One step of a reader in a list or a record: what it does in front of an item, a member or the end, and that it
does nothing else where it gets on. -/
namespace ProtoLink.Datum

open Json (AreBlank Denotes Fault IsString LeadsIn Spells Tree bind_eq_ok_iff isBlank skipBlanks skipBlanks_append
  skipBlanks_cons skipBlanks_sound)

variable {s r lead b : List Char} {first : Bool} {c : Char}

/-! Items -/

variable {item : Reader Datum} {ds : List Datum}

theorem readItems_end (item : Reader Datum) (k : Nat) (first : Bool) (hb : AreBlank b) (r : List Char) :
    readItems item (k + 1) first (b ++ ']' :: r) = .ok ([], r) := by
  simp only [readItems, skipBlanks_append hb, skipBlanks_cons (show isBlank ']' = false by decide)]
  rfl

theorem readItems_item (item : Reader Datum) (k : Nat) (hlead : LeadsIn first lead) (cs : List Char)
    (hblank : isBlank c = false) (hend : c ≠ ']') :
    readItems item (k + 1) first (lead ++ c :: cs) = (do
      let (d, r) ← item (c :: cs)
      let (ds, r) ← readItems item k false r
      pure (d :: ds, r)) := by
  cases hlead with
  | first hb =>
    simp only [readItems, skipBlanks_append hb, skipBlanks_cons hblank]
    split <;> simp_all
  | later hb hb' =>
    simp only [readItems, List.append_assoc, List.cons_append, skipBlanks_append hb,
      skipBlanks_cons (show isBlank ',' = false by decide), skipBlanks_append hb', skipBlanks_cons hblank]
    split <;> simp_all

/-- Items are read up to the end of the list, or there is an item behind what leads in. -/
theorem readItems_cases {k : Nat} (h : readItems item (k + 1) first s = .ok (ds, r)) :
    (∃ b, AreBlank b ∧ s = b ++ ']' :: r ∧ ds = []) ∨
      ∃ lead s' d r' ds', LeadsIn first lead ∧ s = lead ++ s' ∧ item s' = .ok (d, r') ∧
        readItems item k false r' = .ok (ds', r) ∧ ds = d :: ds' := by
  have hmore : ∀ {lead s' : List Char}, LeadsIn first lead → s = lead ++ s' →
      (do
        let (d, r) ← item s'
        let (ds, r) ← readItems item k false r
        pure (d :: ds, r)) = Except.ok (ds, r) →
      ∃ lead s' d r' ds', LeadsIn first lead ∧ s = lead ++ s' ∧ item s' = .ok (d, r') ∧
        readItems item k false r' = .ok (ds', r) ∧ ds = d :: ds' := by
    intro lead s' hlead hs h
    obtain ⟨⟨d, r'⟩, hitem, h⟩ := bind_eq_ok_iff.1 h
    obtain ⟨⟨ds', r''⟩, hitems, h⟩ := bind_eq_ok_iff.1 h
    cases h
    exact ⟨lead, s', d, r', ds', hlead, hs, hitem, hitems, rfl⟩
  simp only [readItems] at h
  split at h
  · cases h
  · rename_i heq
    obtain ⟨b, hb, rfl⟩ := skipBlanks_sound heq
    cases h
    exact .inl ⟨b, hb, rfl, rfl⟩
  · obtain ⟨b, hb, hs⟩ := skipBlanks_sound (s := s) rfl
    exact .inr (hmore (.first hb) hs h)
  · rename_i heq
    obtain ⟨b, hb, rfl⟩ := skipBlanks_sound heq
    split at h
    · cases h
    · cases h
    · rename_i r₀ _ _ _
      obtain ⟨b', hb', hr⟩ := skipBlanks_sound (s := r₀) rfl
      refine .inr (hmore (.later hb hb') ?_ h)
      rw [List.append_assoc, List.cons_append, ← hr]
  · cases h

/-! Slots -/

variable {read : Shape → Reader Datum} {kind : RecordKind} {m : Member} {ms : List Member} {count : Nat}

theorem readListEnd_eq_ok_iff : readListEnd s = .ok r ↔ skipBlanks s = ']' :: r := by
  unfold readListEnd
  split
  · simp_all
  · simp_all
  · split <;> simp_all
  · simp_all

theorem readSlots_nil (read : Shape → Reader Datum) (kind : RecordKind) (count : Nat) (h : skipBlanks s = ']' :: r) :
    readSlots read kind count [] s = .ok ([], r) := by
  rw [readSlots, readListEnd_eq_ok_iff.2 h]
  rfl

theorem readSlots_fallback (read : Shape → Reader Datum) (kind : RecordKind) (count : Nat) {d : Datum}
    (hd : m.fallback? = some d) (ms : List Member) (h : skipBlanks s = ']' :: r) :
    readSlots read kind count (m :: ms) s = (do
      let (ds, r) ← readSlots read kind (count + 1) ms (']' :: r)
      pure (d :: ds, r)) := by
  simp only [readSlots, h, hd]

theorem readSlots_slot (read : Shape → Reader Datum) (kind : RecordKind) (m : Member) (ms : List Member)
    (hlead : LeadsIn (count == 0) lead) (cs : List Char) (hblank : isBlank c = false) (hend : c ≠ ']') :
    readSlots read kind count (m :: ms) (lead ++ c :: cs) = (do
      let (d, r) ← readMember read m (c :: cs)
      let (ds, r) ← readSlots read kind (count + 1) ms r
      pure (d :: ds, r)) := by
  generalize hfirst : (count == 0) = first at hlead
  cases hlead with
  | first hb =>
    simp only [readSlots, skipBlanks_append hb, skipBlanks_cons hblank]
    split <;> simp_all
  | @later b b' hb hb' =>
    have hcount : count ≠ 0 := beq_eq_false_iff_ne.1 hfirst
    have hcomma : skipBlanks (b ++ ',' :: b' ++ c :: cs) = ',' :: (b' ++ c :: cs) := by
      rw [List.append_assoc, skipBlanks_append hb, List.cons_append, skipBlanks_cons (by decide)]
    have hitem : skipBlanks (b' ++ c :: cs) = c :: cs := by
      rw [skipBlanks_append hb', skipBlanks_cons hblank]
    simp only [readSlots, hcomma, if_neg hcount]
    split <;> simp_all

/-- A slot is read from the item behind what leads in, or has its fallback at the end of the list. -/
theorem readSlots_cases (h : readSlots read kind count (m :: ms) s = .ok (ds, r)) :
    (∃ b r' d ds', AreBlank b ∧ s = b ++ ']' :: r' ∧ m.fallback? = some d ∧
        readSlots read kind (count + 1) ms (']' :: r') = .ok (ds', r) ∧ ds = d :: ds') ∨
      ∃ lead s' d r' ds', LeadsIn (count == 0) lead ∧ s = lead ++ s' ∧ readMember read m s' = .ok (d, r') ∧
        readSlots read kind (count + 1) ms r' = .ok (ds', r) ∧ ds = d :: ds' := by
  have hmore : ∀ {lead s' : List Char}, LeadsIn (count == 0) lead → s = lead ++ s' →
      (do
        let (d, r) ← readMember read m s'
        let (ds, r) ← readSlots read kind (count + 1) ms r
        pure (d :: ds, r)) = Except.ok (ds, r) →
      ∃ lead s' d r' ds', LeadsIn (count == 0) lead ∧ s = lead ++ s' ∧ readMember read m s' = .ok (d, r') ∧
        readSlots read kind (count + 1) ms r' = .ok (ds', r) ∧ ds = d :: ds' := by
    intro lead s' hlead hs h
    obtain ⟨⟨d, r'⟩, hslot, h⟩ := bind_eq_ok_iff.1 h
    obtain ⟨⟨ds', r''⟩, hslots, h⟩ := bind_eq_ok_iff.1 h
    cases h
    exact ⟨lead, s', d, r', ds', hlead, hs, hslot, hslots, rfl⟩
  simp only [readSlots] at h
  split at h
  · cases h
  · rename_i r' heq
    obtain ⟨b, hb, rfl⟩ := skipBlanks_sound heq
    split at h
    · cases h
    · rename_i d hd
      obtain ⟨⟨ds', r''⟩, hslots, h⟩ := bind_eq_ok_iff.1 h
      cases h
      exact .inl ⟨b, r', d, ds', hb, rfl, hd, hslots, rfl⟩
  · obtain ⟨b, hb, hs⟩ := skipBlanks_sound (s := s) rfl
    split at h
    · rename_i hcount
      exact .inr (hmore (by rw [hcount]; exact .first hb) hs h)
    · rename_i hcount
      split at h
      · rename_i _ r₀ heq
        split at h
        · cases h
        · cases h
        · obtain ⟨b', hb', hr⟩ := skipBlanks_sound (s := r₀) rfl
          have hlater : (count == 0) = false := beq_eq_false_iff_ne.2 hcount
          have hlead : LeadsIn (count == 0) (b ++ ',' :: b') := by
            rw [hlater]
            exact .later hb hb'
          refine .inr (hmore hlead ?_ h)
          rw [List.append_assoc, List.cons_append, ← hr, ← heq]
          exact hs
      · cases h

/-! Keys and members -/

theorem readKey_end (k : Nat) (first : Bool) (hb : AreBlank b) (r : List Char) :
    readKey k first (b ++ '\x7d' :: r) = .ok (none, r) := by
  simp only [readKey, skipBlanks_append hb, skipBlanks_cons (show isBlank '\x7d' = false by decide)]

theorem readKey_name {k : Nat} (hlead : LeadsIn first lead) {key name : List Char} (hname : Denotes key name)
    (hk : key.length < k) (r : List Char) :
    readKey k first (lead ++ '"' :: (key ++ '"' :: r)) = .ok (some (.ofList name), r) := by
  have hscan := Json.scanString_complete hname r hk
  cases hlead with
  | first hb =>
    simp only [readKey, skipBlanks_append hb, skipBlanks_cons (show isBlank '"' = false by decide), hscan, bind,
      Except.bind, pure, Except.pure]
  | later hb hb' =>
    simp only [readKey, List.append_assoc, List.cons_append, skipBlanks_append hb,
      skipBlanks_cons (show isBlank ',' = false by decide), skipBlanks_append hb',
      skipBlanks_cons (show isBlank '"' = false by decide), hscan, bind, Except.bind, pure, Except.pure]

/-- The next name of an object is there behind what leads in, or the object ends. -/
theorem readKey_cases {k : Nat} {name? : Option String} (h : readKey k first s = .ok (name?, r)) :
    (name? = none ∧ ∃ b, AreBlank b ∧ s = b ++ '\x7d' :: r) ∨
      ∃ lead key name, name? = some (.ofList name) ∧ LeadsIn first lead ∧ Denotes key name ∧
        s = lead ++ '"' :: (key ++ '"' :: r) := by
  have hname : ∀ {lead r₀ : List Char}, LeadsIn first lead → s = lead ++ '"' :: r₀ →
      (Json.scanString k r₀ >>= fun p => pure (some (String.ofList p.1), p.2)) = Except.ok (name?, r) →
      ∃ lead key name, name? = some (.ofList name) ∧ LeadsIn first lead ∧ Denotes key name ∧
        s = lead ++ '"' :: (key ++ '"' :: r) := by
    intro lead r₀ hlead hs h
    obtain ⟨⟨name, r'⟩, hscan, h⟩ := bind_eq_ok_iff.1 h
    cases h
    obtain ⟨key, hkey, rfl⟩ := Json.scanString_sound hscan
    exact ⟨lead, key, name, rfl, hlead, hkey, hs⟩
  simp only [readKey] at h
  split at h
  · cases h
  · rename_i heq
    obtain ⟨b, hb, rfl⟩ := skipBlanks_sound heq
    cases h
    exact .inl ⟨rfl, b, hb, rfl⟩
  · rename_i heq
    obtain ⟨b, hb, hs⟩ := skipBlanks_sound heq
    exact .inr (hname (.first hb) hs h)
  · cases h
  · rename_i heq
    obtain ⟨b, hb, hs⟩ := skipBlanks_sound heq
    split at h
    · cases h
    · rename_i heq'
      obtain ⟨b', hb', rfl⟩ := skipBlanks_sound heq'
      exact .inr (hname (.later hb hb') (by rw [hs, List.append_assoc, List.cons_append]) h)
    · cases h
    · cases h
  · cases h

variable {given : List (String × Datum)} {k : Nat} {key : List Char}

theorem readMembers_end (read : Shape → Reader Datum) (kind : RecordKind) (k : Nat) (given : List (String × Datum))
    (first : Bool) (hb : AreBlank b) (r : List Char) :
    readMembers read kind (k + 1) given first (b ++ '\x7d' :: r) = (do
      let ds ← assemble given r kind.members
      pure (ds, r)) := by
  simp only [readMembers, readKey_end k first hb]
  rfl

theorem readMembers_other (read : Shape → Reader Datum) (given : List (String × Datum)) (hlead : LeadsIn first lead)
    (hkey : kind.Ignores key) (hk : key.length < k) (s : List Char) :
    readMembers read kind (k + 1) given first (lead ++ '"' :: (key ++ '"' :: s)) = (do
      let r ← Json.scanColon s
      let r ← Json.skipValue k r
      readMembers read kind k given false r) := by
  obtain ⟨name, hname, hnone⟩ := RecordKind.ignores_iff.1 hkey
  simp only [readMembers, readKey_name hlead hname hk, hnone, bind, Except.bind]

theorem readMembers_member (read : Shape → Reader Datum) (hgiven : given? m.name given = none)
    (hlead : LeadsIn first lead) (hkey : kind.Names key m) (hk : key.length < k) (s : List Char) :
    readMembers read kind (k + 1) given first (lead ++ '"' :: (key ++ '"' :: s)) = (do
      let r ← Json.scanColon s
      let (d, r) ← readMember read m r
      readMembers read kind k (given ++ [(m.name, d)]) false r) := by
  obtain ⟨name, hname, hm⟩ := RecordKind.names_iff.1 hkey
  simp only [readMembers, readKey_name hlead hname hk, hm, hgiven, Option.isSome_none, Bool.false_eq_true, if_false,
    bind, Except.bind]

/-- The object ends, or there is a member behind what leads in: one that is passed over or one not given yet. -/
theorem readMembers_cases (h : readMembers read kind (k + 1) given first s = .ok (ds, r)) :
    (∃ b, AreBlank b ∧ s = b ++ '\x7d' :: r ∧ assemble given r kind.members = .ok ds) ∨
      ∃ lead key s' r₀ r₁, LeadsIn first lead ∧ s = lead ++ '"' :: (key ++ '"' :: s') ∧ Json.scanColon s' = .ok r₀ ∧
        (kind.Ignores key ∧ Json.skipValue k r₀ = .ok r₁ ∧ readMembers read kind k given false r₁ = .ok (ds, r) ∨
          ∃ m d, kind.Names key m ∧ given? m.name given = none ∧ readMember read m r₀ = .ok (d, r₁) ∧
            readMembers read kind k (given ++ [(m.name, d)]) false r₁ = .ok (ds, r)) := by
  obtain ⟨⟨name?, s'⟩, hkey, hnext⟩ := bind_eq_ok_iff.1 h
  obtain ⟨rfl, b, hb, rfl⟩ | ⟨lead, key, name, rfl, hlead, hname, rfl⟩ := readKey_cases hkey
  · obtain ⟨ds', hds, hend⟩ := bind_eq_ok_iff.1 hnext
    cases hend
    exact .inl ⟨b, hb, rfl, hds⟩
  · right
    simp only at hnext
    split at hnext
    · rename_i hnone
      obtain ⟨r₀, hcolon, hnext⟩ := bind_eq_ok_iff.1 hnext
      obtain ⟨r₁, hskip, hnext⟩ := bind_eq_ok_iff.1 hnext
      have hignores := RecordKind.ignores_iff.2 ⟨name, hname, hnone⟩
      exact ⟨lead, key, s', r₀, r₁, hlead, rfl, hcolon, .inl ⟨hignores, hskip, hnext⟩⟩
    · rename_i m hm
      split at hnext
      · cases hnext
      · rename_i hgiven
        obtain ⟨r₀, hcolon, hnext⟩ := bind_eq_ok_iff.1 hnext
        obtain ⟨⟨d, r₁⟩, hvalue, hnext⟩ := bind_eq_ok_iff.1 hnext
        have hnone : given? m.name given = none := by simpa using hgiven
        have hnames := RecordKind.names_iff.2 ⟨name, hname, hm⟩
        exact ⟨lead, key, s', r₀, r₁, hlead, rfl, hcolon, .inr ⟨m, d, hnames, hnone, hvalue, hnext⟩⟩

end ProtoLink.Datum
