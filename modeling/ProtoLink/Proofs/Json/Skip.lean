import ProtoLink.Proofs.Json.Quoted

/-! Passing over a value takes off the text of a document, of any kind, and nothing else. -/
namespace ProtoLink.Json

variable {s r rest lead : List Char} {first : Bool}

/-! Blanks, words and colons -/

theorem skipBlanks_cons {c : Char} (h : isBlank c = false) : skipBlanks (c :: rest) = c :: rest := by
  simp [skipBlanks, h]

theorem isBlank_eq_false_of_isDigit {c : Char} (h : c.isDigit = true) : isBlank c = false := by
  simp only [isBlank, Bool.or_eq_false_iff, decide_eq_false_iff_not]
  refine ⟨⟨⟨?_, ?_⟩, ?_⟩, ?_⟩ <;> (rintro rfl; exact absurd h (by decide))

theorem skipBlanks_sound (h : skipBlanks s = r) : ∃ b, AreBlank b ∧ s = b ++ r := by
  subst r
  refine ⟨s.takeWhile isBlank, fun c hc => ?_, List.takeWhile_append_dropWhile.symm⟩
  exact List.all_eq_true.1 List.all_takeWhile c hc

theorem skipBlanks_append {b : List Char} (hb : AreBlank b) (s : List Char) : skipBlanks (b ++ s) = skipBlanks s :=
  List.dropWhile_append_of_pos hb

theorem skipBlanks_skipBlanks (s : List Char) : skipBlanks (skipBlanks s) = skipBlanks s := by
  obtain ⟨b, hb, hs⟩ := skipBlanks_sound (s := s) rfl
  calc skipBlanks (skipBlanks s) = skipBlanks (b ++ skipBlanks s) := (skipBlanks_append hb _).symm
    _ = skipBlanks s := by rw [← hs]

theorem AreBlank.nil : AreBlank [] := by
  rintro c ⟨⟩

theorem AreBlank.append {b b' : List Char} (hb : AreBlank b) (hb' : AreBlank b') : AreBlank (b ++ b') := by
  intro c hc
  obtain hc | hc := List.mem_append.1 hc
  · exact hb c hc
  · exact hb' c hc

theorem LeadsIn.append {b : List Char} (h : LeadsIn first lead) (hb : AreBlank b) : LeadsIn first (lead ++ b) := by
  cases h with
  | first h => exact .first (h.append hb)
  | later h h' =>
    rw [List.append_assoc, List.cons_append]
    exact .later h (h'.append hb)

/-- A number ends at a blank. -/
theorem EndsNumber.blanks {b : List Char} (hb : AreBlank b) (h : EndsNumber rest) : EndsNumber (b ++ rest) := by
  cases b with
  | nil => exact h
  | cons c b =>
    rintro _ ⟨⟩
    have hc : isBlank c = true := hb c List.mem_cons_self
    simp only [isBlank, Bool.or_eq_true, decide_eq_true_eq] at hc
    obtain ((rfl | rfl) | rfl) | rfl := hc <;> decide

theorem LeadsIn.endsNumber (h : LeadsIn false lead) (rest : List Char) : EndsNumber (lead ++ rest) := by
  cases h with
  | later hb =>
    rw [List.append_assoc]
    exact .blanks hb (by rintro _ ⟨⟩; decide)

theorem scanWord_eq_ok_iff {letters : List Char} : scanWord letters s = .ok r ↔ s = letters ++ r := by
  induction letters generalizing s with
  | nil => simp [scanWord]
  | cons w ws ih =>
    cases s with
    | nil => simp [scanWord]
    | cons c s =>
      by_cases hc : c = w
      · simp [scanWord, hc, ih]
      · simp [scanWord, hc]

theorem scanColon_eq_ok_iff : scanColon s = .ok r ↔ skipBlanks s = ':' :: r := by
  unfold scanColon
  split <;> simp_all

theorem scanColon_blanks {b : List Char} (hb : AreBlank b) (s : List Char) : scanColon (b ++ ':' :: s) = .ok s := by
  rw [scanColon_eq_ok_iff, skipBlanks_append hb, skipBlanks_cons (by decide)]

/-! Documents by their first character -/

theorem SpellsUnsigned.exists_cons {n : Numeral} {unsigned : List Char} (h : SpellsUnsigned n unsigned) :
    ∃ c cs, unsigned = c :: cs ∧ c.isDigit = true := by
  cases h with
  | mk hw =>
    obtain ⟨c, cs, heq, hc⟩ := hw.1.exists_cons
    exact ⟨c, _, by rw [heq, List.cons_append], hc⟩

/-- The sign of a number is not among its digits. -/
theorem SpellsUnsigned.withSign {n : Numeral} {unsigned : List Char} (h : SpellsUnsigned n unsigned) (negative : Bool) :
    SpellsUnsigned { n with negative } unsigned := by
  cases h with
  | mk hw hf he => exact .mk (n := { n with negative }) hw hf he

/-- A number is a minus sign with a number behind it, or begins with a digit. -/
theorem IsNumber.cases {literal : List Char} (h : IsNumber literal) :
    ∃ n unsigned, SpellsUnsigned n unsigned ∧
      (literal = '-' :: unsigned ∨ literal = unsigned ∧ ∃ c cs, unsigned = c :: cs ∧ c.isDigit = true) := by
  obtain ⟨n, unsigned, hspells, rfl⟩ := h
  refine ⟨n, unsigned, hspells, ?_⟩
  cases n.negative with
  | true => exact .inl rfl
  | false => exact .inr ⟨rfl, hspells.exists_cons⟩

/-- A document begins with no blank, and with no mark of what it stands in. -/
theorem Spells.exists_cons {t : Tree} {body : List Char} (h : Spells t body) :
    ∃ c cs, body = c :: cs ∧ isBlank c = false ∧ c ≠ ']' ∧ c ≠ '\x7d' ∧ c ≠ ',' := by
  cases h with
  | number h =>
    obtain ⟨n, unsigned, _, rfl | ⟨rfl, c, cs, rfl, hc⟩⟩ := h.cases
    · exact ⟨_, _, rfl, by decide⟩
    · refine ⟨c, cs, rfl, isBlank_eq_false_of_isDigit hc, ?_, ?_, ?_⟩ <;>
        (rintro rfl; exact absurd hc (by decide))
  | null => exact ⟨_, _, rfl, by decide⟩
  | yes => exact ⟨_, _, rfl, by decide⟩
  | no => exact ⟨_, _, rfl, by decide⟩
  | string => exact ⟨_, _, rfl, by decide⟩
  | array => exact ⟨_, _, rfl, by decide⟩
  | object => exact ⟨_, _, rfl, by decide⟩

/-! Whole documents -/

/-- What follows an item of a list is passed over up to and with the end of the list. -/
def skipItemsRest (steps : Nat) (s : List Char) : Except Fault (List Char) :=
  match skipBlanks s with
  | [] => .error (.here (.truncated .list) [])
  | ',' :: r => skipItems steps r
  | ']' :: r => .ok r
  | c :: r => .error (.next .expectedListSeparator (c :: r))

/-- What follows a member of an object is passed over up to and with the end of the object. -/
def skipMembersRest (steps : Nat) (s : List Char) : Except Fault (List Char) :=
  match skipBlanks s with
  | [] => .error (.here (.truncated .object) [])
  | ',' :: r => skipMembers steps r
  | '\x7d' :: r => .ok r
  | c :: r => .error (.next .expectedObjectSeparator (c :: r))

theorem skipItems_succ (steps : Nat) (s : List Char) :
    skipItems (steps + 1) s = skipValue steps s >>= skipItemsRest steps := rfl

theorem skipMembers_succ (steps : Nat) (h : skipBlanks s = '"' :: r) :
    skipMembers (steps + 1) s = (do
      let r ← skipString steps r
      let r ← scanColon r
      let r ← skipValue steps r
      skipMembersRest steps r) := by
  rw [skipMembers, h]
  rfl

theorem skipNumber_sound (h : skipNumber s = .ok r) :
    ∃ n unsigned, n.negative = false ∧ SpellsUnsigned n unsigned ∧ s = unsigned ++ r := by
  obtain ⟨⟨n, r'⟩, hscan, h⟩ := bind_eq_ok_iff.1 h
  cases h
  obtain ⟨hn, unsigned, hspells, rfl⟩ := Numeral.scan_sound hscan
  exact ⟨n, unsigned, hn, hspells, rfl⟩

theorem skipNumber_complete {n : Numeral} {unsigned : List Char} (h : SpellsUnsigned n unsigned)
    (hrest : EndsNumber rest) : skipNumber (unsigned ++ rest) = .ok rest := by
  have hscan : Numeral.scan .badNumber false (unsigned ++ rest) = .ok ({ n with negative := false }, rest) :=
    Numeral.scan_complete (h.withSign false) hrest
  simp only [skipNumber, hscan, bind, Except.bind]
  rfl

mutual

/-- What is passed over as a value is a document. -/
theorem skipValue_sound : (steps : Nat) → {s r : List Char} → skipValue steps s = .ok r →
    ∃ t body, Spells t body ∧ skipBlanks s = body ++ r
  | 0, _, _, h => by cases h
  | steps + 1, s, r, h => by
    unfold skipValue at h
    split at h
    · cases h
    · rename_i heq
      exact ⟨.null, _, .null, by rw [heq, scanWord_eq_ok_iff.1 h]; rfl⟩
    · rename_i heq
      exact ⟨.bool true, _, .yes, by rw [heq, scanWord_eq_ok_iff.1 h]; rfl⟩
    · rename_i heq
      exact ⟨.bool false, _, .no, by rw [heq, scanWord_eq_ok_iff.1 h]; rfl⟩
    · rename_i heq
      obtain ⟨literal, hliteral, rfl⟩ := skipString_sound h
      exact ⟨.string literal, _, .string hliteral, by rw [heq]; simp⟩
    · rename_i heq
      obtain ⟨n, unsigned, _, hspells, rfl⟩ := skipNumber_sound h
      exact ⟨_, _, .number ⟨{ n with negative := true }, unsigned, hspells.withSign true, rfl⟩, heq⟩
    · rename_i r' heq
      split at h
      · cases h
      · rename_i hend
        cases h
        obtain ⟨b, hb, rfl⟩ := skipBlanks_sound hend
        exact ⟨.array [], _, .array (.nil hb), by rw [heq]; simp⟩
      · obtain ⟨b, hb, heq'⟩ := skipBlanks_sound (s := r') rfl
        obtain ⟨items, text, htext, hspells⟩ := skipItems_sound steps h
        refine ⟨.array items, _, .array (hspells true b (.first hb)), ?_⟩
        rw [heq, List.cons_append, List.append_assoc, ← htext, ← heq']
    · rename_i r' heq
      split at h
      · cases h
      · rename_i hend
        cases h
        obtain ⟨b, hb, rfl⟩ := skipBlanks_sound hend
        exact ⟨.object [], _, .object (.nil hb), by rw [heq]; simp⟩
      · obtain ⟨b, hb, heq'⟩ := skipBlanks_sound (s := r') rfl
        obtain ⟨members, text, htext, hspells⟩ := skipMembers_sound steps h
        refine ⟨.object members, _, .object (hspells true b (.first hb)), ?_⟩
        rw [heq, List.cons_append, List.append_assoc, ← htext, ← heq']
    · rename_i heq
      split at h
      · obtain ⟨n, unsigned, hn, hspells, htext⟩ := skipNumber_sound h
        exact ⟨_, unsigned, .number ⟨n, unsigned, hspells, by simp [hn]⟩, heq.trans htext⟩
      · cases h

/-- What is passed over as items are items up to the end of a list, whatever led to the first of them. -/
theorem skipItems_sound : (steps : Nat) → {s r : List Char} → skipItems steps s = .ok r →
    ∃ items text, s = text ++ r ∧ ∀ first lead, LeadsIn first lead → SpellsItems first items (lead ++ text)
  | 0, _, _, h => by cases h
  | steps + 1, s, r, h => by
    obtain ⟨s', hvalue, hrest⟩ := bind_eq_ok_iff.1 ((skipItems_succ steps s).symm.trans h)
    obtain ⟨t, body, hbody, heq⟩ := skipValue_sound steps hvalue
    obtain ⟨b, hb, rfl⟩ := skipBlanks_sound heq
    obtain ⟨items, text, rfl, hitems⟩ : ∃ items text, s' = text ++ r ∧ SpellsItems false items text := by
      unfold skipItemsRest at hrest
      split at hrest
      · cases hrest
      · rename_i hcomma
        obtain ⟨b', hb', rfl⟩ := skipBlanks_sound hcomma
        obtain ⟨items, text, rfl, hspells⟩ := skipItems_sound steps hrest
        exact ⟨items, _, by simp, hspells false _ (.later hb' .nil)⟩
      · rename_i hend
        cases hrest
        obtain ⟨b', hb', rfl⟩ := skipBlanks_sound hend
        exact ⟨[], _, by simp, .nil hb'⟩
      · cases hrest
    refine ⟨t :: items, b ++ (body ++ text), by simp, fun first lead hlead => ?_⟩
    have hspells := SpellsItems.cons (hlead.append hb) hbody hitems
    rwa [List.append_assoc] at hspells

/-- What is passed over as members are members up to the end of an object, whatever led to the first of them. -/
theorem skipMembers_sound : (steps : Nat) → {s r : List Char} → skipMembers steps s = .ok r →
    ∃ members text, s = text ++ r ∧ ∀ first lead, LeadsIn first lead → SpellsMembers first members (lead ++ text)
  | 0, _, _, h => by cases h
  | steps + 1, s, r, h => by
    obtain ⟨r₀, hquote⟩ : ∃ r₀, skipBlanks s = '"' :: r₀ := by
      unfold skipMembers at h
      split at h
      · cases h
      · rename_i r₀ hquote
        exact ⟨r₀, hquote⟩
      · cases h
    rw [skipMembers_succ steps hquote] at h
    obtain ⟨r₁, hskip, h⟩ := bind_eq_ok_iff.1 h
    obtain ⟨r₂, hcolon, h⟩ := bind_eq_ok_iff.1 h
    obtain ⟨r₃, hvalue, hrest⟩ := bind_eq_ok_iff.1 h
    obtain ⟨lead₀, hlead₀, rfl⟩ := skipBlanks_sound hquote
    obtain ⟨key, hkey, rfl⟩ := skipString_sound hskip
    obtain ⟨b, hb, rfl⟩ := skipBlanks_sound (scanColon_eq_ok_iff.1 hcolon)
    obtain ⟨t, body, hbody, heq⟩ := skipValue_sound steps hvalue
    obtain ⟨b', hb', rfl⟩ := skipBlanks_sound heq
    obtain ⟨members, text, rfl, hmembers⟩ : ∃ members text, r₃ = text ++ r ∧ SpellsMembers false members text := by
      unfold skipMembersRest at hrest
      split at hrest
      · cases hrest
      · rename_i hcomma
        obtain ⟨b'', hb'', rfl⟩ := skipBlanks_sound hcomma
        obtain ⟨members, text, rfl, hspells⟩ := skipMembers_sound steps hrest
        exact ⟨members, _, by simp, hspells false _ (.later hb'' .nil)⟩
      · rename_i hend
        cases hrest
        obtain ⟨b'', hb'', rfl⟩ := skipBlanks_sound hend
        exact ⟨[], _, by simp, .nil hb''⟩
      · cases hrest
    refine ⟨(key, t) :: members, lead₀ ++ '"' :: (key ++ '"' :: (b ++ ':' :: (b' ++ (body ++ text)))), by simp,
      fun first lead hlead => ?_⟩
    have hspells := SpellsMembers.cons (hlead.append hlead₀) hkey hb hb' hbody hmembers
    rwa [List.append_assoc] at hspells

end

/-! A document is passed over -/

theorem SpellsItems.endsNumber {items : List Tree} {text : List Char} (h : SpellsItems false items text)
    (rest : List Char) : EndsNumber (text ++ rest) := by
  cases h with
  | nil hb =>
    rw [List.append_assoc]
    exact .blanks hb (by rintro _ ⟨⟩; decide)
  | cons hlead =>
    rw [List.append_assoc]
    exact hlead.endsNumber _

theorem SpellsMembers.endsNumber {members : List (List Char × Tree)} {text : List Char}
    (h : SpellsMembers false members text) (rest : List Char) : EndsNumber (text ++ rest) := by
  cases h with
  | nil hb =>
    rw [List.append_assoc]
    exact .blanks hb (by rintro _ ⟨⟩; decide)
  | cons hlead =>
    rw [List.append_assoc]
    exact hlead.endsNumber _

/-- Only null begins with its letter. -/
theorem Spells.eq_null {t : Tree} {cs : List Char} (h : Spells t ('n' :: cs)) : t = .null := by
  cases h with
  | null => rfl
  | number h =>
    obtain ⟨n, unsigned, _, hsign | ⟨rfl, c, cs, heq, hc⟩⟩ := h.cases
    · cases hsign
    · cases heq
      exact absurd hc (by decide)

theorem Spells.length_pos {t : Tree} {body : List Char} (h : Spells t body) : 0 < body.length := by
  obtain ⟨c, cs, rfl, _⟩ := h.exists_cons
  exact Nat.succ_pos _

theorem SpellsItems.length_pos {items : List Tree} {text : List Char} (h : SpellsItems first items text) :
    0 < text.length := by
  cases h with
  | nil => simp
  | cons _ h =>
    have hpos := h.length_pos
    simp only [List.length_append]
    omega

theorem Spells.skipBlanks_eq {t : Tree} {body : List Char} (h : Spells t body) (rest : List Char) :
    skipBlanks (body ++ rest) = body ++ rest := by
  obtain ⟨c, cs, rfl, hblank, _⟩ := h.exists_cons
  exact skipBlanks_cons hblank

mutual

/-- A document is passed over, wherever it ends. -/
theorem skipValue_complete : (steps : Nat) → {t : Tree} → {body s r : List Char} → Spells t body →
    skipBlanks s = body ++ r → EndsNumber r → 2 * body.length < steps → skipValue steps s = .ok r
  | steps + 1, t, body, s, r, h, heq, hrest, hsteps => by
    rw [skipValue, heq]
    cases h with
    | null => rfl
    | yes => rfl
    | no => rfl
    | number h =>
      obtain ⟨n, unsigned, hspells, rfl | ⟨rfl, c, cs, rfl, hc⟩⟩ := h.cases
      · exact skipNumber_complete hspells hrest
      · have hskip := skipNumber_complete hspells hrest
        rw [List.cons_append] at hskip ⊢
        split <;> rename_i heq' <;> cases heq'
        iterate 7 exact absurd hc (by decide)
        rw [if_pos hc, hskip]
    | string h =>
      simp only [List.cons_append, List.append_assoc]
      exact skipString_complete h (by simp at hsteps; omega)
    | @array items text h =>
      rw [List.length_cons] at hsteps
      simp only [List.cons_append]
      cases h with
      | nil hb =>
        rw [List.append_assoc, skipBlanks_append hb]
        rfl
      | cons hlead hbody hitems =>
        cases hlead with
        | first hb =>
          simp only [List.length_append] at hsteps
          rw [List.append_assoc, skipBlanks_append hb, List.append_assoc, hbody.skipBlanks_eq]
          have hskip := skipItems_complete steps hbody hitems (hbody.skipBlanks_eq _) (r := r) (by omega)
          obtain ⟨c, cs, rfl, _, hend, _⟩ := hbody.exists_cons
          rw [List.cons_append] at hskip ⊢
          split <;> simp_all
    | @object members text h =>
      rw [List.length_cons] at hsteps
      simp only [List.cons_append]
      cases h with
      | nil hb =>
        rw [List.append_assoc, skipBlanks_append hb]
        rfl
      | cons hlead hkey hb hb' hbody hmembers =>
        cases hlead with
        | first hlead =>
          simp only [List.length_append, List.length_cons] at hsteps
          rw [List.append_assoc, skipBlanks_append hlead]
          simp only [List.cons_append, List.append_assoc]
          exact skipMembers_complete steps hkey hb hb' hbody hmembers (skipBlanks_cons (by decide)) (by omega)

/-- The items behind the blanks of a list are passed over up to and with its end. -/
theorem skipItems_complete : (steps : Nat) → {t : Tree} → {items : List Tree} → {body text s r : List Char} →
    Spells t body → SpellsItems false items text → skipBlanks s = body ++ (text ++ r) →
    2 * (body.length + text.length) ≤ steps → skipItems steps s = .ok r
  | 0, _, _, _, _, _, _, h, _, _, hsteps => by
    have hpos := h.length_pos
    omega
  | steps + 1, t, items, body, text, s, r, h, hitems, heq, hsteps => by
    have hpos : 0 < text.length := hitems.length_pos
    rw [skipItems_succ, skipValue_complete steps h heq (hitems.endsNumber r) (by omega)]
    change skipItemsRest steps (text ++ r) = .ok r
    cases hitems with
    | nil hb =>
      rw [List.append_assoc, skipItemsRest, skipBlanks_append hb]
      rfl
    | @cons _ item items lead body' rest hlead hbody' hitems' =>
      cases hlead with
      | @later b b' hb hb' =>
        have hcomma : skipBlanks (b ++ ',' :: b' ++ (body' ++ rest) ++ r) = ',' :: (b' ++ (body' ++ (rest ++ r))) := by
          simp only [List.append_assoc, List.cons_append]
          rw [skipBlanks_append hb, skipBlanks_cons (by decide)]
        simp only [List.length_append, List.length_cons] at hsteps
        rw [skipItemsRest, hcomma]
        refine skipItems_complete steps hbody' hitems' ?_ (by omega)
        rw [skipBlanks_append hb', hbody'.skipBlanks_eq]

/-- The members behind the blanks of an object are passed over up to and with its end. -/
theorem skipMembers_complete : (steps : Nat) → {t : Tree} → {members : List (List Char × Tree)} →
    {key b b' body text s r : List Char} → IsString key → AreBlank b → AreBlank b' → Spells t body →
    SpellsMembers false members text →
    skipBlanks s = '"' :: (key ++ '"' :: (b ++ ':' :: (b' ++ (body ++ (text ++ r))))) →
    2 * (key.length + body.length + text.length + 1) ≤ steps → skipMembers steps s = .ok r
  | 0, _, _, _, _, _, _, _, _, _, _, _, _, _, _, _, hsteps => by omega
  | steps + 1, t, members, key, b, b', body, text, s, r, hkey, hb, hb', h, hmembers, heq, hsteps => by
    have hcolon := scanColon_blanks hb (b' ++ (body ++ (text ++ r)))
    have hvalue : skipValue steps (b' ++ (body ++ (text ++ r))) = .ok (text ++ r) := by
      refine skipValue_complete steps h ?_ (hmembers.endsNumber r) (by omega)
      rw [skipBlanks_append hb', h.skipBlanks_eq]
    rw [skipMembers_succ steps heq, skipString_complete hkey (by omega)]
    simp only [bind, Except.bind, hcolon, hvalue]
    cases hmembers with
    | nil hb =>
      rw [List.append_assoc, skipMembersRest, skipBlanks_append hb]
      rfl
    | @cons _ key' value members lead b₁ b₂ body' rest hlead hkey' hb₁ hb₂ hbody' hmembers' =>
      cases hlead with
      | @later b b' hb hb' =>
        simp only [List.append_assoc, List.cons_append]
        rw [skipMembersRest, skipBlanks_append hb, skipBlanks_cons (by decide)]
        simp only [List.length_append, List.length_cons] at hsteps
        refine skipMembers_complete steps hkey' hb₁ hb₂ hbody' hmembers' ?_ (by omega)
        rw [skipBlanks_append hb', skipBlanks_cons (by decide)]

end

end ProtoLink.Json
