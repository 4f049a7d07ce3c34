import ProtoLink.Json.Printer
import ProtoLink.Proofs.Json.Number

/-! Strings are read and passed over by their grammar. A string that is passed over need not denote a text: code
units that make up no character are read as nothing. -/
namespace ProtoLink.Json

variable {s r rest literal text piece quad : List Char} {c : Char} {n : Nat}

/-! Code units and escapes -/

theorem scanHex_sound (h : scanHex s = .ok (n, r)) : ∃ quad, SpellsUnit quad n ∧ s = quad ++ r := by
  unfold scanHex at h
  split at h
  · split at h
    · rename_i ha hb hc hd
      cases h
      exact ⟨_, .mk ha hb hc hd, rfl⟩
    · cases h
  · split at h <;> cases h

theorem scanHex_complete (h : SpellsUnit quad n) : scanHex (quad ++ rest) = .ok (n, rest) := by
  cases h with
  | mk ha hb hc hd => simp only [List.cons_append, List.nil_append, scanHex, ha, hb, hc, hd]

theorem scanUnit_sound (h : scanUnit s = .ok (c, r)) :
    ∃ piece, SpellsChar ('\\' :: 'u' :: piece) c ∧ s = piece ++ r := by
  obtain ⟨⟨n, s⟩, hhex, hunit⟩ := bind_eq_ok_iff.1 h
  obtain ⟨quad, hquad, rfl⟩ := scanHex_sound hhex
  simp only at hunit
  split at hunit
  · cases hunit
  · rename_i hlow
    split at hunit
    · rename_i hhigh
      split at hunit
      · cases hunit
      · cases hunit
      · obtain ⟨⟨m, r'⟩, hhex', hpair⟩ := bind_eq_ok_iff.1 hunit
        obtain ⟨quad', hquad', rfl⟩ := scanHex_sound hhex'
        simp only at hpair
        split at hpair
        · rename_i hm
          simp only [Except.ok.injEq, Prod.mk.injEq] at hpair
          obtain ⟨rfl, rfl⟩ := hpair
          exact ⟨_, .pair hquad hhigh hquad' hm, by simp⟩
        · cases hpair
      · cases hunit
      · cases hunit
    · rename_i hhigh
      cases hunit
      exact ⟨quad, .unit hquad (by omega), rfl⟩

theorem scanUnit_unit (h : SpellsUnit quad n) (hn : ¬ (0xD800 ≤ n ∧ n ≤ 0xDFFF)) :
    scanUnit (quad ++ rest) = .ok (Char.ofNat n, rest) := by
  simp only [scanUnit, scanHex_complete h, bind, Except.bind]
  rw [if_neg (by omega), if_neg (by omega)]

theorem scanUnit_pair {quad' : List Char} {m : Nat} (h : SpellsUnit quad n) (hn : 0xD800 ≤ n ∧ n ≤ 0xDBFF)
    (h' : SpellsUnit quad' m) (hm : 0xDC00 ≤ m ∧ m ≤ 0xDFFF) :
    scanUnit (quad ++ '\\' :: 'u' :: (quad' ++ rest)) =
      .ok (Char.ofNat (0x10000 + (n - 0xD800) * 0x400 + (m - 0xDC00)), rest) := by
  simp only [scanUnit, scanHex_complete h, scanHex_complete h', bind, Except.bind]
  rw [if_neg (by omega), if_pos hn, if_pos hm]

theorem scanEscape_sound (h : scanEscape s = .ok (c, r)) : ∃ piece, SpellsChar ('\\' :: piece) c ∧ s = piece ++ r := by
  have hshort : ∀ {e c : Char}, (e, c) ∈ escapes → ∃ piece, SpellsChar ('\\' :: piece) c ∧ e :: r = piece ++ r :=
    fun he => ⟨[_], .escape he, rfl⟩
  unfold scanEscape at h
  split at h
  · cases h
  iterate 8 (cases h; exact hshort (by decide))
  · obtain ⟨piece, hpiece, rfl⟩ := scanUnit_sound h
    exact ⟨_, hpiece, rfl⟩
  · cases h

theorem scanEscape_short {e : Char} (h : (e, c) ∈ escapes) : scanEscape (e :: rest) = .ok (c, rest) := by
  have hall : ∀ p ∈ escapes, scanEscape (p.1 :: rest) = .ok (p.2, rest) := by simp [escapes, scanEscape]
  exact hall _ h

/-! Texts -/

theorem scanChar_sound (h : scanChar s = .ok (some c, r)) : ∃ piece, SpellsChar piece c ∧ s = piece ++ r := by
  unfold scanChar at h
  split at h
  · cases h
  · cases h
  · obtain ⟨⟨c, r⟩, hescape, h⟩ := bind_eq_ok_iff.1 h
    cases h
    obtain ⟨piece, hpiece, rfl⟩ := scanEscape_sound hescape
    exact ⟨_, hpiece, rfl⟩
  · rename_i hquote hslash
    split at h
    · cases h
    · rename_i hcontrol
      cases h
      exact ⟨_, .plain ⟨hquote, hslash, Nat.le_of_not_lt hcontrol⟩, rfl⟩

theorem scanChar_none (h : scanChar s = .ok (none, r)) : s = '"' :: r := by
  unfold scanChar at h
  split at h
  · cases h
  · cases h
    rfl
  · obtain ⟨p, _, h⟩ := bind_eq_ok_iff.1 h
    cases h
  · split at h <;> cases h

theorem scanChar_complete (h : SpellsChar piece c) : scanChar (piece ++ rest) = .ok (some c, rest) := by
  cases h with
  | plain hplain =>
    obtain ⟨hquote, hslash, hcontrol⟩ := hplain
    rw [List.singleton_append, scanChar]
    · exact if_neg (Nat.not_lt.2 hcontrol)
    · exact hquote
    · exact hslash
  | escape he =>
    simp only [List.cons_append, List.nil_append, scanChar, scanEscape_short he, bind, Except.bind]
    rfl
  | unit hunit hn =>
    simp only [List.cons_append, scanChar, scanEscape, scanUnit_unit hunit hn, bind, Except.bind]
    rfl
  | pair hunit hn hunit' hm =>
    simp only [List.cons_append, List.append_assoc, scanChar, scanEscape, scanUnit_pair hunit hn hunit' hm, bind,
      Except.bind]
    rfl

theorem SpellsChar.length_pos (h : SpellsChar piece c) : 0 < piece.length := by
  cases h <;> exact Nat.succ_pos _

theorem scanString_sound {steps : Nat} (h : scanString steps s = .ok (text, r)) :
    ∃ literal, Denotes literal text ∧ s = literal ++ '"' :: r := by
  induction steps generalizing s text with
  | zero => cases h
  | succ steps ih =>
    obtain ⟨⟨next, s'⟩, hchar, h⟩ := bind_eq_ok_iff.1 h
    cases next with
    | none =>
      cases h
      exact ⟨[], .nil, scanChar_none hchar⟩
    | some c =>
      obtain ⟨⟨cs, r'⟩, hrest, h⟩ := bind_eq_ok_iff.1 h
      cases h
      obtain ⟨piece, hpiece, rfl⟩ := scanChar_sound hchar
      obtain ⟨literal, hliteral, rfl⟩ := ih hrest
      exact ⟨_, .cons hpiece hliteral, by simp⟩

theorem scanString_complete (h : Denotes literal text) (rest : List Char) {steps : Nat}
    (hsteps : literal.length < steps) :
    scanString steps (literal ++ '"' :: rest) = .ok (text, rest) := by
  induction h generalizing steps with
  | nil =>
    obtain ⟨steps, rfl⟩ := Nat.exists_eq_succ_of_ne_zero (Nat.ne_of_gt hsteps)
    rfl
  | cons hc _ ih =>
    have hpos := hc.length_pos
    rw [List.length_append] at hsteps
    obtain ⟨steps, rfl⟩ := Nat.exists_eq_succ_of_ne_zero (Nat.ne_zero_of_lt hsteps)
    rw [List.append_assoc, scanString, scanChar_complete hc]
    simp only [bind, Except.bind, ih (show _ < steps by omega)]
    rfl

/-- A literal denotes one text at most. -/
theorem Denotes.unique {text' : List Char} (h : Denotes literal text) (h' : Denotes literal text') : text = text' := by
  have hscan := scanString_complete h [] (Nat.lt_succ_self _)
  have hscan' := scanString_complete h' [] (Nat.lt_succ_self _)
  rw [hscan] at hscan'
  cases hscan'
  rfl

/-! What is written for a text denotes it -/

theorem hexValue?_hexDigit : ∀ n, n < 16 → hexValue? (hexDigit n) = some n := by decide

/-- Two hexadecimal digits behind two zeros. -/
theorem spellsUnit_hexDigit (h : n < 0x20) : SpellsUnit ['0', '0', hexDigit (n / 16), hexDigit (n % 16)] n := by
  have hzero : hexValue? '0' = some 0 := by decide
  have hunit := SpellsUnit.mk hzero hzero (hexValue?_hexDigit (n / 16) (by omega))
    (hexValue?_hexDigit (n % 16) (by omega))
  rwa [show ((0 * 16 + 0) * 16 + n / 16) * 16 + n % 16 = n by omega] at hunit

theorem spellsChar_escape (c : Char) : SpellsChar (escape c) c := by
  simp only [escape]
  -- the quote, the backslash and the five short forms come first
  iterate 7 (split; · subst c; exact .escape (by decide))
  split
  · rename_i hc
    have hchar := SpellsChar.unit (spellsUnit_hexDigit hc) (by omega)
    rwa [Char.ofNat_toNat] at hchar
  · rename_i hquote hslash _ _ _ _ _ hc
    exact .plain ⟨hquote, hslash, Nat.le_of_not_lt hc⟩

theorem denotes_escape (text : List Char) : Denotes (text.flatMap escape) text := by
  induction text with
  | nil => exact .nil
  | cons c text ih =>
    rw [List.flatMap_cons]
    exact .cons (spellsChar_escape c) ih

/-! Strings of any kind -/

theorem IsString.append {literal' : List Char} (h : IsString literal) (h' : IsString literal') :
    IsString (literal ++ literal') := by
  induction h with
  | nil => exact h'
  | cons hp _ ih =>
    rw [List.append_assoc]
    exact .cons hp ih

theorem IsPiece.isString (h : IsPiece piece) : IsString piece := by
  have hstring := IsString.cons h .nil
  rwa [List.append_nil] at hstring

theorem SpellsChar.isString (h : SpellsChar piece c) : IsString piece := by
  cases h with
  | plain h => exact (IsPiece.plain h).isString
  | escape h => exact (IsPiece.escape h).isString
  | unit h => exact (IsPiece.unit h).isString
  | pair h _ h' => exact (IsPiece.unit h).isString.append (IsPiece.unit h').isString

theorem Denotes.isString (h : Denotes literal text) : IsString literal := by
  induction h with
  | nil => exact .nil
  | cons hc _ ih => exact hc.isString.append ih

theorem skipEscape_sound (h : skipEscape s = .ok r) : ∃ piece, IsPiece ('\\' :: piece) ∧ s = piece ++ r := by
  unfold skipEscape at h
  split at h
  · cases h
  · obtain ⟨⟨n, r'⟩, hhex, h⟩ := bind_eq_ok_iff.1 h
    cases h
    obtain ⟨quad, hquad, rfl⟩ := scanHex_sound hhex
    exact ⟨_, .unit hquad, rfl⟩
  · rename_i e r' _
    split at h
    · rename_i he
      cases h
      have hall : ∀ e ∈ ['"', '\\', '/', 'b', 'f', 'n', 'r', 't'], ∃ c, (e, c) ∈ escapes := by simp [escapes]
      obtain ⟨c, hc⟩ := hall e he
      exact ⟨[e], .escape hc, rfl⟩
    · cases h

theorem skipString_sound {steps : Nat} (h : skipString steps s = .ok r) :
    ∃ literal, IsString literal ∧ s = literal ++ '"' :: r := by
  induction steps generalizing s with
  | zero => cases h
  | succ steps ih =>
    unfold skipString at h
    split at h
    · cases h
    · cases h
      exact ⟨[], .nil, rfl⟩
    · obtain ⟨r', hescape, hrest⟩ := bind_eq_ok_iff.1 h
      obtain ⟨piece, hpiece, rfl⟩ := skipEscape_sound hescape
      obtain ⟨literal, hliteral, rfl⟩ := ih hrest
      exact ⟨_, .cons hpiece hliteral, by simp⟩
    · rename_i hquote hslash
      split at h
      · cases h
      · rename_i hcontrol
        obtain ⟨literal, hliteral, rfl⟩ := ih h
        exact ⟨_, .cons (.plain ⟨hquote, hslash, Nat.le_of_not_lt hcontrol⟩) hliteral, rfl⟩

/-- One piece is passed over in one step. -/
theorem skipString_piece (h : IsPiece piece) (steps : Nat) :
    skipString (steps + 1) (piece ++ rest) = skipString steps rest := by
  cases h with
  | plain hplain =>
    obtain ⟨hquote, hslash, hcontrol⟩ := hplain
    rw [List.singleton_append, skipString]
    · exact if_neg (Nat.not_lt.2 hcontrol)
    · exact hquote
    · exact hslash
  | escape he =>
    have hall : ∀ p ∈ escapes, skipEscape (p.1 :: rest) = .ok rest := by simp [escapes, skipEscape]
    simp only [List.cons_append, List.nil_append, skipString, hall _ he, bind, Except.bind]
  | unit hunit =>
    simp only [List.cons_append, skipString, skipEscape, scanHex_complete hunit, bind, Except.bind, pure, Except.pure]

theorem IsPiece.length_pos (h : IsPiece piece) : 0 < piece.length := by
  cases h <;> exact Nat.succ_pos _

theorem skipString_complete (h : IsString literal) {steps : Nat} (hsteps : literal.length < steps) :
    skipString steps (literal ++ '"' :: rest) = .ok rest := by
  induction h generalizing steps with
  | nil =>
    obtain ⟨steps, rfl⟩ := Nat.exists_eq_succ_of_ne_zero (Nat.ne_of_gt hsteps)
    rfl
  | cons hp _ ih =>
    have hpos := hp.length_pos
    rw [List.length_append] at hsteps
    obtain ⟨steps, rfl⟩ := Nat.exists_eq_succ_of_ne_zero (Nat.ne_zero_of_lt hsteps)
    rw [List.append_assoc, skipString_piece hp]
    exact ih (by omega)

end ProtoLink.Json
