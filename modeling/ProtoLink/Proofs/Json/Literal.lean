import ProtoLink.Proofs.Json.Number

/-! A 64-bit integer is read as what it was written for, and no other literal is read as an integer. -/
namespace ProtoLink.Json

variable {rest : List Char}

theorem isDigit_of_mem_digits {n : Nat} {c : Char} (h : c ∈ digits n) : c.isDigit = true :=
  Nat.isDigit_of_mem_toDigits (by decide) (by decide) h

theorem digits_ne_nil (n : Nat) : digits n ≠ [] := Nat.toDigits_ne_nil

theorem digits_zero : digits 0 = ['0'] := Nat.toDigits_zero 10

theorem digitChar_ne_zero : ∀ n, n < 10 → n ≠ 0 → Nat.digitChar n ≠ '0' := by decide

/-- The digits of a positive number do not start with zero. -/
theorem exists_digits_cons {n : Nat} (h : 0 < n) : ∃ c cs, digits n = c :: cs ∧ c ≠ '0' := by
  induction n using Nat.strongRecOn with
  | _ n ih =>
    by_cases hn : n < 10
    · exact ⟨_, _, Nat.toDigits_of_lt_base hn, digitChar_ne_zero n hn (by omega)⟩
    · obtain ⟨c, cs, hd, hc⟩ := ih (n / 10) (by omega) (by omega)
      refine ⟨c, cs ++ [Nat.digitChar (n % 10)], ?_, hc⟩
      have hsplit := Nat.toDigits_of_base_le (b := 10) (n := n) (by decide) (by omega)
      rw [digits, hsplit]
      rw [digits] at hd
      rw [hd]
      rfl

theorem areWhole_digits (n : Nat) : AreWhole (digits n) := by
  refine ⟨⟨digits_ne_nil n, fun d hd => isDigit_of_mem_digits hd⟩, fun hhead => ?_⟩
  by_cases hn : n = 0
  · rw [hn, digits_zero]
  · obtain ⟨c, cs, hd, hc⟩ := exists_digits_cons (Nat.pos_of_ne_zero hn)
    rw [hd] at hhead
    exact (hc (Option.some.inj hhead)).elim

namespace Numeral

/-- A plain integer has neither fraction nor exponent. -/
theorem spellsUnsigned_digits (negative : Bool) (n : Nat) :
    SpellsUnsigned { negative, whole := digits n } (digits n) := by
  have hspells : SpellsUnsigned { negative, whole := digits n } (digits n ++ ([] ++ [])) :=
    .mk (areWhole_digits n) .none .none
  rwa [List.append_nil, List.append_nil] at hspells

theorem scan_digits (atEnd : Cause) (negative : Bool) (h : EndsNumber rest) (n : Nat) :
    scan atEnd negative (digits n ++ rest) = .ok ({ negative, whole := digits n }, rest) :=
  scan_complete (spellsUnsigned_digits negative n) h

/-- Digits are taken in up to the last if the number that they make fits. -/
theorem absorb_of_lt (ds : List Char) (n : Nat) (h : Nat.ofDigitChars 10 ds n < 0x10000000000000000) :
    absorb n ds = (Nat.ofDigitChars 10 ds n, []) := by
  induction ds generalizing n with
  | nil => simp [absorb]
  | cons d ds ih =>
    have hstep : Nat.ofDigitChars 10 (d :: ds) n = Nat.ofDigitChars 10 ds (n * 10 + digitValue d) := by
      rw [Nat.ofDigitChars_cons, Nat.mul_comm]
      rfl
    rw [hstep] at h ⊢
    have hle : n * 10 + digitValue d ≤ Nat.ofDigitChars 10 ds (n * 10 + digitValue d) := by
      rw [Nat.ofDigitChars_eq_ofDigitChars_zero]
      have hpos : 0 < 10 ^ ds.length := Nat.pow_pos (by decide)
      have hle := Nat.le_mul_of_pos_left (n * 10 + digitValue d) hpos
      omega
    rw [absorb, if_pos (by omega), ih _ h]

theorem absorb_digits {n : Nat} (h : n < 0x10000000000000000) : absorb 0 (digits n) = (n, []) := by
  have hn : Nat.ofDigitChars 10 (digits n) 0 = n := Nat.ofDigitChars_ten_toDigits
  rw [absorb_of_lt _ _ (by rwa [hn]), hn]

/-- A plain integer has its value if it fits into 64 bits. Minus zero is none. -/
theorem value_digits {negative : Bool} {n : Nat} (hn : n < 0x10000000000000000)
    (hneg : negative = true → 0 < n ∧ n ≤ 0x8000000000000000) :
    value { negative, whole := digits n } rest = .ok (.integer (if negative then -n else n)) := by
  have hfits : (!negative || (decide (0 < n) && decide (n ≤ 0x8000000000000000))) = true := by
    cases negative with
    | false => rfl
    | true =>
      have h := hneg rfl
      rw [decide_eq_true h.1, decide_eq_true h.2]
      rfl
  simp only [value, absorb_digits hn]
  rw [if_pos]
  simpa using hfits

end Numeral

theorem scanNumber_digits (h : EndsNumber rest) {negative : Bool} {n : Nat} (hn : n < 0x10000000000000000)
    (hneg : negative = true → 0 < n ∧ n ≤ 0x8000000000000000) :
    scanNumber negative (digits n ++ rest) = .ok (.integer (if negative then -n else n), rest) := by
  simp only [scanNumber, Numeral.scan_digits _ _ h, Numeral.value_digits hn hneg, bind, Except.bind, pure,
    Except.pure]

/-! What is read as an integer -/

theorem digitChar_digitValue {c : Char} (hc : c.isDigit = true) :
    Numeral.digitValue c < 10 ∧ Nat.digitChar (Numeral.digitValue c) = c := by
  have hrange : 48 ≤ c.toNat ∧ c.toNat ≤ 57 := by
    simpa [Char.isDigit, Char.le_def, UInt32.le_iff_toNat_le] using hc
  have hall : ∀ n, 48 ≤ n ∧ n ≤ 57 → n - 48 < 10 ∧ Nat.digitChar (n - 48) = Char.ofNat n := by
    intro n hn
    obtain ⟨k, rfl⟩ := Nat.exists_eq_add_of_le hn.1
    have hk : k < 10 := by omega
    rw [Nat.add_sub_cancel_left]
    exact ⟨hk, (by decide : ∀ k, k < 10 → Nat.digitChar k = Char.ofNat (48 + k)) k hk⟩
  obtain ⟨hlt, heq⟩ := hall c.toNat hrange
  rw [Char.ofNat_toNat] at heq
  exact ⟨hlt, heq⟩

/-- Digits that are put behind those of a positive number are its last ones. -/
theorem digits_ofDigitChars {ds : List Char} (hds : ∀ d ∈ ds, d.isDigit = true) {n : Nat} (hn : 0 < n) :
    digits (Nat.ofDigitChars 10 ds n) = digits n ++ ds := by
  induction ds generalizing n with
  | nil => simp
  | cons d ds ih =>
    rw [List.forall_mem_cons] at hds
    obtain ⟨hlt, hchar⟩ := digitChar_digitValue hds.1
    have hstep : digits (10 * n + Numeral.digitValue d) = digits n ++ [d] := by
      rw [digits, ← Nat.toDigits_append_toDigits (by decide) hn hlt, Nat.toDigits_of_lt_base hlt, hchar]
      rfl
    rw [Nat.ofDigitChars_cons, ih hds.2 (by omega)]
    change digits (10 * n + Numeral.digitValue d) ++ ds = _
    rw [hstep, List.append_assoc, List.singleton_append]

/-- The digits of a number without leading zeros are those of its value. -/
theorem digits_whole {ds : List Char} (h : AreWhole ds) : digits (Nat.ofDigitChars 10 ds 0) = ds := by
  obtain ⟨c, cs, rfl, hc⟩ := h.1.exists_cons
  obtain ⟨hlt, hchar⟩ := digitChar_digitValue hc
  by_cases hzero : c = '0'
  · subst c
    obtain rfl : cs = [] := (List.cons.inj (h.2 rfl)).2
    decide
  · have hpos : 0 < Numeral.digitValue c := by
      apply Nat.pos_of_ne_zero
      intro hv
      rw [hv] at hchar
      exact hzero hchar.symm
    rw [Nat.ofDigitChars_cons]
    change digits (Nat.ofDigitChars 10 cs (10 * 0 + Numeral.digitValue c)) = _
    rw [Nat.mul_zero, Nat.zero_add, digits_ofDigitChars (fun d hd => h.1.2 d (List.mem_cons_of_mem _ hd)) hpos,
      digits, Nat.toDigits_of_lt_base hlt, hchar, List.singleton_append]

namespace Numeral

theorem absorb_eq_nil {ds : List Char} {n m : Nat} (h : absorb n ds = (m, [])) : m = Nat.ofDigitChars 10 ds n := by
  induction ds generalizing n with
  | nil =>
    cases h
    rfl
  | cons d ds ih =>
    rw [absorb] at h
    split at h
    · rw [ih h, Nat.ofDigitChars_cons, Nat.mul_comm 10 n]
      rfl
    · cases h

theorem real_ne_integer {negative : Bool} {significand : Nat} {e v : Int} :
    real negative significand e rest ≠ .ok (.integer v) := by
  unfold real
  split <;> simp

/-- Only a literal without fraction and exponent is an integer, and it is the literal of that integer. -/
theorem ofInt_of_value {n : Numeral} {v : Int} (hw : AreWhole n.whole) (h : value n rest = .ok (.integer v)) :
    n.fraction = none ∧ n.exponent = none ∧
      ofInt v = .number (if n.negative then '-' :: n.whole else n.whole) := by
  unfold value at h
  cases habsorb : absorb 0 n.whole with
  | mk significand left =>
  rw [habsorb] at h
  simp only at h
  split at h
  · rename_i hplain
    simp only [Bool.and_eq_true, decide_eq_true_eq, Bool.or_eq_true, Bool.not_eq_true', and_assoc] at hplain
    obtain ⟨rfl, hf, he, hsign⟩ := hplain
    obtain rfl := absorb_eq_nil habsorb
    have hdigits := digits_whole hw
    refine ⟨hf, he, ?_⟩
    cases h
    cases hneg : n.negative with
    | false =>
      simp only [Bool.false_eq_true, if_false]
      exact congrArg Json.number hdigits
    | true =>
      have hpos : 0 < Nat.ofDigitChars 10 n.whole 0 := (hsign.resolve_left (by simp [hneg])).1
      obtain ⟨k, hk⟩ := Nat.exists_eq_succ_of_ne_zero (Nat.ne_of_gt hpos)
      rw [hk] at hdigits
      simp only [if_true, hk]
      exact congrArg (fun ds => Json.number ('-' :: ds)) hdigits
  · split at h
    · exact (real_ne_integer h).elim
    · split at h
      · exact (real_ne_integer h).elim
      · split at h <;> cases h

end Numeral

theorem scanNumber_integer {negative : Bool} {s r : List Char} {v : Int}
    (h : scanNumber negative s = .ok (.integer v, r)) :
    ∃ whole, AreWhole whole ∧ s = whole ++ r ∧ ofInt v = .number (if negative then '-' :: whole else whole) := by
  obtain ⟨⟨n, r'⟩, hscan, h⟩ := bind_eq_ok_iff.1 h
  obtain ⟨value, hvalue, h⟩ := bind_eq_ok_iff.1 h
  cases h
  obtain ⟨rfl, text, htext, rfl⟩ := Numeral.scan_sound hscan
  cases htext with
  | mk hw hf he =>
    obtain ⟨hfraction, hexponent, hv⟩ := Numeral.ofInt_of_value hw hvalue
    rw [hfraction] at hf
    rw [hexponent] at he
    cases hf
    cases he
    exact ⟨n.whole, hw, by simp, hv⟩

theorem isNumber_of_ofInt {v : Int} {literal : List Char} (h : ofInt v = .number literal) : IsNumber literal := by
  cases v with
  | ofNat n =>
    cases h
    exact ⟨_, _, Numeral.spellsUnsigned_digits false n, rfl⟩
  | negSucc n =>
    cases h
    exact ⟨_, _, Numeral.spellsUnsigned_digits true (n + 1), rfl⟩

end ProtoLink.Json
