import ProtoLink.Proofs.Json.Grammar

/-! Numbers are read by their grammar, as far as it goes; and which literals are read as integers. -/
namespace ProtoLink.Json

variable {s r rest ds : List Char}

theorem bind_eq_ok_iff {ε α β : Type} {x : Except ε α} {f : α → Except ε β} {b : β} :
    x >>= f = .ok b ↔ ∃ a, x = .ok a ∧ f a = .ok b := by
  cases x with
  | error e => simp [bind, Except.bind]
  | ok a => simp [bind, Except.bind]

/-- Digits end here. -/
def EndsDigits (rest : List Char) : Prop := ∀ c ∈ rest.head?, c.isDigit = false

/-- A number ends here: there is no digit, and no part of it begins. -/
def EndsNumber (rest : List Char) : Prop := ∀ c ∈ rest.head?, c.isDigit = false ∧ c ≠ '.' ∧ c ≠ 'e' ∧ c ≠ 'E'

theorem EndsNumber.endsDigits (h : EndsNumber rest) : EndsDigits rest := fun c hc => (h c hc).1

theorem takeWhile_digits (hds : ∀ d ∈ ds, d.isDigit = true) (h : EndsDigits rest) :
    (ds ++ rest).takeWhile Char.isDigit = ds := by
  rw [List.takeWhile_append_of_pos hds]
  cases rest with
  | nil => simp
  | cons c r => simp [h c rfl]

theorem dropWhile_digits (hds : ∀ d ∈ ds, d.isDigit = true) (h : EndsDigits rest) :
    (ds ++ rest).dropWhile Char.isDigit = rest := by
  rw [List.dropWhile_append_of_pos hds]
  cases rest with
  | nil => simp
  | cons c r => simp [h c rfl]

theorem areDigits_takeWhile {c : Char} (hc : c.isDigit = true) : AreDigits ((c :: r).takeWhile Char.isDigit) := by
  refine ⟨by simp [hc], fun d hd => ?_⟩
  exact List.all_eq_true.1 List.all_takeWhile d hd

theorem AreDigits.exists_cons (h : AreDigits ds) : ∃ c cs, ds = c :: cs ∧ c.isDigit = true := by
  obtain ⟨c, cs, rfl⟩ := List.exists_cons_of_ne_nil h.1
  exact ⟨c, cs, rfl, h.2 c List.mem_cons_self⟩

namespace Numeral

variable {atEnd : Cause} {negative : Bool} {n : Numeral}

/-- The fraction of a literal, if a point stands next. -/
def scanFraction? (atEnd : Cause) : List Char → Except Fault (Option (List Char) × List Char)
  | '.' :: r => do
    let (ds, r) ← scanFraction atEnd r
    pure (some ds, r)
  | s => pure (none, s)

/-- The exponent of a literal, if its letter stands next. -/
def scanExponent? (atEnd : Cause) : List Char → Except Fault (Option (Bool × List Char) × List Char)
  | 'e' :: r => do
    let (e, r) ← scanExponent atEnd r
    pure (some e, r)
  | 'E' :: r => do
    let (e, r) ← scanExponent atEnd r
    pure (some e, r)
  | s => pure (none, s)

/-- A literal is read part by part. -/
theorem scan_eq (atEnd : Cause) (negative : Bool) (s : List Char) :
    scan atEnd negative s = (do
      let (whole, s) ← scanWhole atEnd s
      let (fraction, s) ← scanFraction? atEnd s
      let (exponent, s) ← scanExponent? atEnd s
      pure (⟨negative, whole, fraction, exponent⟩, s)) := by
  unfold scan
  congr 1
  funext p
  obtain ⟨whole, s⟩ := p
  simp only [scanFraction?]
  split
  · simp only [bind_assoc, pure_bind]
    congr 1
    funext p
    generalize p.2 = s
    fun_cases scanExponent? atEnd s <;> simp
  · rename_i s _ _
    simp only [pure_bind]
    fun_cases scanExponent? atEnd s <;> simp

/-! Each part: what is read is spelled by what is taken off, and what is spelled is read. -/

theorem scanWhole_sound {whole : List Char} (h : scanWhole atEnd s = .ok (whole, r)) :
    AreWhole whole ∧ s = whole ++ r := by
  rw [scanWhole.eq_def] at h
  split at h
  · cases h
  · split at h
    · cases h
    · cases h
      have hzero : ∀ d ∈ ['0'], d.isDigit = true := List.forall_mem_singleton.2 rfl
      exact ⟨⟨⟨by simp, hzero⟩, fun _ => rfl⟩, rfl⟩
  · rename_i c r' hzero
    split at h
    · rename_i hc
      cases h
      refine ⟨⟨areDigits_takeWhile hc, fun hhead => ?_⟩, (List.takeWhile_append_dropWhile).symm⟩
      -- a zero that is not followed by anything
      obtain rfl : c = '0' := by simpa [hc] using hhead
      cases r' with
      | nil => rfl
      | cons c' r' => exact (hzero c' r' rfl rfl).elim
    · cases h

theorem scanWhole_complete {whole : List Char} (hw : AreWhole whole) (h : EndsDigits rest) :
    scanWhole atEnd (whole ++ rest) = .ok (whole, rest) := by
  obtain ⟨c, cs, rfl, hc⟩ := hw.1.exists_cons
  have htake := takeWhile_digits hw.1.2 h
  have hdrop := dropWhile_digits hw.1.2 h
  rw [List.cons_append] at htake hdrop ⊢
  rw [scanWhole.eq_def]
  split
  · contradiction
  · rename_i heq
    obtain ⟨rfl, hcs⟩ := List.cons.inj heq
    obtain rfl : cs = [] := (List.cons.inj (hw.2 rfl)).2
    obtain rfl : rest = _ := hcs
    rw [if_neg (by simp [h _ rfl])]
  · rename_i heq
    cases heq
    rw [if_pos hc, htake, hdrop]

theorem scanFraction_sound (h : scanFraction atEnd s = .ok (ds, r)) : AreDigits ds ∧ s = ds ++ r := by
  unfold scanFraction at h
  split at h
  · cases h
  · split at h
    · rename_i hc
      cases h
      exact ⟨areDigits_takeWhile hc, (List.takeWhile_append_dropWhile).symm⟩
    · cases h

theorem scanFraction_complete (hds : AreDigits ds) (h : EndsDigits rest) :
    scanFraction atEnd (ds ++ rest) = .ok (ds, rest) := by
  obtain ⟨c, cs, rfl, hc⟩ := hds.exists_cons
  have htake := takeWhile_digits hds.2 h
  have hdrop := dropWhile_digits hds.2 h
  rw [List.cons_append] at htake hdrop ⊢
  rw [scanFraction, if_pos hc, htake, hdrop]

theorem scanFraction?_sound {fraction : Option (List Char)} (h : scanFraction? atEnd s = .ok (fraction, r)) :
    ∃ text, SpellsFraction fraction text ∧ s = text ++ r := by
  unfold scanFraction? at h
  split at h
  · obtain ⟨⟨ds, r'⟩, hds, h⟩ := bind_eq_ok_iff.1 h
    cases h
    obtain ⟨hdigits, rfl⟩ := scanFraction_sound hds
    exact ⟨_, .some hdigits, rfl⟩
  · cases h
    exact ⟨[], .none, rfl⟩

theorem scanFraction?_complete {fraction : Option (List Char)} {text : List Char}
    (hf : SpellsFraction fraction text) (h : EndsDigits rest) (hpoint : '.' ∉ rest.head?) :
    scanFraction? atEnd (text ++ rest) = .ok (fraction, rest) := by
  cases hf with
  | none =>
    rw [List.nil_append]
    unfold scanFraction?
    split
    · exact (hpoint rfl).elim
    · rfl
  | some hds =>
    rw [List.cons_append, scanFraction?, scanFraction_complete hds h]
    rfl

/-- Behind its sign an exponent is read like a fraction. -/
theorem exists_scanExponent_eq (atEnd : Cause) (s : List Char) :
    ∃ negative sign r, SpellsSign negative sign ∧ s = sign ++ r ∧
      scanExponent atEnd s = (scanFraction atEnd r).map fun p => ((negative, p.1), p.2) := by
  unfold scanExponent
  split
  rename_i negative r hmatch
  obtain ⟨sign, hsign, hs⟩ : ∃ sign, SpellsSign negative sign ∧ s = sign ++ r := by
    split at hmatch <;> cases hmatch
    · exact ⟨['+'], .plus, rfl⟩
    · exact ⟨['-'], .minus, rfl⟩
    · exact ⟨[], .none, rfl⟩
  refine ⟨negative, sign, r, hsign, hs, ?_⟩
  cases r with
  | nil => rfl
  | cons c r => by_cases hc : c.isDigit = true <;> simp [scanFraction, hc, Except.map]

theorem scanExponent_sound {e : Bool × List Char} (h : scanExponent atEnd s = .ok (e, r)) :
    AreDigits e.2 ∧ ∃ sign, SpellsSign e.1 sign ∧ s = sign ++ (e.2 ++ r) := by
  obtain ⟨negative, sign, s, hsign, rfl, heq⟩ := exists_scanExponent_eq atEnd s
  rw [heq] at h
  cases hscan : scanFraction atEnd s with
  | error fault =>
    rw [hscan] at h
    cases h
  | ok p =>
    rw [hscan] at h
    cases h
    obtain ⟨hdigits, rfl⟩ := scanFraction_sound hscan
    exact ⟨hdigits, sign, hsign, rfl⟩

theorem scanExponent_complete {sign : List Char} (hsign : SpellsSign negative sign) (hds : AreDigits ds)
    (h : EndsDigits rest) : scanExponent atEnd (sign ++ (ds ++ rest)) = .ok ((negative, ds), rest) := by
  obtain ⟨c, cs, rfl, hc⟩ := hds.exists_cons
  have htake := takeWhile_digits hds.2 h
  have hdrop := dropWhile_digits hds.2 h
  rw [List.cons_append] at htake hdrop ⊢
  cases hsign with
  | none =>
    have hplus : c ≠ '+' := by rintro rfl; exact absurd hc (by decide)
    have hminus : c ≠ '-' := by rintro rfl; exact absurd hc (by decide)
    simp [scanExponent, hplus, hminus, hc, htake, hdrop]
  | plus => simp [scanExponent, hc, htake, hdrop]
  | minus => simp [scanExponent, hc, htake, hdrop]

theorem scanExponent?_sound {exponent : Option (Bool × List Char)}
    (h : scanExponent? atEnd s = .ok (exponent, r)) : ∃ text, SpellsExponent exponent text ∧ s = text ++ r := by
  have hletter : ∀ {c : Char} {s : List Char}, c = 'e' ∨ c = 'E' →
      (scanExponent atEnd s >>= fun p => pure (some p.1, p.2)) = .ok (exponent, r) →
      ∃ text, SpellsExponent exponent text ∧ c :: s = text ++ r := by
    intro c s hc h
    obtain ⟨⟨e, r'⟩, he, h⟩ := bind_eq_ok_iff.1 h
    cases h
    obtain ⟨hdigits, sign, hsign, rfl⟩ := scanExponent_sound he
    exact ⟨_, .some hc hsign hdigits, by simp⟩
  unfold scanExponent? at h
  split at h
  · exact hletter (Or.inl rfl) h
  · exact hletter (Or.inr rfl) h
  · cases h
    exact ⟨[], .none, rfl⟩

theorem scanExponent?_complete {exponent : Option (Bool × List Char)} {text : List Char}
    (he : SpellsExponent exponent text) (h : EndsNumber rest) :
    scanExponent? atEnd (text ++ rest) = .ok (exponent, rest) := by
  cases he with
  | none =>
    rw [List.nil_append]
    unfold scanExponent?
    split
    · exact ((h _ rfl).2.2.1 rfl).elim
    · exact ((h _ rfl).2.2.2 rfl).elim
    · rfl
  | some hletter hsign hds =>
    rw [List.cons_append, List.append_assoc]
    obtain rfl | rfl := hletter
    · rw [scanExponent?, scanExponent_complete hsign hds h.endsDigits]
      rfl
    · rw [scanExponent?, scanExponent_complete hsign hds h.endsDigits]
      rfl

/-- Behind the digits of a number stands no digit, whatever parts of it there are. -/
theorem endsDigits_exponent {exponent : Option (Bool × List Char)} {text : List Char}
    (he : SpellsExponent exponent text) (h : EndsNumber rest) :
    EndsDigits (text ++ rest) ∧ '.' ∉ (text ++ rest).head? := by
  cases he with
  | none => exact ⟨h.endsDigits, fun hpoint => (h _ hpoint).2.1 rfl⟩
  | some hletter =>
    obtain rfl | rfl := hletter
    · exact ⟨by rintro c ⟨⟩; decide, by simp⟩
    · exact ⟨by rintro c ⟨⟩; decide, by simp⟩

theorem endsDigits_fraction {fraction : Option (List Char)} {text : List Char}
    (hf : SpellsFraction fraction text) (h : EndsDigits rest) : EndsDigits (text ++ rest) := by
  cases hf with
  | none => exact h
  | some =>
    rintro c ⟨⟩
    decide

theorem scan_sound (h : scan atEnd negative s = .ok (n, r)) :
    n.negative = negative ∧ ∃ text, SpellsUnsigned n text ∧ s = text ++ r := by
  rw [scan_eq] at h
  obtain ⟨⟨whole, s₁⟩, hwhole, h⟩ := bind_eq_ok_iff.1 h
  obtain ⟨⟨fraction, s₂⟩, hfraction, h⟩ := bind_eq_ok_iff.1 h
  obtain ⟨⟨exponent, s₃⟩, hexponent, h⟩ := bind_eq_ok_iff.1 h
  cases h
  obtain ⟨hw, rfl⟩ := scanWhole_sound hwhole
  obtain ⟨ft, hft, rfl⟩ := scanFraction?_sound hfraction
  obtain ⟨et, het, rfl⟩ := scanExponent?_sound hexponent
  exact ⟨rfl, _, .mk hw hft het, by simp⟩

theorem scan_complete {text : List Char} (hn : SpellsUnsigned n text) (h : EndsNumber rest) :
    scan atEnd n.negative (text ++ rest) = .ok (n, rest) := by
  cases hn with
  | mk hw hf he =>
    obtain ⟨hexponent, hpoint⟩ := endsDigits_exponent he h
    rw [scan_eq, List.append_assoc, List.append_assoc, scanWhole_complete hw (endsDigits_fraction hf hexponent)]
    simp only [bind, Except.bind, scanFraction?_complete hf hexponent hpoint, scanExponent?_complete he h]
    rfl

end Numeral
end ProtoLink.Json
