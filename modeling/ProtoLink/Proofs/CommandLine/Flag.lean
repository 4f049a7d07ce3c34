import ProtoLink.CommandLine.Reader
import ProtoLink.Proofs.Json.Number

/-! The flag for strictness on a command line. It can be added behind the name of a command and taken out
wherever it stands, and nothing but the strictness of the command depends on it. -/
namespace ProtoLink.CommandLine

open Json (bind_eq_ok_iff)

theorem mapError_eq_ok_iff {ε ε' α : Type} {f : ε → ε'} {x : Except ε α} {a : α} :
    x.mapError f = .ok a ↔ x = .ok a := by
  constructor
  · intro h
    cases x with
    | error e => cases h
    | ok b =>
      cases h
      rfl
  · rintro rfl
    rfl

namespace Command

/-- The command with its flag for strictness as given. -/
def withStrict (strict : Bool) : Command → Command
  | .symbols c => .symbols { c with strict }
  | .resolve c => .resolve { c with strict }

def isStrict : Command → Bool
  | .symbols c => c.strict
  | .resolve c => c.strict

end Command

namespace Given

variable (g : Given) (strict : Bool)

/-- The same arguments with the flag for strictness as given. -/
def withStrict : Given := { g with strict }

theorem take_withStrict (a : Argument) (value : String) :
    (g.withStrict strict).take a value = (g.take a value).map fun g => g.withStrict strict := by
  cases a with
  | batch =>
    simp only [take, withStrict]
    cases once .batch g.batch? _ <;> rfl
  | file =>
    simp only [take, withStrict]
    cases once .file g.file? _ <;> rfl
  | imported =>
    simp only [take]
    cases import? value <;> rfl
  | parameter =>
    simp only [take, withStrict]
    cases once .parameter g.parameter? _ <;> rfl
  | position =>
    simp only [take, withStrict]
    cases once .position g.position? _ <;> rfl
  | colour =>
    simp only [take, withStrict]
    cases once .colour g.colour? _ <;> rfl
  | types | json | strict | help => rfl

theorem raise_withStrict {a : Argument} (ha : a ≠ .strict) :
    (g.withStrict strict).raise a = (g.raise a).map fun g => g.withStrict strict := by
  cases a with
  | strict => exact absurd rfl ha
  | json =>
    by_cases hjson : g.json = true
    · simp [raise, withStrict, hjson, Except.map]
    · simp [raise, withStrict, hjson, Except.map]
  | batch | types | file | imported | parameter | position | colour | help => rfl

theorem finish_withStrict (verb : Verb) :
    (g.withStrict strict).finish verb = (g.finish verb).map (Command.withStrict strict) := by
  cases verb with
  | symbols =>
    simp only [finish, withStrict]
    cases g.batch? <;> rfl
  | resolve =>
    simp only [finish, withStrict]
    cases g.batch? <;> cases g.file? <;> cases g.types <;> rfl

theorem finish_withStrict_of_ok {g : Given} {verb : Verb} {c : Command} (h : g.finish verb = .ok c) (strict : Bool) :
    (g.withStrict strict).finish verb = .ok (c.withStrict strict) := by
  rw [finish_withStrict, h]
  rfl

theorem isStrict_of_finish {g : Given} {verb : Verb} {c : Command} (h : g.finish verb = .ok c) :
    c.isStrict = g.strict := by
  have hsame := g.finish_withStrict g.strict verb
  have hg : g.withStrict g.strict = g := rfl
  rw [hg, h, Except.map, Except.ok.injEq] at hsame
  rw [hsame]
  cases c <;> rfl

end Given

namespace Reading

variable {verb : Verb} {r r' settled : Reading} {name text : String} {value? : Option String} {strict : Bool}

/-- Read so far, with the flag for strictness as given. -/
def withStrict (r : Reading) (strict : Bool) : Reading := { r with given := r.given.withStrict strict }

/-- The word raises the flag for strictness, or is refused. -/
def MeetsFlag (verb : Verb) (r : Reading) (text : String) : Prop :=
  r.literal = false ∧ ∃ name value?, Word.ofText text = .long name value? ∧ verb.option? name = some .strict

/-! Other words -/

theorem settle_withStrict (r : Reading) (strict : Bool) :
    (r.withStrict strict).settle = r.settle.map fun r => r.withStrict strict := by
  obtain ⟨given, pending, places, literal⟩ := r
  cases pending with
  | nothing => rfl
  | name a => rfl
  | value a text =>
    simp only [settle, withStrict, Given.take_withStrict]
    cases given.take a text <;> rfl

theorem fill_withStrict (r : Reading) (text : String) (strict : Bool) :
    (r.withStrict strict).fill text = (r.fill text).map fun r => r.withStrict strict := by
  have hplaces : (r.withStrict strict).places = r.places := rfl
  rw [fill, fill, hplaces, settle_withStrict]
  cases r.places with
  | nil => rfl
  | cons place rest =>
    cases r.settle with
    | error error => rfl
    | ok settled =>
      by_cases hplace : place = .types
      · subst hplace
        rfl
      · simp only [hplace]
        rfl

theorem mapError_fill_withStrict (r : Reading) (text : String) (strict : Bool) :
    ((r.withStrict strict).fill text).mapError Halt.usage =
      ((r.fill text).mapError Halt.usage).map fun r => r.withStrict strict := by
  rw [fill_withStrict]
  cases r.fill text <;> rfl

theorem store_withStrict (r : Reading) (given? : Except UsageError Given) (strict : Bool) :
    ((given?.map fun g => g.withStrict strict).mapError Halt.usage).map (fun given => { r with given }) =
      ((given?.mapError Halt.usage).map fun given => { r with given }).map fun r => r.withStrict strict := by
  cases given? <;> rfl

theorem readOption_withStrict (r : Reading) (strict : Bool) (h : verb.option? name ≠ some .strict) :
    (r.withStrict strict).readOption verb name value? =
      (r.readOption verb name value?).map fun r => r.withStrict strict := by
  rw [readOption, readOption, settle_withStrict]
  cases hoption : verb.option? name with
  | none => rfl
  | some a =>
    have ha : a ≠ .strict := fun hstrict => h (hstrict ▸ hoption)
    cases hflag : a.isFlag with
    | true =>
      cases value? with
      | some value => simp only [hflag]; rfl
      | none =>
        cases r.settle with
        | error error => simp only [hflag]; rfl
        | ok settled =>
          by_cases hhelp : a = .help
          · subst hhelp
            rfl
          · have hstored := settled.store_withStrict (settled.given.raise a) strict
            rw [← settled.given.raise_withStrict strict ha] at hstored
            simp only [hflag, hhelp]
            exact hstored
    | false =>
      cases value? with
      | none =>
        simp only [hflag]
        cases r.settle <;> rfl
      | some value =>
        simp only [hflag]
        cases r.settle with
        | error error => rfl
        | ok settled =>
          have hstored := settled.store_withStrict (settled.given.take a value) strict
          rw [← settled.given.take_withStrict] at hstored
          exact hstored

/-- A word that is not the flag does not look at it either. -/
theorem read_withStrict (strict : Bool) (h : ¬ r.MeetsFlag verb text) :
    (r.withStrict strict).read verb text = (r.read verb text).map fun r => r.withStrict strict := by
  have hliteral : (r.withStrict strict).literal = r.literal := rfl
  have hpending : (r.withStrict strict).pending = r.pending := rfl
  rw [read, read, hliteral, hpending, settle_withStrict]
  cases hlit : r.literal with
  | true => exact r.mapError_fill_withStrict text strict
  | false =>
    simp only [Bool.false_eq_true, if_false]
    split
    · rfl
    · rename_i name value? hword
      have hother : verb.option? name ≠ some .strict := fun hoption => h ⟨hlit, name, value?, hword, hoption⟩
      exact r.readOption_withStrict strict hother
    · cases r.settle <;> rfl
    · rfl
    · cases r.pending with
      | name a => rfl
      | nothing | value a text => exact r.mapError_fill_withStrict _ strict

/-- What does not look at the flag leaves it as it was. -/
theorem strict_of_map_eq {ε : Type} {x : Except ε Reading} (h : x = .ok r')
    (hsame : x = x.map fun r => r.withStrict strict) : r'.given.strict = strict := by
  rw [h, Except.map, Except.ok.injEq] at hsame
  rw [hsame]
  rfl

theorem strict_of_read (hflag : ¬ r.MeetsFlag verb text) (h : r.read verb text = .ok r') :
    r'.given.strict = r.given.strict :=
  strict_of_map_eq h (read_withStrict r.given.strict hflag)

theorem strict_of_settle (h : r.settle = .ok settled) : settled.given.strict = r.given.strict :=
  strict_of_map_eq h (r.settle_withStrict r.given.strict)

theorem settle_withStrict_of_ok (h : r.settle = .ok settled) (strict : Bool) :
    (r.withStrict strict).settle = .ok (settled.withStrict strict) := by
  rw [settle_withStrict, h]
  rfl

/-! The flag itself -/

theorem eq_of_ofText_eq_long (h : Word.ofText text = .long name none) : text = "--" ++ name := by
  rw [Word.ofText] at h
  split at h
  · cases h
  · rename_i body _ hbody
    cases hsplit : Text.splitOnce '=' body with
    | some parts =>
      rw [hsplit] at h
      cases h
    | none =>
      rw [hsplit] at h
      cases h
      apply String.toList_injective
      simp [hbody]
  · cases h
  · cases h

/-- The flag settles what is pending and is raised, unless it was raised before. -/
theorem read_flag (hflag : r.MeetsFlag verb text) (h : r.read verb text = .ok r') :
    text = "--strict" ∧ r.given.strict = false ∧
      ∃ settled, r.settle = .ok settled ∧ r' = settled.withStrict true := by
  obtain ⟨hliteral, name, value?, hword, hoption⟩ := hflag
  have hname : name = "strict" := by
    have hfound := List.find?_some hoption
    simpa [Argument.option?, eq_comm] using hfound
  rw [read, hliteral, hword] at h
  simp only [Bool.false_eq_true, if_false, readOption, hoption] at h
  cases value? with
  | some value => cases h
  | none =>
    obtain ⟨settled, hsettle, h⟩ := bind_eq_ok_iff.1 h
    obtain ⟨given, hgiven, h⟩ := bind_eq_ok_iff.1 h
    cases h
    rw [mapError_eq_ok_iff] at hsettle hgiven
    rw [Given.raise] at hgiven
    split at hgiven
    · cases hgiven
    · rename_i hraised
      cases hgiven
      refine ⟨?_, ?_, settled, hsettle, rfl⟩
      · rw [eq_of_ofText_eq_long hword, hname]
        rfl
      · rw [← strict_of_settle hsettle]
        exact Bool.eq_false_iff.2 hraised

/-! What is pending -/

theorem settle_settled (h : r.settle = .ok settled) :
    settled.settle = .ok settled ∧ settled.places = r.places ∧ settled.literal = r.literal ∧
      settled.pending = .nothing ∧ ∀ a, r.pending ≠ .name a := by
  rw [settle] at h
  split at h
  · rename_i hpending
    cases h
    simp [settle, hpending]
  · cases h
  · rename_i a text hpending
    cases htake : r.given.take a text with
    | error error =>
      rw [htake] at h
      cases h
    | ok given =>
      rw [htake] at h
      cases h
      simp [settle, hpending]

theorem fill_settled (h : r.settle = .ok settled) (text : String) : settled.fill text = r.fill text := by
  obtain ⟨hsettled, hplaces, -⟩ := settle_settled h
  rw [fill, fill, hplaces, hsettled, h]

theorem readOption_settled (h : r.settle = .ok settled) (name : String) (value? : Option String) :
    settled.readOption verb name value? = r.readOption verb name value? := by
  have hsettled := (settle_settled h).1
  rw [readOption, readOption, hsettled, h]

theorem settle_literal (r : Reading) (literal : Bool) :
    { r with literal }.settle = r.settle.map fun r => { r with literal } := by
  obtain ⟨given, pending, places, before⟩ := r
  cases pending with
  | nothing => rfl
  | name a => rfl
  | value a text =>
    simp only [settle]
    cases given.take a text <;> rfl

/-- Whatever is read next settles what is pending, but for `--`, which leaves it. -/
theorem read_settled (h : r.settle = .ok settled) (hread : settled.read verb text = .ok r') :
    r.read verb text = .ok r' ∨ ∃ later, r.read verb text = .ok later ∧ later.settle = .ok r' := by
  obtain ⟨hsettled, -, hliteral, hpending, hunnamed⟩ := settle_settled h
  rw [read, hliteral, fill_settled h, hsettled] at hread
  rw [read, h]
  cases hlit : r.literal with
  | true =>
    rw [hlit] at hread
    exact Or.inl hread
  | false =>
    simp only [hlit, Bool.false_eq_true, if_false] at hread ⊢
    split at hread
    · -- behind `--` the pending argument is still pending
      cases hread
      refine Or.inr ⟨_, rfl, ?_⟩
      rw [settle_literal, h]
      rfl
    · rw [readOption_settled h] at hread
      exact Or.inl hread
    · cases hread
    · cases hread
    · rename_i plain hword
      rw [hpending, fill_settled h] at hread
      cases hbefore : r.pending with
      | name a => exact absurd hbefore (hunnamed a)
      | nothing | value a text => exact Or.inl hread

theorem foldlM_read_settled {words : List String} {last : Reading} (h : r.settle = .ok settled)
    (hwords : words.foldlM (read verb) settled = .ok r') (hlast : r'.settle = .ok last) :
    ∃ later, words.foldlM (read verb) r = .ok later ∧ later.settle = .ok last := by
  induction words generalizing r settled with
  | nil =>
    cases hwords
    have hsame := (settle_settled h).1
    rw [hlast, Except.ok.injEq] at hsame
    exact ⟨r, rfl, hsame ▸ h⟩
  | cons word words ih =>
    rw [List.foldlM_cons] at hwords
    obtain ⟨r₁, hread, hrest⟩ := bind_eq_ok_iff.1 hwords
    obtain hsame | ⟨later, hlater, hsettle⟩ := read_settled h hread
    · refine ⟨r', ?_, hlast⟩
      rw [List.foldlM_cons, hsame]
      exact hrest
    · rw [List.foldlM_cons, hlater]
      exact ih hsettle hrest

/-! All words -/

theorem strict_le_of_read (h : r.read verb text = .ok r') : r.given.strict ≤ r'.given.strict := by
  by_cases hflag : r.MeetsFlag verb text
  · obtain ⟨-, -, settled, -, rfl⟩ := read_flag hflag h
    exact Bool.le_true _
  · exact Bool.le_of_eq (strict_of_read hflag h).symm

theorem strict_le_of_foldlM_read {words : List String} (h : words.foldlM (read verb) r = .ok r') :
    r.given.strict ≤ r'.given.strict := by
  induction words generalizing r with
  | nil =>
    cases h
    exact Bool.le_refl _
  | cons word words ih =>
    rw [List.foldlM_cons] at h
    obtain ⟨r₁, hread, hrest⟩ := bind_eq_ok_iff.1 h
    exact Bool.le_trans (strict_le_of_read hread) (ih hrest)

/-- Words that leave the flag as it was read the same whatever its state is. -/
theorem foldlM_read_withStrict {words : List String} (h : words.foldlM (read verb) r = .ok r')
    (hsame : r'.given.strict = r.given.strict) (strict : Bool) :
    words.foldlM (read verb) (r.withStrict strict) = .ok (r'.withStrict strict) := by
  induction words generalizing r with
  | nil =>
    cases h
    rfl
  | cons word words ih =>
    rw [List.foldlM_cons] at h ⊢
    obtain ⟨r₁, hread, hrest⟩ := bind_eq_ok_iff.1 h
    -- the flag only rises, so it is the same behind every word
    have hlower : r₁.given.strict ≤ r.given.strict := hsame ▸ strict_le_of_foldlM_read hrest
    have hfirst : r₁.given.strict = r.given.strict := Bool.le_antisymm hlower (strict_le_of_read hread)
    have hflag : ¬ r.MeetsFlag verb word := by
      intro hflag
      obtain ⟨-, hlenient, settled, -, rfl⟩ := read_flag hflag hread
      exact absurd (hfirst.trans hlenient) Bool.noConfusion
    rw [read_withStrict strict hflag, hread]
    exact ih hrest (hsame.trans hfirst.symm)

/-- If the flag was raised, one of the words raised it. -/
theorem exists_flag_of_foldlM_read {words : List String} (h : words.foldlM (read verb) r = .ok r')
    (hlenient : r.given.strict = false) (hstrict : r'.given.strict = true) :
    ∃ front back before settled, words = front ++ "--strict" :: back ∧ front.foldlM (read verb) r = .ok before ∧
      before.settle = .ok settled ∧ settled.given.strict = false ∧
      back.foldlM (read verb) (settled.withStrict true) = .ok r' := by
  induction words generalizing r with
  | nil =>
    cases h
    exact absurd (hstrict.symm.trans hlenient) Bool.noConfusion
  | cons word words ih =>
    rw [List.foldlM_cons] at h
    obtain ⟨r₁, hread, hrest⟩ := bind_eq_ok_iff.1 h
    by_cases hflag : r.MeetsFlag verb word
    · obtain ⟨rfl, -, settled, hsettle, rfl⟩ := read_flag hflag hread
      exact ⟨[], words, r, settled, rfl, rfl, hsettle, (strict_of_settle hsettle).trans hlenient, hrest⟩
    · have hfirst : r₁.given.strict = false := (strict_of_read hflag hread).trans hlenient
      obtain ⟨front, back, before, settled, rfl, hfront, hsettle, hsettled, hback⟩ := ih hrest hfirst
      refine ⟨word :: front, back, before, settled, rfl, ?_, hsettle, hsettled, hback⟩
      rw [List.foldlM_cons, hread]
      exact hfront

end Reading

namespace Command

variable {verb : Verb} {words : List String} {c : Command}

theorem readArguments_eq_ok_iff : readArguments verb words = .ok c ↔ ∃ r settled,
    words.foldlM (Reading.read verb) { places := verb.places } = .ok r ∧ r.settle = .ok settled ∧
      settled.given.finish verb = .ok c := by
  simp only [readArguments, bind_eq_ok_iff, mapError_eq_ok_iff]
  constructor
  · rintro ⟨r, hwords, settled, hsettle, hfinish⟩
    exact ⟨r, settled, hwords, hsettle, hfinish⟩
  · rintro ⟨r, settled, hwords, hsettle, hfinish⟩
    exact ⟨r, hwords, settled, hsettle, hfinish⟩

/-- In front of all other arguments the flag only raises the strictness. -/
theorem readArguments_flagged (h : readArguments verb words = .ok c) (hlenient : c.isStrict = false) :
    readArguments verb ("--strict" :: words) = .ok (c.withStrict true) := by
  obtain ⟨r, settled, hwords, hsettle, hfinish⟩ := readArguments_eq_ok_iff.1 h
  have hsettled : settled.given.strict = false := (Given.isStrict_of_finish hfinish).symm.trans hlenient
  have hr : r.given.strict = false := (Reading.strict_of_settle hsettle).symm.trans hsettled
  have hfirst : Reading.read verb { places := verb.places } "--strict" =
      .ok (Reading.withStrict { places := verb.places } true) := by
    cases verb <;> rfl
  refine readArguments_eq_ok_iff.2 ⟨r.withStrict true, settled.withStrict true, ?_,
    Reading.settle_withStrict_of_ok hsettle true, Given.finish_withStrict_of_ok hfinish true⟩
  rw [List.foldlM_cons, hfirst]
  exact Reading.foldlM_read_withStrict hwords hr true

/-- Wherever the flag stands, without it the other arguments read the same. -/
theorem readArguments_unflagged (h : readArguments verb words = .ok c) (hstrict : c.isStrict = true) :
    ∃ front back, words = front ++ "--strict" :: back ∧
      readArguments verb (front ++ back) = .ok (c.withStrict false) := by
  obtain ⟨r, last, hwords, hlast, hfinish⟩ := readArguments_eq_ok_iff.1 h
  have hr : r.given.strict = true :=
    (Reading.strict_of_settle hlast).symm.trans ((Given.isStrict_of_finish hfinish).symm.trans hstrict)
  obtain ⟨front, back, before, settled, rfl, hfront, hsettle, hsettled, hback⟩ :=
    Reading.exists_flag_of_foldlM_read hwords rfl hr
  have hlowered : back.foldlM (Reading.read verb) settled = .ok (r.withStrict false) := by
    have hfrom : (settled.withStrict true).withStrict false = settled := by
      rw [← hsettled]
      rfl
    rw [← hfrom]
    exact Reading.foldlM_read_withStrict hback hr false
  -- the flag has settled what was pending before it; without the flag a later word does
  have hsettledLast := Reading.settle_withStrict_of_ok hlast false
  obtain ⟨later, hlater, hlaterLast⟩ := Reading.foldlM_read_settled hsettle hlowered hsettledLast
  refine ⟨front, back, rfl, readArguments_eq_ok_iff.2 ⟨later, last.withStrict false, ?_, hlaterLast,
    Given.finish_withStrict_of_ok hfinish false⟩⟩
  rw [List.foldlM_append, hfront]
  exact hlater

theorem parse_eq_ok_iff : parse words = .ok c ↔
    ∃ verb rest, words = Verb.word verb :: rest ∧ readArguments verb rest = .ok c := by
  constructor
  · intro h
    cases words with
    | nil => cases h
    | cons word rest =>
      rw [parse] at h
      split at h
      · cases h
      · split at h
        · rename_i verb hverb
          have hword : verb.word = word := by
            have hfound := List.find?_some hverb
            simpa using hfound
          exact ⟨verb, rest, by rw [hword], h⟩
        · cases h
  · rintro ⟨verb, rest, rfl, h⟩
    have hhelp : verb.word ≠ "help" := by cases verb <;> decide
    have hverb : Verb.ofWord? verb.word = some verb := by cases verb <;> decide
    rw [parse, if_neg hhelp, hverb]
    exact h

/-- Every command line has a partner that comes to the same command but for its strictness. -/
theorem exists_parse_withStrict (h : parse words = .ok c) :
    (c.isStrict = false → ∃ name rest, words = name :: rest ∧
      parse (name :: "--strict" :: rest) = .ok (c.withStrict true)) ∧
    (c.isStrict = true → ∃ front back, words = front ++ "--strict" :: back ∧
      parse (front ++ back) = .ok (c.withStrict false)) := by
  obtain ⟨verb, rest, rfl, hread⟩ := parse_eq_ok_iff.1 h
  constructor
  · intro hlenient
    have hflagged := readArguments_flagged hread hlenient
    exact ⟨verb.word, rest, rfl, parse_eq_ok_iff.2 ⟨verb, "--strict" :: rest, rfl, hflagged⟩⟩
  · intro hstrict
    obtain ⟨front, back, rfl, hlowered⟩ := readArguments_unflagged hread hstrict
    exact ⟨verb.word :: front, back, rfl, parse_eq_ok_iff.2 ⟨verb, front ++ back, rfl, hlowered⟩⟩

end Command
end ProtoLink.CommandLine
