import ProtoLink.Proofs.CommandLine.Verdict
import ProtoLink.Proofs.Spelling

/-! The position that references are spelled for. Two command lines that differ only in the word for it are
read alike, and a reference is written alike in both positions, so the outcomes are the same. -/
namespace ProtoLink.CommandLine

open Json (bind_eq_ok_iff)

/-- Results that fail for the same reason, or come to values that belong together. -/
inductive Alike {ε α β : Type} (R : α → β → Prop) : Except ε α → Except ε β → Prop where
  | error (e : ε) : Alike R (.error e) (.error e)
  | ok {a : α} {b : β} (h : R a b) : Alike R (.ok a) (.ok b)

namespace Alike

variable {ε ε' α β γ δ : Type} {R : α → β → Prop} {S : γ → δ → Prop} {x : Except ε α} {y : Except ε β}

theorem map {f : α → γ} {g : β → δ} (h : Alike R x y) (hfg : ∀ a b, R a b → S (f a) (g b)) :
    Alike S (x.map f) (y.map g) := by
  cases h with
  | error e => exact .error e
  | ok h => exact .ok (hfg _ _ h)

theorem mapError (f : ε → ε') (h : Alike R x y) : Alike R (x.mapError f) (y.mapError f) := by
  cases h with
  | error e => exact .error (f e)
  | ok h => exact .ok h

theorem bind {f : α → Except ε γ} {g : β → Except ε δ} (h : Alike R x y)
    (hfg : ∀ a b, R a b → Alike S (f a) (g b)) : Alike S (x >>= f) (y >>= g) := by
  cases h with
  | error e => exact .error e
  | ok h => exact hfg _ _ h

theorem map_same {f : α → γ} {g : α → δ} (x : Except ε α) (h : ∀ a, S (f a) (g a)) : Alike S (x.map f) (x.map g) := by
  cases x with
  | error e => exact .error e
  | ok a => exact .ok (h a)

theorem foldlM {ω : Type} {R : α → α → Prop} {step : α → ω → Except ε α}
    (hstep : ∀ a b w, R a b → Alike R (step a w) (step b w)) (ws : List ω) {a b : α} (h : R a b) :
    Alike R (ws.foldlM step a) (ws.foldlM step b) := by
  induction ws generalizing a b with
  | nil => exact .ok h
  | cons w ws ih =>
    rw [List.foldlM_cons, List.foldlM_cons]
    exact (hstep a b w h).bind fun _ _ => ih

end Alike

/-! Arguments, readings and commands that differ only in the position -/

namespace Given

/-- The same arguments, with another position if there is one. -/
def Agrees (g g' : Given) : Prop := ∃ position?, position?.isSome = g.position?.isSome ∧ g' = { g with position? }

variable {g g' : Given}

/-- A position may be given once, whichever it is. -/
theorem Agrees.place {v v' : Except UsageError Position} (h : g.Agrees g') (hv : Alike (fun _ _ => True) v v') :
    Alike Agrees ((once .position g.position? v).map fun position? => { g with position? })
      ((once .position g'.position? v').map fun position? => { g' with position? }) := by
  obtain ⟨position?, hsome, rfl⟩ := h
  simp only [once, hsome]
  split
  · exact .error _
  · have hplaced : Alike (fun p p' : Option Position => p'.isSome = p.isSome) (v.map some) (v'.map some) :=
      hv.map fun _ _ _ => rfl
    exact hplaced.map fun p p' hp => ⟨p', hp, rfl⟩

theorem Agrees.take (h : g.Agrees g') (a : Argument) (value : String) :
    Alike Agrees (g.take a value) (g'.take a value) := by
  cases a with
  | position =>
    refine h.place ?_
    cases choose .position Position.ofWord? value with
    | error e => exact .error e
    | ok p => exact .ok trivial
  | batch | file | parameter | colour =>
    obtain ⟨position?, hsome, rfl⟩ := h
    exact .map_same _ fun _ => ⟨position?, hsome, rfl⟩
  | imported =>
    obtain ⟨position?, hsome, rfl⟩ := h
    simp only [Given.take]
    cases import? value with
    | none => exact .error _
    | some pair => exact .ok ⟨position?, hsome, rfl⟩
  | types =>
    obtain ⟨position?, hsome, rfl⟩ := h
    exact .ok ⟨position?, hsome, rfl⟩
  | json | strict | help => exact .ok h

theorem Agrees.take_word (h : g.Agrees g') (p p' : Position) :
    Alike Agrees (g.take .position p.word) (g'.take .position p'.word) := by
  have hchosen : ∀ p : Position, choose .position Position.ofWord? p.word = .ok p := by
    intro p
    cases p <;> rfl
  refine h.place ?_
  rw [hchosen, hchosen]
  exact .ok trivial

theorem Agrees.raise (h : g.Agrees g') (a : Argument) : Alike Agrees (g.raise a) (g'.raise a) := by
  obtain ⟨position?, hsome, rfl⟩ := h
  cases a with
  | json | strict =>
    simp only [Given.raise]
    split
    · exact .error _
    · exact .ok ⟨position?, hsome, rfl⟩
  | batch | types | file | imported | parameter | position | colour | help => exact .ok ⟨position?, hsome, rfl⟩

end Given

/-- The same command, with another position if it has one. -/
inductive Command.Agrees : Command → Command → Prop where
  | symbols (c : SymbolsCommand) : Agrees (.symbols c) (.symbols c)
  | resolve (c : ResolveCommand) (position : Position) : Agrees (.resolve c) (.resolve { c with position })

theorem Given.Agrees.finish {g g' : Given} (h : g.Agrees g') (verb : Verb) :
    Alike Command.Agrees (g.finish verb) (g'.finish verb) := by
  obtain ⟨position?, -, rfl⟩ := h
  cases verb with
  | symbols =>
    simp only [Given.finish]
    cases g.batch? with
    | none => exact .error _
    | some batch => exact .ok (.symbols _)
  | resolve =>
    simp only [Given.finish]
    split
    · exact .ok (.resolve _ _)
    · exact .error _

/-- The same argument has begun, or either of them gives a position. -/
inductive Pending.Agrees : Pending → Pending → Prop where
  | same (p : Pending) : Agrees p p
  | position (p p' : Position) : Agrees (.value .position p.word) (.value .position p'.word)

namespace Reading

/-- The same words were read, but for those that give the position. -/
structure Agrees (r r' : Reading) : Prop where
  given : r.given.Agrees r'.given
  pending : r.pending.Agrees r'.pending
  places : r.places = r'.places
  literal : r.literal = r'.literal

variable {verb : Verb} {r r' : Reading}

theorem Agrees.refl (r : Reading) : r.Agrees r := ⟨⟨_, rfl, rfl⟩, .same _, rfl, rfl⟩

theorem Agrees.settle (h : r.Agrees r') : Alike Agrees r.settle r'.settle := by
  obtain ⟨given, pending, places, literal⟩ := r
  obtain ⟨given', pending', places', literal'⟩ := r'
  obtain ⟨hgiven, hpending, hplaces, hliteral⟩ := h
  cases hpending with
  | same =>
    cases pending with
    | nothing => exact .ok ⟨hgiven, .same _, hplaces, hliteral⟩
    | name a => exact .error _
    | value a text => exact (hgiven.take a text).map fun _ _ hg => ⟨hg, .same _, hplaces, hliteral⟩
  | position p p' => exact (hgiven.take_word p p').map fun _ _ hg => ⟨hg, .same _, hplaces, hliteral⟩

theorem Agrees.fill (h : r.Agrees r') (text : String) : Alike Agrees (r.fill text) (r'.fill text) := by
  simp only [Reading.fill, ← h.places]
  cases r.places with
  | nil => exact .error _
  | cons place rest =>
    refine h.settle.bind fun s s' hs => ?_
    by_cases hplace : place = .types
    · simp only [hplace, if_true]
      exact (hs.given.take .types text).bind fun _ _ hg => .ok ⟨hg, hs.pending, hs.places, hs.literal⟩
    · simp only [hplace, if_false]
      exact .ok ⟨hs.given, .same _, rfl, hs.literal⟩

theorem Agrees.readOption (h : r.Agrees r') (name : String) (value? : Option String) :
    Alike Agrees (r.readOption verb name value?) (r'.readOption verb name value?) := by
  rw [Reading.readOption, Reading.readOption]
  cases verb.option? name with
  | none => exact .error _
  | some a =>
    have hsettle := h.settle.mapError Halt.usage
    cases hflag : a.isFlag with
    | true =>
      cases value? with
      | some value => simp only [hflag]; exact .error _
      | none =>
        simp only [hflag]
        refine hsettle.bind fun s s' hs => ?_
        by_cases hhelp : a = .help
        · simp only [hhelp, if_true]
          exact .error _
        · simp only [hhelp, if_false]
          exact ((hs.given.raise a).mapError Halt.usage).bind fun _ _ hg =>
            .ok ⟨hg, hs.pending, hs.places, hs.literal⟩
    | false =>
      cases value? with
      | some value =>
        simp only [hflag]
        exact hsettle.bind fun s s' hs => ((hs.given.take a value).mapError Halt.usage).bind fun _ _ hg =>
          .ok ⟨hg, hs.pending, hs.places, hs.literal⟩
      | none =>
        simp only [hflag]
        exact hsettle.bind fun s s' hs => .ok ⟨hs.given, .same _, hs.places, hs.literal⟩

theorem Agrees.read (h : r.Agrees r') (text : String) : Alike Agrees (r.read verb text) (r'.read verb text) := by
  rw [Reading.read, Reading.read, ← h.literal]
  cases r.literal with
  | true => exact (h.fill text).mapError Halt.usage
  | false =>
    simp only [Bool.false_eq_true, if_false]
    split
    · exact .ok ⟨h.given, h.pending, h.places, rfl⟩
    · exact h.readOption _ _
    · exact (h.settle.mapError Halt.usage).bind fun _ _ _ => .error _
    · exact .error _
    · rename_i plain hword
      have hfill := (h.fill plain).mapError Halt.usage
      obtain ⟨given, pending, places, literal⟩ := r
      obtain ⟨given', pending', places', literal'⟩ := r'
      obtain ⟨hgiven, hpending, hplaces, hliteral⟩ := h
      cases hpending with
      | same =>
        cases pending with
        | name a => exact .ok ⟨hgiven, .same _, hplaces, rfl⟩
        | nothing | value a text => exact hfill
      | position p p' => exact hfill

/-! An option is read as one until `--` comes -/

theorem literal_of_settle (h : r.settle = .ok r') : r'.literal = r.literal := (settle_settled h).2.2.1

theorem literal_of_fill {text : String} (h : r.fill text = .ok r') : r'.literal = r.literal := by
  rw [Reading.fill] at h
  split at h
  · cases h
  · obtain ⟨settled, hsettle, h⟩ := bind_eq_ok_iff.1 h
    have hliteral := literal_of_settle hsettle
    split at h
    · obtain ⟨given, -, h⟩ := bind_eq_ok_iff.1 h
      cases h
      exact hliteral
    · cases h
      exact hliteral

theorem literal_of_readOption {name : String} {value? : Option String} (h : r.readOption verb name value? = .ok r') :
    r'.literal = r.literal := by
  rw [Reading.readOption] at h
  split at h
  · cases h
  · split at h
    · cases h
    all_goals
      obtain ⟨settled, hsettle, h⟩ := bind_eq_ok_iff.1 h
      have hliteral := literal_of_settle (mapError_eq_ok_iff.1 hsettle)
    · split at h
      · cases h
      · obtain ⟨given, -, h⟩ := bind_eq_ok_iff.1 h
        cases h
        exact hliteral
    · obtain ⟨given, -, h⟩ := bind_eq_ok_iff.1 h
      cases h
      exact hliteral
    · cases h
      exact hliteral

theorem eq_of_ofText_eq_separator {text : String} (h : Word.ofText text = .separator) : text = "--" := by
  rw [Word.ofText] at h
  split at h
  · rename_i hdashes
    exact String.toList_injective hdashes
  · split at h <;> cases h
  · cases h
  · cases h

theorem literal_of_read {text : String} (h : r.read verb text = .ok r') (htext : text ≠ "--") :
    r'.literal = r.literal := by
  rw [Reading.read] at h
  split at h
  · exact literal_of_fill (mapError_eq_ok_iff.1 h)
  · split at h
    · rename_i hword
      exact absurd (eq_of_ofText_eq_separator hword) htext
    · exact literal_of_readOption h
    · obtain ⟨_, -, h⟩ := bind_eq_ok_iff.1 h
      cases h
    · cases h
    · split at h
      · cases h
        rfl
      · exact literal_of_fill (mapError_eq_ok_iff.1 h)

theorem literal_of_foldlM_read {words : List String} (h : words.foldlM (read verb) r = .ok r')
    (hwords : "--" ∉ words) : r'.literal = r.literal := by
  induction words generalizing r with
  | nil =>
    cases h
    rfl
  | cons word words ih =>
    rw [List.mem_cons, not_or] at hwords
    rw [List.foldlM_cons] at h
    obtain ⟨r₁, hread, hrest⟩ := bind_eq_ok_iff.1 h
    exact (ih hrest hwords.2).trans (literal_of_read hread (Ne.symm hwords.1))

end Reading

/-! The words of the option -/

namespace Position

/-- The position in a word of its own behind the name of the option. -/
def inTwoWords (p : Position) : List String := ["--position", p.word]

/-- The position in one word with the name of the option. -/
def inOneWord (p : Position) : List String := ["--position=" ++ p.word]

end Position

namespace Reading

variable {r : Reading} (hliteral : r.literal = false) (p p' : Position)

include hliteral

theorem alike_inOneWord :
    Alike Agrees (p.inOneWord.foldlM (read .resolve) r) (p'.inOneWord.foldlM (read .resolve) r) := by
  have hread : ∀ p : Position, p.inOneWord.foldlM (read .resolve) r =
      (r.settle.mapError Halt.usage >>= fun s =>
        (s.given.take .position p.word).mapError Halt.usage >>= fun given => .ok { s with given }) := by
    intro p
    have hword : Word.ofText ("--position=" ++ p.word) = .long "position" (some p.word) := by cases p <;> rfl
    rw [Position.inOneWord, List.foldlM_cons, read, hliteral, hword]
    exact bind_pure _
  rw [hread, hread]
  exact ((Agrees.refl r).settle.mapError Halt.usage).bind fun _ _ hs =>
    ((hs.given.take_word p p').mapError Halt.usage).bind fun _ _ hg => .ok ⟨hg, hs.pending, hs.places, hs.literal⟩

theorem alike_inTwoWords :
    Alike Agrees (p.inTwoWords.foldlM (read .resolve) r) (p'.inTwoWords.foldlM (read .resolve) r) := by
  have hread : ∀ p : Position, p.inTwoWords.foldlM (read .resolve) r =
      (r.settle.mapError Halt.usage).map fun s => { s with pending := .value .position p.word } := by
    intro p
    have hname : r.read .resolve "--position" = r.readOption .resolve "position" none := by
      rw [read, hliteral]
      rfl
    have hword : Word.ofText p.word = .plain p.word := by cases p <;> rfl
    rw [Position.inTwoWords, List.foldlM_cons, hname]
    cases hsettle : r.settle with
    | error e => simp only [readOption, hsettle]; rfl
    | ok s =>
      have hopen : s.literal = false := (literal_of_settle hsettle).trans hliteral
      have hfirst : r.readOption .resolve "position" none = .ok { s with pending := .name .position } := by
        simp only [readOption, hsettle]
        rfl
      have hsecond : read .resolve { s with pending := .name .position } p.word =
          .ok { s with pending := .value .position p.word } := by
        rw [read, hopen, hword]
        rfl
      rw [hfirst]
      exact congrArg (· >>= pure) hsecond
  rw [hread, hread]
  exact ((Agrees.refl r).settle.mapError Halt.usage).map fun _ _ hs =>
    ⟨hs.given, .position p p', hs.places, hs.literal⟩

end Reading

/-- The ways to give a position. -/
def Position.spellings : List (Position → List String) := [inTwoWords, inOneWord]

namespace Command

/-- In place of one word for the position another one leads to the same command but for that. -/
theorem alike_readArguments {front : List String} (hfront : "--" ∉ front) (back : List String)
    {spell : Position → List String} (hspell : spell ∈ Position.spellings) (p p' : Position) :
    Alike Agrees (readArguments .resolve (front ++ spell p ++ back))
      (readArguments .resolve (front ++ spell p' ++ back)) := by
  have hwords : Alike Reading.Agrees
      ((front ++ spell p ++ back).foldlM (Reading.read .resolve) { places := Verb.places .resolve })
      ((front ++ spell p' ++ back).foldlM (Reading.read .resolve) { places := Verb.places .resolve }) := by
    simp only [List.foldlM_append]
    cases hread : front.foldlM (Reading.read .resolve) { places := Verb.places .resolve } with
    | error e => exact .error e
    | ok r =>
      have hliteral : r.literal = false := Reading.literal_of_foldlM_read hread hfront
      have hoption : Alike Reading.Agrees ((spell p).foldlM (Reading.read .resolve) r)
          ((spell p').foldlM (Reading.read .resolve) r) := by
        simp only [Position.spellings, List.mem_cons, List.not_mem_nil, or_false] at hspell
        rcases hspell with rfl | rfl
        · exact Reading.alike_inTwoWords hliteral p p'
        · exact Reading.alike_inOneWord hliteral p p'
      exact hoption.bind fun _ _ h => Alike.foldlM (fun _ _ word h => h.read word) back h
  exact hwords.bind fun _ _ h => (h.settle.mapError Halt.usage).bind fun _ _ hs =>
    (hs.given.finish .resolve).mapError Halt.usage

end Command

namespace ResolveCommand

/-- A reference is written alike in both positions. -/
theorem rendered_eq (palette : Palette) (r : Reference) (position : Position) :
    rendered palette r position = (TypeScript.Expression.ofReference r).render palette := by
  cases position with
  | expression => rfl
  | type =>
    rw [rendered, ← TypeScript.Expression.toEntityName_ofReference, TypeScript.Expression.render_toEntityName]

variable (c : ResolveCommand) (position : Position)

theorem spell_position (coloured : Bool) (batch : Batch) (root : ProtoFile) :
    { c with position }.spell coloured batch root = c.spell coloured batch root := by
  have hspelled : { c with position }.spelled coloured batch root = c.spelled coloured batch root := by
    funext name
    rw [spelled, spelled, rendered_eq, rendered_eq]
    rfl
  rw [spell_eq, spell_eq, hspelled]

theorem run_position (s : Surroundings) : { c with position }.run s = c.run s := by
  have hread : ∀ coloured, { c with position }.readParameter coloured = c.readParameter coloured := fun _ => rfl
  have hrun : ∀ settings before, { c with position }.runWith s settings before = c.runWith s settings before := by
    intro settings before
    simp only [runWith, spell_position]
  simp only [run, hread, hrun]

end ResolveCommand

theorem Command.Agrees.run_eq {c c' : Command} (h : c.Agrees c') (s : Surroundings) : c.run s = c'.run s := by
  cases h with
  | symbols c => rfl
  | resolve c position => exact (c.run_position position s).symm

theorem run_eq_of_alike {words words' : List String} (h : Alike Command.Agrees (Command.readArguments .resolve words)
    (Command.readArguments .resolve words')) (s : Surroundings) :
    run s ("resolve" :: words) = run s ("resolve" :: words') := by
  have hparse : ∀ words, Command.parse ("resolve" :: words) = Command.readArguments .resolve words := fun _ => rfl
  rw [run, run, hparse, hparse]
  generalize Command.readArguments .resolve words = result at h
  generalize Command.readArguments .resolve words' = result' at h
  cases h with
  | error halt => rfl
  | ok h => exact h.run_eq s

/-- The nodes for both positions have the same names: a bare name, or the handle and the pieces of the tail.
They are written alike, in colour or not, so a command line comes to the same outcome for either position. -/
theorem positions_agree :
    (∀ r : Reference,
      let value := TypeScript.Expression.ofReference r
      let type := TypeScript.EntityName.ofReference r
      r.HasNames value.segments ∧ type.segments = value.segments ∧
        value.render .plain = r.written ∧ type.render .plain = r.written ∧
        value.render .bright = type.render .bright) ∧
    (∀ (s : Surroundings) (front back : List String), "--" ∉ front → ∀ spell ∈ Position.spellings,
      run s ("resolve" :: (front ++ spell .expression ++ back)) =
        run s ("resolve" :: (front ++ spell .type ++ back))) ∧
    ∀ (c : ResolveCommand) (s : Surroundings),
      { c with position := .expression }.run s = { c with position := .type }.run s := by
  refine ⟨fun r => ?_, fun s front back hfront spell hspell => ?_, fun c s => ?_⟩
  · intro value type
    have htype : type = value.toEntityName := (TypeScript.Expression.toEntityName_ofReference r).symm
    have hplain : value.render .plain = r.written := TypeScript.Expression.render_plain_ofReference r
    refine ⟨TypeScript.Expression.hasNames_ofReference r, ?_, hplain, ?_, ?_⟩
    · rw [htype, TypeScript.Expression.segments_toEntityName]
    · rw [htype, TypeScript.Expression.render_toEntityName, hplain]
    · rw [htype, TypeScript.Expression.render_toEntityName]
  · have hread := Command.alike_readArguments hfront back hspell .expression .type
    exact run_eq_of_alike hread s
  · rw [ResolveCommand.run_position c .expression, ResolveCommand.run_position c .type]

/-- The option stands between others here, and the file of the type is imported. -/
theorem positions_agree_between :
    let file : ProtoFile := { name := "f", package := "p", enums := [{ name := "K" }] }
    let s : Surroundings := { read := fun _ => .ok (FileSet.print ⟨[file]⟩).toByteArray }
    let front := ["-", "--file=f", "--dep", "f=h"]
    let back := ["--color=always", ".p.K"]
    "--" ∉ front ∧
      (run s ("resolve" :: (front ++ ["--position", "expr"] ++ back))).stdout =
        "\x1b[34mh\x1b[0m\x1b[2m.\x1b[0mK\n" ∧
      run s ("resolve" :: (front ++ ["--position", "expr"] ++ back)) =
        run s ("resolve" :: (front ++ ["--position", "type"] ++ back)) := by
  intro file s front back
  have hfront : "--" ∉ front := by decide
  have hrun := positions_agree.2.1 s front back hfront Position.inTwoWords List.mem_cons_self
  exact ⟨hfront, by decide +kernel, hrun⟩

end ProtoLink.CommandLine
