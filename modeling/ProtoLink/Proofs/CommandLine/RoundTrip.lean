import Mathlib.Data.List.Perm.Basic
import ProtoLink.Proofs.CommandLine.Flag

/-! Command lines that are written for a command are read as that command, whatever the order of the options.
No value is taken for an option or cut at a later equals sign. -/
namespace ProtoLink

namespace Text

variable {sep : Char} {front : List Char}

/-- The first separator is the one behind a part that has none. -/
theorem splitOnce_append (h : sep ∉ front) (back : List Char) :
    splitOnce sep (front ++ sep :: back) = some (front, back) := by
  induction front with
  | nil => simp [splitOnce]
  | cons c front ih =>
    have hc : c ≠ sep := fun hc => h (hc ▸ List.mem_cons_self)
    have hfront : sep ∉ front := fun hmem => h (List.mem_cons_of_mem _ hmem)
    rw [List.cons_append, splitOnce, if_neg hc, ih hfront]
    rfl

end Text

namespace CommandLine

/-- An option of the command that spells references, with its value. -/
inductive ResolveOption where
  | file (path : String)
  | imported (path handle : String)
  | parameter (text : String)
  | position (position : Position)
  | strict
  | colour (colour : Colour)
deriving DecidableEq

namespace ResolveOption

def argument : ResolveOption → Argument
  | .file _ => .file
  | .imported _ _ => .imported
  | .parameter _ => .parameter
  | .position _ => .position
  | .strict => .strict
  | .colour _ => .colour

def word : ResolveOption → String
  | .file path => "--file=" ++ path
  | .imported path handle => "--dep=" ++ (path ++ "=" ++ handle)
  | .parameter text => "--parameter=" ++ text
  | .position p => "--position=" ++ p.word
  | .strict => "--strict"
  | .colour c => "--color=" ++ c.word

/-- The path and the handle of an import. -/
def pair? : ResolveOption → Option (String × String)
  | .imported path handle => some (path, handle)
  | _ => none

/-- The path of an import ends at the first equals sign, and neither its path nor its handle is empty. -/
def IsReadable : ResolveOption → Prop
  | .imported path handle => path ≠ "" ∧ '=' ∉ path.toList ∧ handle ≠ ""
  | _ => True

/-- The options are one and the same, and not the one that may be given again. -/
def Excludes (o o' : ResolveOption) : Prop := o.argument = o'.argument ∧ o.argument ≠ .imported

theorem Excludes.symm {o o' : ResolveOption} (h : o.Excludes o') : o'.Excludes o := ⟨h.1.symm, h.1 ▸ h.2⟩

end ResolveOption

namespace ResolveCommand

/-- The options that a command is given by, beside its batch and its types. -/
def options (c : ResolveCommand) : List ResolveOption :=
  (c.imports.map fun i => .imported i.1 i.2) ++ (.file c.file :: c.parameter?.toList.map .parameter ++
    (if c.strict then [.strict] else []) ++ [.position c.position, .colour c.colour])

/-- The options of a command in some order, with the imports in theirs. -/
structure IsArrangement (c : ResolveCommand) (options : List ResolveOption) : Prop where
  perm : options.Perm c.options
  imports : options.filterMap ResolveOption.pair? = c.imports

/-- A command that there is a command line for. -/
structure IsWritable (c : ResolveCommand) : Prop where
  batch_ne : c.batch ≠ ""
  imports : ∀ i ∈ c.imports, i.1 ≠ "" ∧ '=' ∉ i.1.toList ∧ i.2 ≠ ""
  types_ne : c.types ≠ []

variable {c : ResolveCommand}

theorem IsWritable.isReadable (h : c.IsWritable) : ∀ o ∈ c.options, o.IsReadable := by
  intro o ho
  cases o with
  | imported path handle =>
    have hmem : (path, handle) ∈ c.imports := by
      simpa [options] using ho
    exact h.imports _ hmem
  | file _ | parameter _ | position _ | strict | colour _ => trivial

/-- No import stands in the way of another option. -/
theorem pairwise_imported_append (imports : List (String × String)) (os : List ResolveOption) :
    (imports.map (fun i => ResolveOption.imported i.1 i.2) ++ os).Pairwise (fun o o' => ¬ o.Excludes o') ↔
      os.Pairwise fun o o' => ¬ o.Excludes o' := by
  induction imports with
  | nil => rfl
  | cons i imports ih =>
    rw [List.map_cons, List.cons_append, List.pairwise_cons, ih]
    exact and_iff_right fun _ _ h => h.2 rfl

theorem pairwise_options (c : ResolveCommand) : c.options.Pairwise fun o o' => ¬ o.Excludes o' := by
  rw [options, pairwise_imported_append]
  cases c.parameter? <;> cases c.strict <;> simp [ResolveOption.Excludes, ResolveOption.argument]

end ResolveCommand

namespace Given

variable {g : Given} {front : List ResolveOption} {o : ResolveOption}

/-- An option is among the arguments that were given. -/
def Has (g : Given) : ResolveOption → Prop
  | .file path => g.file? = some path
  | .imported path handle => (path, handle) ∈ g.imports
  | .parameter text => g.parameter? = some text
  | .position p => g.position? = some p
  | .strict => g.strict = true
  | .colour c => g.colour? = some c

def add (g : Given) : ResolveOption → Given
  | .file path => { g with file? := some path }
  | .imported path handle => { g with imports := g.imports ++ [(path, handle)] }
  | .parameter text => { g with parameter? := some text }
  | .position p => { g with position? := some p }
  | .strict => { g with strict := true }
  | .colour c => { g with colour? := some c }

/-- Some options were given, and nothing else. -/
structure Records (g : Given) (options : List ResolveOption) : Prop where
  has_iff : ∀ o, g.Has o ↔ o ∈ options
  imports : g.imports = options.filterMap ResolveOption.pair?
  batch? : g.batch? = none
  types : g.types = []

theorem records_nil : Records {} [] := by
  refine ⟨fun o => ?_, rfl, rfl, rfl⟩
  cases o <;> simp [Has]

theorem has_add_iff {o' : ResolveOption} (hfree : o'.Excludes o → ¬ g.Has o') :
    (g.add o).Has o' ↔ g.Has o' ∨ o = o' := by
  cases o <;> cases o' <;> simp_all [add, Has, ResolveOption.Excludes, ResolveOption.argument]
  exact or_congr_right (and_congr eq_comm eq_comm)

theorem Records.add (h : g.Records front) (hfree : ∀ o' ∈ front, ¬ o'.Excludes o) :
    (g.add o).Records (front ++ [o]) := by
  refine ⟨fun o' => ?_, ?_, ?_, ?_⟩
  · rw [List.mem_append, List.mem_singleton, ← h.has_iff, eq_comm]
    exact has_add_iff fun hexcludes hhas => hfree o' ((h.has_iff o').1 hhas) hexcludes
  · rw [List.filterMap_append, ← h.imports]
    cases o <;> simp [Given.add, ResolveOption.pair?]
  · rw [← h.batch?]
    cases o <;> rfl
  · rw [← h.types]
    cases o <;> rfl

end Given

/-! Words -/

theorem Word.ofText_named {name : String} (h : '=' ∉ name.toList) (value : String) :
    Word.ofText ("--" ++ name ++ "=" ++ value) = .long name (some value) := by
  have htext : ("--" ++ name ++ "=" ++ value).toList = '-' :: '-' :: (name.toList ++ '=' :: value.toList) := by
    simp
  have hsplit := Text.splitOnce_append h value.toList
  obtain ⟨c, body, hbody⟩ : ∃ c body, name.toList ++ '=' :: value.toList = c :: body :=
    List.exists_cons_of_ne_nil (by simp)
  rw [hbody] at htext hsplit
  simp only [Word.ofText, htext, hsplit, String.ofList_toList]

theorem import?_eq_some {path handle : String} (h : (ResolveOption.imported path handle).IsReadable) :
    CommandLine.import? (path ++ "=" ++ handle) = some (path, handle) := by
  obtain ⟨hpath, hequals, hhandle⟩ := h
  have htext : (path ++ "=" ++ handle).toList = path.toList ++ '=' :: handle.toList := by
    simp
  rw [import?, htext, Text.splitOnce_append hequals]
  simp [hpath, hhandle]

theorem once_of_none {α : Type} (a : Argument) {before : Option α} (h : ∀ x, before ≠ some x) (x : α) :
    once a before (.ok x) = .ok (some x) := by
  rw [Option.eq_none_iff_forall_ne_some.2 h]
  rfl

namespace Reading

variable {g g' : Given} {places : List Argument} {o : ResolveOption}

/-- An option with its value in one word is taken at once. -/
theorem read_named (name : String) {value : String} {a : Argument} (hname : '=' ∉ name.toList)
    (hoption : Verb.resolve.option? name = some a) (hflag : a.isFlag = false) (htake : g.take a value = .ok g') :
    Reading.read .resolve { given := g, places } ("--" ++ name ++ "=" ++ value) = .ok { given := g', places } := by
  have hread : Reading.read .resolve { given := g, places } ("--" ++ name ++ "=" ++ value) =
      ((g.take a value).mapError Halt.usage >>= fun given => .ok { given, places }) := by
    simp only [Reading.read, Word.ofText_named hname, readOption, hoption, hflag, settle]
    rfl
  rw [hread, htake]
  rfl

/-- An option that was not given yet is read and adds what it says. -/
theorem read_word (hread : o.IsReadable) (hfree : ∀ o', o'.Excludes o → ¬ g.Has o') :
    Reading.read .resolve { given := g, places } o.word = .ok { given := g.add o, places } := by
  cases o with
  | file path =>
    have hnone := once_of_none .file (fun path' => hfree (.file path') ⟨rfl, Argument.noConfusion⟩) path
    exact read_named "file" (by decide) rfl rfl (by rw [Given.take, hnone]; rfl)
  | imported path handle =>
    have hpair := import?_eq_some hread
    exact read_named "dep" (by decide) rfl rfl (by rw [Given.take, hpair]; rfl)
  | parameter text =>
    have hnone := once_of_none .parameter (fun text' => hfree (.parameter text') ⟨rfl, Argument.noConfusion⟩) text
    exact read_named "parameter" (by decide) rfl rfl (by rw [Given.take, hnone]; rfl)
  | position p =>
    have hnone := once_of_none .position (fun p' => hfree (.position p') ⟨rfl, Argument.noConfusion⟩) p
    have hchosen : choose .position Position.ofWord? p.word = .ok p := by cases p <;> rfl
    exact read_named "position" (by decide) rfl rfl (by rw [Given.take, hchosen, hnone]; rfl)
  | strict =>
    have hlenient : g.strict = false := Bool.eq_false_iff.2 (hfree .strict ⟨rfl, Argument.noConfusion⟩)
    have hraise : g.raise .strict = .ok { g with strict := true } := by
      simp [Given.raise, hlenient]
    have hoption : Reading.read .resolve { given := g, places } "--strict" =
        ((g.raise .strict).mapError Halt.usage).map fun given => { given, places } := rfl
    rw [ResolveOption.word, hoption, hraise]
    rfl
  | colour c =>
    have hnone := once_of_none .colour (fun c' => hfree (.colour c') ⟨rfl, Argument.noConfusion⟩) c
    have hchosen : choose .colour Colour.ofWord? c.word = .ok c := by cases c <;> rfl
    exact read_named "color" (by decide) rfl rfl (by rw [Given.take, hchosen, hnone]; rfl)

/-- Options of which none excludes another one are read one after the other, whatever their order. -/
theorem foldlM_read_words (places : List Argument) {front options : List ResolveOption} (hg : g.Records front)
    (hread : ∀ o ∈ options, o.IsReadable) (hpairs : (front ++ options).Pairwise fun o o' => ¬ o.Excludes o') :
    ∃ g', (options.map ResolveOption.word).foldlM (Reading.read .resolve) { given := g, places } =
      .ok { given := g', places } ∧ g'.Records (front ++ options) := by
  induction options generalizing g front with
  | nil => exact ⟨g, rfl, by rwa [List.append_nil]⟩
  | cons o options ih =>
    have hfree : ∀ o' ∈ front, ¬ o'.Excludes o := fun o' ho' =>
      (List.pairwise_append.1 hpairs).2.2 o' ho' o List.mem_cons_self
    have hfirst : Reading.read .resolve { given := g, places } o.word = .ok { given := g.add o, places } :=
      read_word (hread o List.mem_cons_self) fun o' hexcludes hhas => hfree o' ((hg.has_iff o').1 hhas) hexcludes
    rw [List.append_cons] at hpairs
    obtain ⟨g', hrest, hg'⟩ := ih (hg.add hfree) (fun o' ho' => hread o' (List.mem_cons_of_mem _ ho')) hpairs
    refine ⟨g', ?_, by rwa [List.append_cons]⟩
    rw [List.map_cons, List.foldlM_cons, hfirst]
    exact hrest

/-- Behind `--` every word is taken as it is, and the last place takes all that are left. -/
theorem foldlM_read_types (types : List String) :
    types.foldlM (Reading.read .resolve) { given := g, places := [.types], literal := true } =
      .ok { given := { g with types := g.types ++ types }, places := [.types], literal := true } := by
  induction types generalizing g with
  | nil => rw [List.append_nil]; rfl
  | cons type types ih =>
    have hfirst : Reading.read .resolve { given := g, places := [.types], literal := true } type =
        .ok { given := { g with types := g.types ++ [type] }, places := [.types], literal := true } := rfl
    have hrest := ih (g := { g with types := g.types ++ [type] })
    rw [List.append_assoc, List.singleton_append] at hrest
    rw [List.foldlM_cons, hfirst]
    exact hrest

/-- The words behind `--` are the batch, which is settled by the first type, and the types. -/
theorem foldlM_read_places {batch : String} {types : List String} (hbatch : batch ≠ "") (htypes : types ≠ [])
    (hnone : g.batch? = none) :
    ("--" :: batch :: types).foldlM (Reading.read .resolve) { given := g, places := Verb.resolve.places } =
      .ok { given := { g with batch? := some batch, types := g.types ++ types }, places := [.types],
            literal := true } := by
  obtain ⟨type, types, rfl⟩ := List.exists_cons_of_ne_nil htypes
  let before : Reading := { given := g, pending := .value .batch batch, places := [.types], literal := true }
  let settled : Reading := { given := { g with batch? := some batch }, places := [.types], literal := true }
  have hsettle : before.settle = .ok settled := by
    have hvalue : batch.isEmpty = false := by simpa using hbatch
    simp [before, settled, settle, Given.take, once, hvalue, hnone, Except.map]
  have hfirst : before.read .resolve type = settled.read .resolve type :=
    congrArg (Except.mapError Halt.usage) (fill_settled hsettle type).symm
  have hrest := foldlM_read_types (g := { g with batch? := some batch }) (type :: types)
  exact (congrArg (· >>= fun r => types.foldlM (Reading.read .resolve) r) hfirst).trans hrest

end Reading

namespace ResolveCommand

variable {c : ResolveCommand} {options : List ResolveOption} {g : Given}

/-- The options of a command, in whatever order, leave nothing of it open but its places. -/
theorem IsArrangement.finish (h : c.IsArrangement options) (hg : g.Records options) (htypes : c.types ≠ []) :
    Given.finish { g with batch? := some c.batch, types := c.types } .resolve = .ok (.resolve c) := by
  have hhas : ∀ o, g.Has o ↔ o ∈ c.options := fun o => (hg.has_iff o).trans h.perm.mem_iff
  have hfile : g.file? = some c.file := (hhas (.file c.file)).2 (by simp [ResolveCommand.options])
  have hposition : g.position? = some c.position := (hhas (.position c.position)).2 (by simp [ResolveCommand.options])
  have hcolour : g.colour? = some c.colour := (hhas (.colour c.colour)).2 (by simp [ResolveCommand.options])
  have hparameter : g.parameter? = c.parameter? :=
    Option.ext fun text => (hhas (.parameter text)).trans (by simp [ResolveCommand.options])
  have hstrict : g.strict = c.strict := Bool.eq_iff_iff.2 ((hhas .strict).trans (by simp [ResolveCommand.options]))
  have himports : g.imports = c.imports := hg.imports.trans h.imports
  obtain ⟨batch, file, imports, parameter?, position, types, strict, colour⟩ := c
  obtain ⟨type, types, rfl⟩ := List.exists_cons_of_ne_nil htypes
  simp_all [Given.finish]

/-- A command line for a command comes to that command. Its options stand in front of `--`, each in one word
and in any order that keeps the imports in theirs. All other values may look like options themselves. -/
theorem parse_arranged (h : c.IsWritable) (ha : c.IsArrangement options) :
    Command.parse ("resolve" :: (options.map ResolveOption.word ++ "--" :: c.batch :: c.types)) =
      .ok (.resolve c) := by
  have hread : ∀ o ∈ options, o.IsReadable := fun o ho => h.isReadable o (ha.perm.mem_iff.1 ho)
  have hpairs : options.Pairwise fun o o' => ¬ o.Excludes o' :=
    (ha.perm.pairwise_iff fun hnot hexcludes => hnot hexcludes.symm).2 c.pairwise_options
  obtain ⟨g, hoptions, hg⟩ := Reading.foldlM_read_words Verb.resolve.places Given.records_nil hread hpairs
  have hplaces := Reading.foldlM_read_places h.batch_ne h.types_ne hg.batch?
  rw [hg.types, List.nil_append] at hplaces
  have hwords : (options.map ResolveOption.word ++ "--" :: c.batch :: c.types).foldlM (Reading.read .resolve)
      { places := Verb.resolve.places } =
        .ok { given := { g with batch? := some c.batch, types := c.types }, places := [.types], literal := true } := by
    rw [List.foldlM_append, hoptions]
    exact hplaces
  have hfinish := ha.finish hg h.types_ne
  exact Command.parse_eq_ok_iff.2 ⟨.resolve, _, rfl, Command.readArguments_eq_ok_iff.2 ⟨_, _, hwords, rfl, hfinish⟩⟩

/-- Values that start with hyphens and hold equals signs, the options out of order, and `--` for a type. -/
theorem parse_arranged_hyphens :
    let c : ResolveCommand :=
      { batch := "-b", file := "--f=", imports := [("--dep", "=h="), ("q", "-")], parameter? := some "-x=1",
        position := .type, types := ["--", "-T"], strict := true, colour := .never }
    let options : List ResolveOption := [.colour .never, .imported "--dep" "=h=", .strict, .position .type,
      .parameter "-x=1", .imported "q" "-", .file "--f="]
    c.IsWritable ∧ c.IsArrangement options ∧
      Command.parse ["resolve", "--color=never", "--dep=--dep==h=", "--strict", "--position=type", "--parameter=-x=1",
        "--dep=q=-", "--file=--f=", "--", "-b", "--", "-T"] = .ok (.resolve c) := by
  intro c options
  have hwritable : c.IsWritable := ⟨by decide, by decide, by decide⟩
  have harranged : c.IsArrangement options := ⟨by decide, by decide⟩
  exact ⟨hwritable, harranged, parse_arranged hwritable harranged⟩

end ResolveCommand
end CommandLine
end ProtoLink
