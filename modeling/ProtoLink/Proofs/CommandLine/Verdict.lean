import ProtoLink.CommandLine.Run
import ProtoLink.Proofs.CommandLine.Flag
import ProtoLink.Proofs.Loading
import ProtoLink.Proofs.Log
import ProtoLink.Proofs.Redeclaration
import ProtoLink.Reference

/-! What the flag for strictness changes in a run. The batch, the references and the findings are the same with it
and without it; each finding is an error instead of a warning, and one finding is enough for the run to fail. -/
namespace ProtoLink

open Json (bind_eq_ok_iff)

namespace Diagnostic

/-- A finding in one line, from behind the bracket that follows its severity. -/
def Finding.body (f : Finding) : String :=
  f.kind.code ++ "]" ++ placeText f.span? ++ ": " ++ f.message ++
    String.join (f.hints.map fun hint => " (hint: " ++ hint ++ ")")

theorem line_eq (d : Diagnostic) : d.line = d.severity.word ++ "[" ++ d.finding.body := by
  simp only [line, Finding.body, String.append_assoc]
  rfl

end Diagnostic

namespace Batch

/-- What is found amiss with references to some names. -/
def undeclaredAmong (b : Batch) (names : List String) : List Diagnostic.Finding :=
  (names.filter fun name => !b.symbols.contains name).map undeclared

theorem undeclaredAmong_append (b : Batch) (names others : List String) :
    b.undeclaredAmong (names ++ others) = b.undeclaredAmong names ++ b.undeclaredAmong others := by
  rw [undeclaredAmong, List.filter_append, List.map_append]
  rfl

theorem undeclaredAmong_singleton (b : Batch) (name : String) :
    b.undeclaredAmong [name] = if b.symbols.contains name then [] else [undeclared name] := by
  cases hname : b.symbols.contains name with
  | true => simp [undeclaredAmong, hname]
  | false => simp [undeclaredAmong, hname]

/-- All that a new batch has found is what is declared twice. -/
theorem log_ofText {settings : Settings} {text : String} {b : Batch} (h : ofText settings text = .ok b) :
    b.log = Log.reportAll {} b.log.findings ∧ ∀ f ∈ b.log.findings, f.kind = .duplicateSymbol := by
  rw [ofText] at h
  cases hset : readSet text with
  | error fault =>
    rw [hset] at h
    cases h
  | ok set =>
    rw [hset] at h
    cases h
    rw [log_load, Log.findings_reportAll_new]
    refine ⟨rfl, fun f hf => ?_⟩
    obtain ⟨_, _, _, _, _, _, _, rfl⟩ := mem_redeclared_iff.1 hf
    rfl

end Batch

namespace CommandLine

theorem intercalate_append_newline (line : String) (lines : List String) :
    "\n".intercalate (line :: lines) ++ "\n" = String.join ((line :: lines).map fun line => line ++ "\n") := by
  induction lines generalizing line with
  | nil => simp
  | cons next lines ih =>
    rw [String.intercalate_cons_cons, String.append_assoc, ih]
    simp only [List.map_cons, String.join_cons]

theorem spoken_plain (log : Log) : spoken log {} = String.join (log.diagnostics.map fun d => d.line ++ "\n") := by
  rw [spoken, Log.isEmpty, Log.render]
  cases log.diagnostics with
  | nil => rfl
  | cons d ds =>
    have hlines := intercalate_append_newline d.line (ds.map Diagnostic.line)
    rw [List.map_cons, List.map_map] at hlines
    exact hlines

/-- What a run comes to that has nothing against its input but some findings. -/
def verdict (strict : Bool) (stdout : String) (findings : List Diagnostic.Finding) : Outcome where
  exit := if strict && !findings.isEmpty then 1 else 0
  stdout
  stderr := String.join (findings.map fun f => (if strict then "error[" else "warning[") ++ f.body ++ "\n")

theorem concluded_reportAll (strict : Bool) (stdout : String) (findings : List Diagnostic.Finding) :
    concluded "" stdout (Log.reportAll { strict } findings) = verdict strict stdout findings := by
  have hlines : ((Log.reportAll { strict } findings).diagnostics.map fun d => d.line ++ "\n") =
      findings.map fun f => (if strict then "error[" else "warning[") ++ f.body ++ "\n" := by
    rw [Log.reportAll_new, List.map_map]
    congr 1
    funext f
    rw [Function.comp_apply, Diagnostic.line_eq]
    cases strict <;> rfl
  rw [concluded, verdict, Log.hasErrors_reportAll_new, spoken_plain, hlines, String.empty_append]

theorem log_of_load {s : Surroundings} {settings : Settings} {path : String} {b : Batch}
    (h : s.load settings path = .ok b) :
    b.log = Log.reportAll {} b.log.findings ∧ ∀ f ∈ b.log.findings, f.kind = .duplicateSymbol := by
  obtain ⟨text, -, h⟩ := bind_eq_ok_iff.1 h
  exact Batch.log_ofText (mapError_eq_ok_iff.1 h)

namespace ResolveCommand

variable (c : ResolveCommand) (coloured : Bool) (batch : Batch) (root : ProtoFile)

/-- The line for one type. -/
def spelled (name : String) : String :=
  rendered (.ofFlag coloured) (batch.refer c.importTable root name) c.position ++ "\n"

/-- One more type behind the text and the log so far. -/
def spellNext (said : String × Log) (name : String) : String × Log :=
  let referred := batch.referLogged c.importTable root said.2 name
  (said.1 ++ rendered (.ofFlag coloured) referred.1 c.position ++ "\n", referred.2)

theorem spellNext_eq (said : String × Log) (name : String) :
    c.spellNext coloured batch root said name =
      (said.1 ++ c.spelled coloured batch root name, said.2.reportAll (batch.undeclaredAmong [name])) := by
  have hlog : (batch.referLogged c.importTable root said.2 name).2 =
      said.2.reportAll (batch.undeclaredAmong [name]) := by
    rw [Batch.referLogged_snd, Batch.undeclaredAmong_singleton]
    cases batch.symbols.contains name <;> rfl
  rw [spellNext, hlog, spelled, ← String.append_assoc]
  rfl

/-- The types are spelled one after the other, and what is amiss with them is noted apart from that. -/
theorem foldl_spellNext (names : List String) (said : String × Log) :
    names.foldl (c.spellNext coloured batch root) said =
      (said.1 ++ String.join (names.map (c.spelled coloured batch root)),
        said.2.reportAll (batch.undeclaredAmong names)) := by
  induction names generalizing said with
  | nil => simp [Batch.undeclaredAmong, Log.reportAll]
  | cons name names ih =>
    have hfindings : batch.undeclaredAmong (name :: names) =
        batch.undeclaredAmong [name] ++ batch.undeclaredAmong names := batch.undeclaredAmong_append [name] names
    rw [List.foldl_cons, ih, spellNext_eq, hfindings, Log.reportAll_append, List.map_cons, String.join_cons,
      String.append_assoc]

theorem spell_eq : c.spell coloured batch root =
    (String.join (c.types.map (c.spelled coloured batch root)),
      (({ strict := c.strict } : Log).takeOver batch.log).reportAll (batch.undeclaredAmong c.types)) := by
  have hrun := c.foldl_spellNext coloured batch root c.types ("", ({ strict := c.strict } : Log).takeOver batch.log)
  rw [String.empty_append] at hrun
  exact hrun

theorem readParameter_clean
    (hclean : ∀ text ∈ c.parameter?, (Parameter.parse text).2 = {}) :
    c.readParameter coloured = .ok ((Parameter.parse (c.parameter?.getD "")).1, "") := by
  have htext : (Parameter.parse (c.parameter?.getD "")).2 = {} := by
    cases hparameter : c.parameter? with
    | none => decide
    | some text => exact hclean text hparameter
  have hread : (Parameter.read (c.parameter?.getD "")).2 = [] := Log.reportAll_eq_self_iff.1 htext
  rw [readParameter]
  split
  · simp [Parameter.parseStrict, Parameter.parse, hread]
  · simp [htext, spoken, Log.isEmpty]

theorem run_rejected (s : Surroundings) {text : String} (htext : text ∈ c.parameter?)
    (hflawed : (Parameter.parse text).2 ≠ {}) (hstrict : c.strict = true) :
    (c.run s).exit = 1 ∧ (c.run s).stdout = "" := by
  have hread : (Parameter.read text).2 ≠ [] := fun hnone => hflawed (Log.reportAll_eq_self_iff.2 hnone)
  have hparameter : c.parameter?.getD "" = text := by
    rw [Option.mem_def.1 htext]
    rfl
  simp [run, readParameter, hstrict, hparameter, Parameter.parseStrict, hread, failed]

end ResolveCommand

namespace Command

/-- The parameter that a command is given, which only the references depend on. -/
def parameter? : Command → Option String
  | .symbols _ => none
  | .resolve c => c.parameter?

/-- The batch that a command works on, or why it cannot be loaded or lacks the file that the command is about. -/
def opened (c : Command) (s : Surroundings) : Except String Batch :=
  match c with
  | .symbols c => (s.load {} c.batch).mapError LoadError.message
  | .resolve c =>
    match s.load (Parameter.parse (c.parameter?.getD "")).1 c.batch with
    | .error error => .error error.message
    | .ok batch => ((batch.findFile c.file).mapError Batch.Fault.message).map fun _ => batch

/-- All that a command finds amiss: what its batch has found, and then each type that nothing declares. -/
def findings (c : Command) (batch : Batch) : List Diagnostic.Finding :=
  match c with
  | .symbols _ => batch.log.findings
  | .resolve c => batch.log.findings ++ batch.undeclaredAmong c.types

variable {s : Surroundings} {c : Command} {batch : Batch}

theorem root_of_opened {c : ResolveCommand} (h : (resolve c).opened s = .ok batch) :
    s.load (Parameter.parse (c.parameter?.getD "")).1 c.batch = .ok batch ∧
      ∃ root, batch.findFile c.file = .ok root := by
  rw [opened] at h
  cases hload : s.load (Parameter.parse (c.parameter?.getD "")).1 c.batch with
  | error error =>
    rw [hload] at h
    cases h
  | ok loaded =>
    simp only [hload] at h
    cases hroot : loaded.findFile c.file with
    | error fault =>
      rw [hroot] at h
      cases h
    | ok root =>
      rw [hroot] at h
      cases h
      exact ⟨rfl, root, hroot⟩

theorem load_of_opened (h : c.opened s = .ok batch) : ∃ settings path, s.load settings path = .ok batch := by
  cases c with
  | symbols c => exact ⟨_, _, mapError_eq_ok_iff.1 h⟩
  | resolve c => exact ⟨_, _, (root_of_opened h).1⟩

theorem kind_of_mem_findings (h : c.opened s = .ok batch) {f : Diagnostic.Finding} (hf : f ∈ c.findings batch) :
    f.kind = .duplicateSymbol ∨ f.kind = .unknownType := by
  obtain ⟨settings, path, hload⟩ := load_of_opened h
  have hkind := (log_of_load hload).2
  cases c with
  | symbols c => exact Or.inl (hkind f hf)
  | resolve c =>
    rcases List.mem_append.1 hf with hf | hf
    · exact Or.inl (hkind f hf)
    · obtain ⟨name, -, rfl⟩ := List.mem_map.1 hf
      exact Or.inr rfl

theorem run_withStrict_resolve {c : ResolveCommand} (hclean : ∀ text ∈ c.parameter?, (Parameter.parse text).2 = {})
    (strict : Bool) :
    ((resolve c).withStrict strict).run s =
      { c with strict }.runWith s (Parameter.parse (c.parameter?.getD "")).1 "" := by
  have hparameter := { c with strict }.readParameter_clean (c.colour.isOn s.terminal) hclean
  rw [withStrict, run, ResolveCommand.run, hparameter]

theorem run_withStrict_of_error {message : String} (hclean : ∀ text ∈ c.parameter?, (Parameter.parse text).2 = {})
    (h : c.opened s = .error message) (strict : Bool) :
    (c.withStrict strict).run s = failed "" message := by
  cases c with
  | symbols c =>
    rw [withStrict, run, SymbolsCommand.run]
    rw [opened] at h
    cases hload : s.load {} c.batch with
    | error error =>
      rw [hload] at h
      cases h
      rfl
    | ok batch =>
      rw [hload] at h
      cases h
  | resolve c =>
    rw [run_withStrict_resolve hclean, ResolveCommand.runWith]
    rw [opened] at h
    cases hload : s.load (Parameter.parse (c.parameter?.getD "")).1 c.batch with
    | error error =>
      rw [hload] at h
      cases h
      rfl
    | ok batch =>
      simp only [hload] at h ⊢
      cases hroot : batch.findFile c.file with
      | error fault =>
        rw [hroot] at h
        cases h
        rfl
      | ok root =>
        rw [hroot] at h
        cases h

theorem run_withStrict_of_ok (hclean : ∀ text ∈ c.parameter?, (Parameter.parse text).2 = {})
    (h : c.opened s = .ok batch) :
    ∃ stdout, ∀ strict, (c.withStrict strict).run s = verdict strict stdout (c.findings batch) := by
  obtain ⟨settings, path, hload⟩ := load_of_opened h
  have hlog := (log_of_load hload).1
  cases c with
  | symbols c =>
    refine ⟨c.output (c.colour.isOn s.terminal) batch, fun strict => ?_⟩
    have hload : s.load {} c.batch = .ok batch := mapError_eq_ok_iff.1 h
    rw [withStrict, run, SymbolsCommand.run, hload, findings, ← concluded_reportAll,
      ← Log.takeOver_reportAll, ← hlog]
    rfl
  | resolve c =>
    obtain ⟨hload, root, hroot⟩ := root_of_opened h
    refine ⟨String.join (c.types.map (c.spelled (c.colour.isOn s.terminal) batch root)), fun strict => ?_⟩
    rw [run_withStrict_resolve hclean, ResolveCommand.runWith]
    simp only [hload, hroot]
    rw [ResolveCommand.spell_eq, findings, ← concluded_reportAll, Log.reportAll_append,
      ← Log.takeOver_reportAll, ← hlog]
    rfl

theorem run_withStrict_of_flawed {text : String} (htext : text ∈ c.parameter?)
    (hflawed : (Parameter.parse text).2 ≠ {}) :
    ((c.withStrict true).run s).exit = 1 ∧ ((c.withStrict true).run s).stdout = "" := by
  cases c with
  | symbols c => cases htext
  | resolve c => exact ResolveCommand.run_rejected { c with strict := true } s htext hflawed rfl

end Command

/-- The flag for strictness changes nothing but the verdict: a finding is an error instead of a warning, and
one is enough to fail. A parameter with flaws alone is refused before any output is written. -/
theorem run_withStrict (s : Surroundings) {words : List String} {c : Command} (hparse : Command.parse words = .ok c) :
    (c.isStrict = false → ∃ name rest, words = name :: rest ∧
      Command.parse (name :: "--strict" :: rest) = .ok (c.withStrict true)) ∧
    (c.isStrict = true → ∃ front back, words = front ++ "--strict" :: back ∧
      Command.parse (front ++ back) = .ok (c.withStrict false)) ∧
    ∀ lenient flagged, Command.parse lenient = .ok (c.withStrict false) →
      Command.parse flagged = .ok (c.withStrict true) →
      ((∀ text ∈ c.parameter?, (Parameter.parse text).2 = {}) →
        (run s flagged).stdout = (run s lenient).stdout ∧
        (∀ message, c.opened s = .error message →
          run s lenient = ⟨1, "", "error: " ++ message ++ "\n"⟩ ∧
          run s flagged = ⟨1, "", "error: " ++ message ++ "\n"⟩) ∧
        ∀ batch, c.opened s = .ok batch →
          (run s lenient).exit = 0 ∧ (run s flagged).exit = (if c.findings batch = [] then 0 else 1) ∧
          (∀ f ∈ c.findings batch, f.kind = .duplicateSymbol ∨ f.kind = .unknownType) ∧
          (run s lenient).stderr = String.join ((c.findings batch).map fun f => "warning[" ++ f.body ++ "\n") ∧
          (run s flagged).stderr = String.join ((c.findings batch).map fun f => "error[" ++ f.body ++ "\n")) ∧
      ∀ text ∈ c.parameter?, (Parameter.parse text).2 ≠ {} →
        (run s flagged).exit = 1 ∧ (run s flagged).stdout = "" := by
  obtain ⟨hadded, htaken⟩ := Command.exists_parse_withStrict hparse
  refine ⟨hadded, htaken, fun lenient flagged hlenient hflagged => ?_⟩
  have hlenientRun : run s lenient = (c.withStrict false).run s := by rw [run, hlenient]
  have hflaggedRun : run s flagged = (c.withStrict true).run s := by rw [run, hflagged]
  rw [hlenientRun, hflaggedRun]
  refine ⟨fun hclean => ?_, fun text htext hflawed => Command.run_withStrict_of_flawed htext hflawed⟩
  cases hopened : c.opened s with
  | error message =>
    have hfailed : ∀ strict, (c.withStrict strict).run s = ⟨1, "", "error: " ++ message ++ "\n"⟩ := by
      intro strict
      rw [Command.run_withStrict_of_error hclean hopened, failed, String.empty_append]
    refine ⟨by rw [hfailed, hfailed], ?_, fun _ h => nomatch h⟩
    rintro _ ⟨⟩
    exact ⟨hfailed false, hfailed true⟩
  | ok batch =>
    obtain ⟨stdout, hverdict⟩ := Command.run_withStrict_of_ok hclean hopened
    refine ⟨by rw [hverdict, hverdict]; rfl, fun _ h => (nomatch h), ?_⟩
    rintro _ ⟨⟩
    rw [hverdict, hverdict]
    refine ⟨rfl, ?_, fun f hf => Command.kind_of_mem_findings hopened hf, rfl, rfl⟩
    rw [verdict]
    cases c.findings batch <;> simp

/-- An enumeration that is declared twice and a type that is not declared at all. -/
theorem run_withStrict_flawed :
    let file : ProtoFile := { name := "f", package := "p", enums := [{ name := "X" }, { name := "X" }] }
    let s : Surroundings := { read := fun _ => .ok (FileSet.print ⟨[file]⟩).toByteArray }
    let c : Command := .resolve { batch := "-", file := "f", types := [".p.Y"] }
    let lenient := ["resolve", "-", "--file=f", ".p.Y"]
    let flagged := ["resolve", "-", "--file=f", ".p.Y", "--strict"]
    Command.parse lenient = .ok c ∧ Command.parse flagged = .ok (c.withStrict true) ∧
      (c.opened s).toOption.map c.findings = some [Batch.duplicate "p.X" "f" "f", Batch.undeclared ".p.Y"] ∧
      (run s lenient).stdout = "Y\n" ∧ (run s flagged).stdout = "Y\n" ∧
      (run s lenient).exit = 0 ∧ (run s flagged).exit = 1 := by
  intro file s c lenient flagged
  have hlenient : Command.parse lenient = .ok c := rfl
  have hflagged : Command.parse flagged = .ok (c.withStrict true) := rfl
  obtain ⟨hfindings, hstdout⟩ : (c.opened s).toOption.map c.findings =
      some [Batch.duplicate "p.X" "f" "f", Batch.undeclared ".p.Y"] ∧ (run s lenient).stdout = "Y\n" := by
    decide +kernel
  have hclean : ∀ text ∈ c.parameter?, (Parameter.parse text).2 = {} := fun _ h => nomatch h
  obtain ⟨hsame, -, hopened⟩ := ((run_withStrict s hlenient).2.2 lenient flagged hlenient hflagged).1 hclean
  refine ⟨hlenient, hflagged, hfindings, hstdout, hsame.trans hstdout, ?_⟩
  cases hbatch : c.opened s with
  | error message =>
    rw [hbatch] at hfindings
    cases hfindings
  | ok batch =>
    obtain ⟨hexit, hverdict, -⟩ := hopened batch hbatch
    rw [hbatch] at hfindings
    have hfound : c.findings batch ≠ [] := by
      rw [Option.some.inj hfindings]
      exact List.cons_ne_nil _ _
    rw [if_neg hfound] at hverdict
    exact ⟨hexit, hverdict⟩

end CommandLine
end ProtoLink
