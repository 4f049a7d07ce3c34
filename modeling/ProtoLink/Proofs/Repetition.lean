import Mathlib.Data.List.Forall2
import ProtoLink.Proofs.Loading
import ProtoLink.Proofs.Log
import ProtoLink.Proofs.Redeclaration

/-! The account of what is declared. Each declaration either brings a new symbol or is reported, with the path
that the declaration of the name before it has left. Only for the second declaration is that the first one. -/
namespace ProtoLink

namespace NameTable

variable {υ : Type}

theorem length_names (t : NameTable υ) : t.names.length = t.size := List.length_map _

theorem size_insert (t : NameTable υ) (name : String) (v : υ) :
    (t.insert name v).size = if t.contains name then t.size else t.size + 1 := by
  rw [← length_names, ← length_names, names_insert]
  simp only [contains_iff]
  split
  · rfl
  · exact List.length_append

end NameTable

namespace Message

mutual

/-- The number of the types inside a message: its enumerations, and its messages with the types inside them. -/
def typeCount : Message → Nat
  | ⟨_, _, messages, enums, _⟩ => enums.length + allTypeCount messages

/-- The number of the types among the messages of a scope and inside them. A map entry and its inside hold none. -/
def allTypeCount : List Message → Nat
  | [] => 0
  | m :: ms => if m.isMapEntry then allTypeCount ms else 1 + m.typeCount + allTypeCount ms

end

mutual

theorem length_chains : (m : Message) → m.chains.length = m.typeCount
  | ⟨_, _, messages, enums, _⟩ => by
    rw [chains, typeCount, List.length_append, List.length_map, length_allChains messages]

theorem length_allChains : (ms : List Message) → (allChains ms).length = allTypeCount ms
  | [] => rfl
  | m :: ms => by
    rw [allChains, allTypeCount]
    split
    · exact length_allChains ms
    · rw [List.length_append, List.length_cons, List.length_map, length_chains m, length_allChains ms, Nat.add_comm 1]

end

end Message

namespace ProtoFile

/-- The number of the types in a file. -/
def typeCount (f : ProtoFile) : Nat := f.enums.length + Message.allTypeCount f.messages

/-- The number of the types in some files. -/
def allTypeCount : List ProtoFile → Nat
  | [] => 0
  | f :: fs => f.typeCount + allTypeCount fs

theorem length_registrations (f : ProtoFile) : f.registrations.length = f.typeCount := by
  rw [registrations, List.length_map, chains, List.length_append, List.length_map, Message.length_allChains, typeCount]

theorem length_flatMap_registrations (files : List ProtoFile) :
    (files.flatMap registrations).length = allTypeCount files := by
  induction files with
  | nil => rfl
  | cons f files ih => rw [List.flatMap_cons, List.length_append, length_registrations, ih, allTypeCount]

end ProtoFile

namespace Log

/-- How often a kind comes in the log. -/
def countOf (log : Log) (kind : Diagnostic.Kind) : Nat := log.diagnostics.countP fun d => d.kind = kind

theorem countOf_reportAll (log : Log) {found : List Diagnostic.Finding} {kind : Diagnostic.Kind}
    (h : ∀ f ∈ found, f.kind = kind) : (log.reportAll found).countOf kind = log.countOf kind + found.length := by
  have hall : (found.map (Diagnostic.mk (if log.strict then .error else kind.severity))).countP
      (fun d => d.kind = kind) = found.length := by
    rw [List.countP_map, List.countP_eq_length]
    intro f hf
    exact decide_eq_true (h f hf)
  rw [countOf, diagnostics_reportAll, List.countP_append, ← hall]
  rfl

end Log

namespace Batch

/-- A declaration in its run: what the run has declared before it, and its own name and path. -/
structure Moment where
  before : List (String × String)
  name : String
  path : String
deriving DecidableEq, Repr

namespace Moment

/-- The moments of a run in their order. -/
def ofRun : List (String × String) → List Moment
  | [] => []
  | (name, path) :: ds => ⟨[], name, path⟩ :: (ofRun ds).map fun m => { m with before := (name, path) :: m.before }

variable (symbols : NameTable String) (m : Moment)

/-- The table by then. -/
def table : NameTable String := symbols.insertAll m.before

/-- What the run has declared before under the same name. -/
def namesakes : List (String × String) := m.before.filter fun d => unrooted d.1 = unrooted m.name

/-- The name is in the table before the run, or the run has declared it before. -/
def IsRepeated : Prop := unrooted m.name ∈ symbols.names ∨ m.namesakes ≠ []

instance : Decidable (m.IsRepeated symbols) := inferInstanceAs (Decidable (_ ∨ _))

theorem namesakes_ne_nil_iff : m.namesakes ≠ [] ↔ unrooted m.name ∈ m.before.map fun d => unrooted d.1 := by
  rw [namesakes, ne_eq, List.filter_eq_nil_iff]
  simp

theorem isRepeated_iff : m.IsRepeated symbols ↔ (m.table symbols).contains m.name = true := by
  rw [IsRepeated, namesakes_ne_nil_iff, NameTable.contains_iff, table, NameTable.mem_names_insertAll]

/-- Beside the name stands the path of its last declaration, by the run or from before. -/
theorem get?_table : (m.table symbols).get? m.name =
    (m.namesakes.getLast?.map Prod.snd).or (symbols.get? m.name) := by
  have hlast : Table.last? (m.before.map fun d => (unrooted d.1, d.2)) (unrooted m.name) =
      m.namesakes.getLast?.map Prod.snd := by
    rw [Table.last?, List.filter_map, List.getLast?_map, Option.map_map]
    rfl
  rw [NameTable.get?, table, NameTable.table_insertAll, Table.get?_insertAll, hlast]
  rfl

end Moment

variable {symbols : NameTable String}

/-! One declaration and then all -/

/-- A declaration either makes the table longer or is reported. -/
theorem size_insert_add_length_redeclared (symbols : NameTable String) (d : String × String) :
    (symbols.insert d.1 d.2).size + (redeclared symbols [d]).length = symbols.size + 1 := by
  rw [NameTable.size_insert, redeclared, NameTable.contains]
  cases symbols.get? d.1 <;> rfl

theorem size_insertAll_add_length_redeclared (symbols : NameTable String) (ds : List (String × String)) :
    (symbols.insertAll ds).size + (redeclared symbols ds).length = symbols.size + ds.length := by
  induction ds generalizing symbols with
  | nil => rfl
  | cons d ds ih =>
    have hfirst := size_insert_add_length_redeclared symbols d
    have hlater := ih (symbols.insert d.1 d.2)
    have hall : (redeclared symbols (d :: ds)).length =
        (redeclared symbols [d]).length + (redeclared (symbols.insert d.1 d.2) ds).length := by
      rw [← List.length_append]
      exact congrArg List.length (redeclared_append symbols [d] ds)
    have hrun : symbols.insertAll (d :: ds) = (symbols.insert d.1 d.2).insertAll ds := rfl
    rw [hall, hrun, List.length_cons]
    omega

/-- What is reported at a moment, if its name stands in the table by then. -/
def Reports (symbols : NameTable String) (m : Moment) (finding : Diagnostic.Finding) : Prop :=
  ∃ previous, (m.table symbols).get? m.name = some previous ∧ finding = duplicate m.name previous m.path

/-- One moment after the other is reported if its name stands in the table by then. -/
theorem forall₂_reports_contains (symbols : NameTable String) (ds : List (String × String)) :
    List.Forall₂ (Reports symbols) ((Moment.ofRun ds).filter fun m => (m.table symbols).contains m.name)
      (redeclared symbols ds) := by
  induction ds generalizing symbols with
  | nil => exact .nil
  | cons d ds ih =>
    -- what comes later finds the table as if the run began behind the first declaration
    have hlater : List.Forall₂ (Reports symbols)
        (((Moment.ofRun ds).map fun m => { m with before := d :: m.before }).filter fun m =>
          (m.table symbols).contains m.name) (redeclared (symbols.insert d.1 d.2) ds) := by
      rw [List.filter_map, List.forall₂_map_left_iff]
      exact ih (symbols.insert d.1 d.2)
    rw [Moment.ofRun, redeclared]
    cases hprevious : symbols.get? d.1 with
    | none =>
      have hnew : (Moment.table symbols ⟨[], d.1, d.2⟩).contains d.1 = false := by
        rw [NameTable.contains]
        exact congrArg Option.isSome hprevious
      rw [List.filter_cons_of_neg (by simp [hnew])]
      exact hlater
    | some previous =>
      have hknown : (Moment.table symbols ⟨[], d.1, d.2⟩).contains d.1 = true :=
        NameTable.contains_of_get?_eq_some hprevious
      rw [List.filter_cons_of_pos (by simpa using hknown)]
      exact .cons ⟨previous, hprevious, rfl⟩ hlater

theorem forall₂_reports (symbols : NameTable String) (ds : List (String × String)) :
    List.Forall₂ (Reports symbols) ((Moment.ofRun ds).filter fun m => m.IsRepeated symbols)
      (redeclared symbols ds) := by
  have hsame : ((Moment.ofRun ds).filter fun m => (m.table symbols).contains m.name) =
      (Moment.ofRun ds).filter fun m => m.IsRepeated symbols := by
    apply List.filter_congr
    intro m _
    rw [Bool.eq_iff_iff, decide_eq_true_iff]
    exact (m.isRepeated_iff symbols).symm
  rw [← hsame]
  exact forall₂_reports_contains symbols ds

variable (b : Batch) (files : List ProtoFile)

theorem log_registerAll : (b.registerAll files).1.log =
    b.log.reportAll (redeclared b.symbols (files.flatMap ProtoFile.registrations)) := by
  rw [registerAll_fst]

/-- All that is reported of declarations is of one kind. -/
theorem kind_of_mem_redeclared {ds : List (String × String)} {finding : Diagnostic.Finding}
    (h : finding ∈ redeclared symbols ds) : finding.kind = .duplicateSymbol := by
  obtain ⟨_, _, _, _, _, _, _, rfl⟩ := mem_redeclared_iff.1 h
  rfl

/-- Every declared type brings either a new symbol or a reported duplicate. The log goes on with one
diagnostic for each declaration whose name stands in the table by then, in order, and with nothing else. -/
theorem registerAll_accounted :
    let after := (b.registerAll files).1
    let moments := Moment.ofRun (files.flatMap ProtoFile.registrations)
    after.symbols.size + after.log.countOf .duplicateSymbol =
      b.symbols.size + b.log.countOf .duplicateSymbol + ProtoFile.allTypeCount files ∧
    ∃ found, after.log.diagnostics =
        b.log.diagnostics ++ found.map (Diagnostic.mk (if b.log.strict then .error else .warning)) ∧
      List.Forall₂ (Reports b.symbols) (moments.filter fun m => m.IsRepeated b.symbols) found := by
  intro after moments
  have hlog : after.log = b.log.reportAll (redeclared b.symbols (files.flatMap ProtoFile.registrations)) :=
    log_registerAll b files
  have hsymbols : after.symbols = b.symbols.insertAll (files.flatMap ProtoFile.registrations) :=
    congrArg symbols (b.registerAll_fst files)
  refine ⟨?_, _, ?_, forall₂_reports b.symbols _⟩
  · have hsize := size_insertAll_add_length_redeclared b.symbols (files.flatMap ProtoFile.registrations)
    rw [ProtoFile.length_flatMap_registrations] at hsize
    rw [hsymbols, hlog, Log.countOf_reportAll _ fun f hf => kind_of_mem_redeclared hf]
    omega
  · rw [hlog, Log.diagnostics_reportAll]
    rfl

/-! The paths in the hint -/

/-- The hint for a declaration in the place of another one. -/
def Moment.hint (m : Moment) (other : String × String) : String :=
  "first defined in `" ++ other.2 ++ "`, now in `" ++ m.path ++ "`"

/-- What a diagnostic says of a repeated declaration: the name, the path of its last namesake and its own path. -/
structure Moment.IsToldBy (m : Moment) (d : Diagnostic) : Prop where
  kind : d.kind = .duplicateSymbol
  message : d.message = "`" ++ m.name ++ "` is defined more than once"
  hints : ∃ latest, m.namesakes.getLast? = some latest ∧ d.finding.hints = [m.hint latest]

theorem isRepeated_empty_iff {m : Moment} : m.IsRepeated ∅ ↔ m.namesakes ≠ [] :=
  or_iff_right List.not_mem_nil

/-- In a new table a name stands beside the path of its last namesake. -/
theorem Reports.isToldBy {m : Moment} {finding : Diagnostic.Finding} (h : Reports ∅ m finding) (severity : Severity) :
    m.IsToldBy ⟨severity, finding⟩ := by
  obtain ⟨previous, hprevious, rfl⟩ := h
  rw [Moment.get?_table, NameTable.get?_empty, Option.or_none] at hprevious
  obtain ⟨latest, hlatest, rfl⟩ := Option.map_eq_some_iff.1 hprevious
  exact ⟨rfl, rfl, latest, hlatest, rfl⟩

/-- The hint tells the paths apart. -/
theorem Moment.hint_eq_hint_iff (m : Moment) {other another : String × String} :
    m.hint other = m.hint another ↔ other.2 = another.2 := by
  unfold hint
  rw [String.append_left_inj, String.append_left_inj, String.append_left_inj, String.append_right_inj]

/-- A run of loads into a new batch reports each repeated declaration, in order. Its hint names the file of
the last declaration before it, which is the one that declared the name first exactly if the two have one
path. -/
theorem isToldBy_loadAll (settings : Settings) (sets : List FileSet) :
    let moments := Moment.ofRun ((sets.flatMap FileSet.files).flatMap ProtoFile.registrations)
    List.Forall₂
      (fun m d => m.IsToldBy d ∧ ∀ first ∈ m.namesakes.head?,
        (d.finding.hints = [m.hint first] ↔ ∃ latest ∈ m.namesakes.getLast?, latest.2 = first.2))
      (moments.filter fun m => m.namesakes ≠ []) (loadAll { settings } sets).log.diagnostics := by
  intro moments
  have hlog : (loadAll { settings } sets).log.diagnostics =
      (redeclared ∅ ((sets.flatMap FileSet.files).flatMap ProtoFile.registrations)).map (Diagnostic.mk .warning) := by
    rw [loadAll_eq_load, log_load]
    exact congrArg Log.diagnostics (Log.reportAll_new _ false)
  have hreports := forall₂_reports ∅ ((sets.flatMap FileSet.files).flatMap ProtoFile.registrations)
  simp only [isRepeated_empty_iff] at hreports
  rw [hlog, List.forall₂_map_right_iff]
  refine hreports.imp fun m finding h => ?_
  have htold := h.isToldBy .warning
  refine ⟨htold, fun first _ => ?_⟩
  obtain ⟨latest, hlatest, hhints⟩ := htold.hints
  rw [hhints, hlatest, List.cons.injEq, and_iff_left rfl, Moment.hint_eq_hint_iff]
  simp

/-- Of three files that declare one type, the hint for the last names the second where it speaks of the first. -/
theorem hint_latest :
    let file (path : String) : ProtoFile := { name := path, package := "p", messages := [{ name := "M" }] }
    let sets : List FileSet := [⟨[file "a", file "b"]⟩, ⟨[file "c"]⟩]
    let moments := Moment.ofRun ((sets.flatMap FileSet.files).flatMap ProtoFile.registrations)
    (loadAll { settings := {} } sets).log.diagnostics.map (fun d => d.finding.hints) =
        [["first defined in `a`, now in `b`"], ["first defined in `b`, now in `c`"]] ∧
      (moments.filter fun m => m.namesakes ≠ []).map (fun m => (m.namesakes.head?.map Prod.snd, m.path)) =
        [(some "a", "b"), (some "a", "c")] := by
  decide

end Batch
end ProtoLink
