import ProtoLink.Batch.Listing
import ProtoLink.Batch.Opening
import ProtoLink.CommandLine.Reader
import ProtoLink.Diagnostic.Rendering
import ProtoLink.Settings.Parameter
import ProtoLink.TypeScript.Node

/-! What a command line comes to: what is written to the two outputs, and the exit code. -/
namespace ProtoLink.CommandLine

/-- The result of a run. -/
structure Outcome where
  exit : Nat := 0
  stdout : String := ""
  stderr : String := ""
deriving DecidableEq, Repr, Inhabited

/-- Where a batch is read from. -/
inductive Source where
  | standardInput
  | file (path : String)
deriving DecidableEq, Repr, Inhabited

/-- A dash stands for standard input. -/
def Source.ofPath (path : String) : Source := if path = "-" then .standardInput else .file path

/-- Why a source could not be read: the system refused, with its error number, or it holds no text. -/
inductive ReadFailure where
  | system (number : Nat)
  | notText
deriving DecidableEq, Repr, Inhabited

/-- What an error number of the system means. -/
def systemText : Nat → String
  | 1 => "Operation not permitted"
  | 2 => "No such file or directory"
  | 5 => "Input/output error"
  | 13 => "Permission denied"
  | 20 => "Not a directory"
  | 21 => "Is a directory"
  | 22 => "Invalid argument"
  | 24 => "Too many open files"
  | 36 => "File name too long"
  | 40 => "Too many levels of symbolic links"
  | number => "Unknown error " ++ toString number

def ReadFailure.message : ReadFailure → String
  | .system number => systemText number ++ " (os error " ++ toString number ++ ")"
  | .notText => "stream did not contain valid UTF-8"

/-- Why there is no batch to work on. -/
inductive LoadError where
  | unreadable (source : Source) (failure : ReadFailure)
  | batch (fault : Batch.Fault)
deriving DecidableEq, Repr

def LoadError.message : LoadError → String
  | .unreadable .standardInput failure => "failed to read stdin: " ++ failure.message
  | .unreadable (.file path) failure => "failed to read '" ++ path ++ "': " ++ failure.message
  | .batch fault => fault.message

/-- What a run finds around it: what can be read, and whether the outputs go to a terminal. -/
structure Surroundings where
  read : Source → Except ReadFailure ByteArray
  terminal : Bool := false

namespace Surroundings

/-- The text of a source. -/
def text (s : Surroundings) (source : Source) : Except ReadFailure String := do
  let bytes ← s.read source
  match String.fromUTF8? bytes with
  | some text => return text
  | none => throw .notText

/-- The batch that a path leads to. -/
def load (s : Surroundings) (settings : Settings) (path : String) : Except LoadError Batch := do
  let source := Source.ofPath path
  let text ← (s.text source).mapError (.unreadable source)
  (Batch.ofText settings text).mapError .batch

end Surroundings

/-- Diagnostics as they are written to the error output: nothing at all if there are none. -/
def spoken (log : Log) (view : Diagnostic.View) : String :=
  if log.isEmpty then "" else log.render view ++ "\n"

/-- A run that ends with an error, after what was written to the error output before. -/
def failed (before message : String) : Outcome :=
  { exit := 1, stderr := before ++ "error: " ++ message ++ "\n" }

/-- A run that ends with what it has to say. It has failed if that holds an error. -/
def concluded (before stdout : String) (log : Log) : Outcome :=
  { exit := if log.hasErrors then 1 else 0, stdout, stderr := before ++ spoken log {} }

namespace SymbolsCommand

/-- What is written for a batch. -/
def output (c : SymbolsCommand) (coloured : Bool) (batch : Batch) : String :=
  if c.json then batch.report.toIndented ++ "\n" else batch.listing (.ofFlag coloured)

def run (c : SymbolsCommand) (s : Surroundings) : Outcome :=
  match s.load {} c.batch with
  | .error error => failed "" error.message
  | .ok batch =>
    concluded "" (c.output (c.colour.isOn s.terminal) batch)
      (({ strict := c.strict } : Log).takeOver batch.log)

end SymbolsCommand

namespace ResolveCommand

/-- The text of a reference in some position. -/
def rendered (p : Palette) (r : Reference) : Position → String
  | .expression => (TypeScript.Expression.ofReference r).render p
  | .type => (TypeScript.EntityName.ofReference r).render p

def importTable (c : ResolveCommand) : Imports :=
  c.imports.foldl (fun table (path, handle) => table.insert path handle) ∅

/-- The settings of the parameter with what is said about it, or the outcome if it is refused. -/
def readParameter (c : ResolveCommand) (coloured : Bool) : Except Outcome (Settings × String) :=
  let text := c.parameter?.getD ""
  let view : Diagnostic.View := { source? := some text, coloured }
  if c.strict then
    match Parameter.parseStrict text with
    | .ok settings => .ok (settings, "")
    | .error rejection => .error (failed (spoken rejection.log view) rejection.message)
  else
    let (settings, log) := Parameter.parse text
    .ok (settings, spoken log view)

/-- Spells each type, one on a line, and notes those that no file declares. -/
def spell (c : ResolveCommand) (coloured : Bool) (batch : Batch) (root : ProtoFile) :
    String × Log :=
  let start := ({ strict := c.strict } : Log).takeOver batch.log
  c.types.foldl (fun (text, log) name =>
    let (r, log) := batch.referLogged c.importTable root log name
    (text ++ rendered (.ofFlag coloured) r c.position ++ "\n", log)) ("", start)

/-- The run behind the parameter, with what was said about that. -/
def runWith (c : ResolveCommand) (s : Surroundings) (settings : Settings) (before : String) : Outcome :=
  match s.load settings c.batch with
  | .error error => failed before error.message
  | .ok batch =>
    match batch.findFile c.file with
    | .error fault => failed before fault.message
    | .ok root =>
      let (text, log) := c.spell (c.colour.isOn s.terminal) batch root
      concluded before text log

def run (c : ResolveCommand) (s : Surroundings) : Outcome :=
  match c.readParameter (c.colour.isOn s.terminal) with
  | .error outcome => outcome
  | .ok (settings, before) => c.runWith s settings before

end ResolveCommand

/-- The source that a command reads, unless it is refused before. -/
def Command.source : Command → Source
  | .symbols c => .ofPath c.batch
  | .resolve c => .ofPath c.batch

def Command.run (s : Surroundings) : Command → Outcome
  | .symbols c => c.run s
  | .resolve c => c.run s

def Halt.outcome : Halt → Outcome
  | .help topic => { stdout := Help.text topic }
  | .usage error => { exit := 2, stderr := error.written }

/-- The outcome of a command line. -/
def run (s : Surroundings) (words : List String) : Outcome :=
  match Command.parse words with
  | .ok command => command.run s
  | .error halt => halt.outcome

end ProtoLink.CommandLine
