import ProtoLink.CommandLine.Command

/-! What the program tells about itself. -/
namespace ProtoLink.CommandLine

/-- What help can be asked for. -/
inductive Topic where
  | program
  | command (verb : Verb)
  | help
deriving DecidableEq, Repr, Inhabited

namespace Verb

def about : Verb → String
  | .symbols => "Show symbols, map entries and packages of a batch"
  | .resolve => "Resolve type references from one file of a batch"

/-- How a command is called, with the indentation of that line. -/
def synopsis : Verb → String
  | .symbols => "  protots symbols <BATCH> [--json]"
  | .resolve => "protots resolve <BATCH> --file <PATH> [--dep <PATH=HANDLE>]... <TYPE>..."

def examples : Verb → List String
  | .symbols => [
      "protots symbols batch.json          # symbol table dump",
      "protots symbols batch.json --json   # as JSON",
      "protots symbols - < batch.json      # from stdin"]
  | .resolve => [
      "protots resolve batch.json --file a.proto --dep b.proto=depB .pkg.b.Bar",
      "protots resolve batch.json --file a.proto --position type .pkg.a.Foo",
      "protots resolve batch.json --file a.proto --parameter no_namespace=false .pkg.b.Bar"]

end Verb

namespace Argument

/-- The words that a value may be, the first being the one that holds if none is given. -/
def choices : Argument → List String
  | .position => Position.all.map Position.word
  | .colour => Colour.all.map Colour.word
  | _ => []

def about : Argument → String
  | .batch => "FileDescriptorSet as JSON (`-` reads stdin)"
  | .types => "Fully qualified type names, e.g. `.pkg.Foo`"
  | .file => "Path of the file being emitted, as named in the batch"
  | .imported => "Register an import: file path and the handle it is bound to"
  | .parameter => "Plugin parameter, e.g. `no_namespace=false,style=grpc-js`"
  | .position => "Render references in value (expr) or type position"
  | .json => "Output JSON"
  | .strict => "Treat warnings as errors"
  | .colour => "Colorize output"
  | .help => "Print help"

def explanation (a : Argument) : String :=
  match a.choices with
  | [] => a.about
  | default :: rest =>
    a.about ++ " [default: " ++ default ++ "] [possible values: " ++
      ", ".intercalate (default :: rest) ++ "]"

/-- The option as it stands in a list of options. Only help has a short form, which goes in front. -/
def entry (a : Argument) : String :=
  match a with
  | .help => "-h, " ++ a.label
  | _ => "    " ++ a.label

end Argument

namespace Help

def pad (width : Nat) (text : String) : String :=
  text ++ .ofList (List.replicate (width - text.length) ' ')

/-- Two columns, the second of which starts two blanks behind the longest entry of the first. -/
def columns (rows : List (String × String)) : List String :=
  let width := rows.foldl (fun width row => max width row.1.length) 0
  rows.map fun (left, right) => "  " ++ pad width left ++ "  " ++ right

def about : String := "Print this message or the help of the given subcommand(s)"

/-- Sections with an empty line between each two of them. -/
def join (sections : List (List String)) : String :=
  "\n\n".intercalate (sections.map fun lines => "\n".intercalate lines) ++ "\n"

/-- The text for a topic. -/
def text : Topic → String
  | .program => join [
      ["Cross-file type resolution for protobuf-to-TypeScript generation"],
      ["Usage: protots <COMMAND>"],
      "Commands:" :: columns (Verb.all.map (fun v => (v.word, v.about)) ++ [("help", about)]),
      "Options:" :: columns [(Argument.entry .help, Argument.about .help)]]
  | .command verb => join [
      [verb.about],
      ["Usage: " ++ verb.synopsis],
      "Arguments:" :: columns (verb.places.map fun a => (a.label, a.explanation)),
      "Options:" :: columns (verb.options.map fun a => (a.entry, a.explanation)),
      "EXAMPLES:" :: verb.examples.map fun line => "  " ++ line]
  | .help => join [
      [about],
      ["Usage: protots help [COMMAND]..."],
      "Arguments:" :: columns [("[COMMAND]...", "Print help for the subcommand(s)")]]

end Help
end ProtoLink.CommandLine
