/-! The commands of the program and the arguments that they take. -/
namespace ProtoLink.CommandLine

/-- When output is coloured. -/
inductive Colour where
  | auto
  | always
  | never
deriving DecidableEq, Repr, Inhabited

namespace Colour

def word : Colour → String
  | .auto => "auto"
  | .always => "always"
  | .never => "never"

def all : List Colour := [.auto, .always, .never]

def ofWord? (word : String) : Option Colour := all.find? fun c => c.word = word

/-- Whether output is coloured, given whether it goes to a terminal. -/
def isOn (terminal : Bool) : Colour → Bool
  | .auto => terminal
  | .always => true
  | .never => false

end Colour

/-- The place in the generated code that a reference is meant for. -/
inductive Position where
  | expression
  | type
deriving DecidableEq, Repr, Inhabited

namespace Position

def word : Position → String
  | .expression => "expr"
  | .type => "type"

def all : List Position := [.expression, .type]

def ofWord? (word : String) : Option Position := all.find? fun p => p.word = word

end Position

/-- Lists what a batch declares. -/
structure SymbolsCommand where
  batch : String
  json : Bool := false
  strict : Bool := false
  colour : Colour := .auto
deriving DecidableEq, Repr, Inhabited

/-- Spells references to types as seen from one file of a batch. -/
structure ResolveCommand where
  batch : String
  file : String
  imports : List (String × String) := []
  parameter? : Option String := none
  position : Position := .expression
  types : List String
  strict : Bool := false
  colour : Colour := .auto
deriving DecidableEq, Repr, Inhabited

inductive Command where
  | symbols (command : SymbolsCommand)
  | resolve (command : ResolveCommand)
deriving DecidableEq, Repr

/-- The names of the commands. -/
inductive Verb where
  | symbols
  | resolve
deriving DecidableEq, Repr, Inhabited

namespace Verb

def word : Verb → String
  | .symbols => "symbols"
  | .resolve => "resolve"

def all : List Verb := [.symbols, .resolve]

def ofWord? (word : String) : Option Verb := all.find? fun v => v.word = word

end Verb

/-- The arguments of all commands. -/
inductive Argument where
  | batch
  | types
  | file
  | imported
  | parameter
  | position
  | json
  | strict
  | colour
  | help
deriving DecidableEq, Repr, Inhabited

namespace Argument

/-- The name behind the two dashes of an option. -/
def option? : Argument → Option String
  | .batch | .types => none
  | .file => some "file"
  | .imported => some "dep"
  | .parameter => some "parameter"
  | .position => some "position"
  | .json => some "json"
  | .strict => some "strict"
  | .colour => some "color"
  | .help => some "help"

/-- What the value of an argument is called. A flag has none. -/
def value? : Argument → Option String
  | .batch => some "<BATCH>"
  | .types => some "<TYPE>..."
  | .file => some "<PATH>"
  | .imported => some "<PATH=HANDLE>"
  | .parameter => some "<TEXT>"
  | .position => some "<POSITION>"
  | .colour => some "<WHEN>"
  | .json | .strict | .help => none

def isFlag (a : Argument) : Bool := a.value?.isNone

/-- An argument as it is shown to the user. -/
def label (a : Argument) : String :=
  match a.option?, a.value? with
  | some option, some value => "--" ++ option ++ " " ++ value
  | some option, none => "--" ++ option
  | none, some value => value
  | none, none => ""

end Argument

namespace Verb

/-- The arguments that are given by their place, in order. -/
def places : Verb → List Argument
  | .symbols => [.batch]
  | .resolve => [.batch, .types]

/-- The arguments that are given by their name, in the order in which they are explained. -/
def options : Verb → List Argument
  | .symbols => [.json, .strict, .colour, .help]
  | .resolve => [.file, .imported, .parameter, .position, .strict, .colour, .help]

/-- The option of a command with some name. -/
def option? (v : Verb) (name : String) : Option Argument :=
  v.options.find? fun a => a.option? = some name

end Verb
end ProtoLink.CommandLine
