import ProtoLink.CommandLine.Usage
import ProtoLink.Text.Split

/-! Reading a command line. A word is an option if it starts with a dash and no `--` came before it. A value
is looked at when the next argument begins, so an unknown option counts before a bad value in front of it. -/
namespace ProtoLink.CommandLine

/-- What was given for the arguments so far. -/
structure Given where
  batch? : Option String := none
  types : List String := []
  file? : Option String := none
  imports : List (String × String) := []
  parameter? : Option String := none
  position? : Option Position := none
  colour? : Option Colour := none
  json : Bool := false
  strict : Bool := false
deriving DecidableEq, Repr, Inhabited

/-- A path and a handle around the first equals sign, neither of them empty. -/
def import? (text : String) : Option (String × String) :=
  match Text.splitOnce '=' text.toList with
  | some (path, handle) =>
    if path.isEmpty || handle.isEmpty then none else some (.ofList path, .ofList handle)
  | none => none

/-- One of a few words. An empty value counts as none. -/
def choose {α : Type} (a : Argument) (ofWord? : String → Option α) (value : String) :
    Except UsageError α :=
  match ofWord? value with
  | some choice => .ok choice
  | none => .error (if value.isEmpty then .missingValue a else .invalidValue value a)

/-- A value for an argument that may be given only once. -/
def once {α : Type} (a : Argument) (before : Option α) (value : Except UsageError α) :
    Except UsageError (Option α) :=
  if before.isSome then .error (.repeated a) else value.map some

namespace Given

/-- Takes a value for an argument. -/
def take (g : Given) (a : Argument) (value : String) : Except UsageError Given :=
  match a with
  | .batch =>
    let path := if value.isEmpty then .error (.missingValue a) else .ok value
    (once a g.batch? path).map fun batch? => { g with batch? }
  | .types => .ok { g with types := g.types ++ [value] }
  | .file => (once a g.file? (.ok value)).map fun file? => { g with file? }
  | .imported =>
    match import? value with
    | some pair => .ok { g with imports := g.imports ++ [pair] }
    | none => .error (.malformedImport value)
  | .parameter => (once a g.parameter? (.ok value)).map fun parameter? => { g with parameter? }
  | .position =>
    (once a g.position? (choose a Position.ofWord? value)).map fun position? => { g with position? }
  | .colour => (once a g.colour? (choose a Colour.ofWord? value)).map fun colour? => { g with colour? }
  | .json | .strict | .help => .ok g

/-- Raises a flag. -/
def raise (g : Given) (a : Argument) : Except UsageError Given :=
  match a with
  | .json => if g.json then .error (.repeated a) else .ok { g with json := true }
  | .strict => if g.strict then .error (.repeated a) else .ok { g with strict := true }
  | _ => .ok g

/-- The command, if all that it needs was given. -/
def finish (g : Given) : Verb → Except UsageError Command
  | .symbols =>
    match g.batch? with
    | some batch =>
      .ok (.symbols ⟨batch, g.json, g.strict, g.colour?.getD .auto⟩)
    | none => .error .missingArguments
  | .resolve =>
    match g.batch?, g.file?, g.types with
    | some batch, some file, type :: types =>
      .ok (.resolve ⟨batch, file, g.imports, g.parameter?, g.position?.getD .expression, type :: types,
        g.strict, g.colour?.getD .auto⟩)
    | _, _, _ => .error .missingArguments

end Given

/-- An argument that has begun and is not yet taken in. -/
inductive Pending where
  | nothing
  | name (argument : Argument)
  | value (argument : Argument) (text : String)
deriving DecidableEq, Repr, Inhabited

/-- A command line read up to some word. -/
structure Reading where
  given : Given := {}
  pending : Pending := .nothing
  /-- The places that are still open. The last of them takes any number of words. -/
  places : List Argument
  /-- No word is an option any more. -/
  literal : Bool := false
deriving DecidableEq, Repr, Inhabited

/-- A word as it looks, whatever options there are. -/
inductive Word where
  | separator
  | long (name : String) (value? : Option String)
  | short (letter : Char)
  | plain (text : String)
deriving DecidableEq, Repr

def Word.ofText (text : String) : Word :=
  match text.toList with
  | ['-', '-'] => .separator
  | '-' :: '-' :: body =>
    match Text.splitOnce '=' body with
    | some (name, value) => .long (.ofList name) (some (.ofList value))
    | none => .long (.ofList body) none
  | '-' :: letter :: _ => .short letter
  | _ => .plain text

namespace Reading

/-- Takes in the argument that is pending. -/
def settle (r : Reading) : Except UsageError Reading :=
  match r.pending with
  | .nothing => .ok r
  | .name a => .error (.missingValue a)
  | .value a text => (r.given.take a text).map fun given => { r with given, pending := .nothing }

/-- Reads a word that takes the next place. -/
def fill (r : Reading) (text : String) : Except UsageError Reading :=
  match r.places with
  | [] => .error (.unknownArgument text)
  | place :: rest => do
    let r ← r.settle
    if place = .types then return { r with given := ← r.given.take .types text }
    else return { r with pending := .value place text, places := rest }

/-- Reads an option by its name. -/
def readOption (verb : Verb) (r : Reading) (name : String) (value? : Option String) :
    Except Halt Reading :=
  match verb.option? name with
  | none => .error (.usage (.unknownArgument ("--" ++ name)))
  | some a =>
    match a.isFlag, value? with
    | true, some value => .error (.usage (.unexpectedValue value a))
    | true, none => do
      let r ← r.settle.mapError .usage
      if a = .help then throw (.help (.command verb))
      return { r with given := ← (r.given.raise a).mapError .usage }
    | false, some value => do
      let r ← r.settle.mapError .usage
      return { r with given := ← (r.given.take a value).mapError .usage }
    | false, none => do
      let r ← r.settle.mapError .usage
      return { r with pending := .name a }

/-- Reads a word. -/
def read (verb : Verb) (r : Reading) (text : String) : Except Halt Reading :=
  if r.literal then (r.fill text).mapError .usage
  else match Word.ofText text with
    | .separator => .ok { r with literal := true }
    | .long name value? => r.readOption verb name value?
    | .short 'h' => do
      let _ ← r.settle.mapError .usage
      throw (.help (.command verb))
    | .short letter => .error (.usage (.unknownArgument (.ofList ['-', letter])))
    | .plain text =>
      match r.pending with
      | .name a => .ok { r with pending := .value a text }
      | _ => (r.fill text).mapError .usage

end Reading

namespace Command

/-- Reads the words behind the name of a command. -/
def readArguments (verb : Verb) (words : List String) : Except Halt Command := do
  let r ← words.foldlM (Reading.read verb) { places := verb.places }
  let r ← r.settle.mapError .usage
  (r.given.finish verb).mapError .usage

/-- The topic of a word behind `help`. -/
def topic? (word : String) : Option Topic :=
  if word = "help" then some .help else (Verb.ofWord? word).map .command

/-- What comes of `help` with some words behind it. -/
def readHelp : List String → Halt
  | [] => .help .program
  | word :: rest =>
    match topic? word, rest with
    | none, _ => .usage (.unknownCommand word)
    | some topic, [] => .help topic
    | some _, next :: _ => .usage (.unknownCommand next)

/-- What comes of a first word that is not the name of a command. -/
def readStray (word : String) (rest : List String) : Halt :=
  match Word.ofText word, rest with
  | .separator, [] => .usage .missingCommand
  | .separator, next :: _ =>
    if (topic? next).isSome then .usage (.unknownArgument next) else .usage (.unknownCommand next)
  | .long "help" none, _ => .help .program
  | .long "help" (some value), _ => .usage (.unexpectedValue value .help)
  | .long name _, _ => .usage (.unknownArgument ("--" ++ name))
  | .short 'h', _ => .help .program
  | .short letter, _ => .usage (.unknownArgument (.ofList ['-', letter]))
  | .plain text, _ => .usage (.unknownCommand text)

/-- Reads a command line. -/
def parse : List String → Except Halt Command
  | [] => .error (.usage .missingCommand)
  | word :: rest =>
    if word = "help" then .error (readHelp rest)
    else match Verb.ofWord? word with
      | some verb => readArguments verb rest
      | none => .error (readStray word rest)

end Command
end ProtoLink.CommandLine
