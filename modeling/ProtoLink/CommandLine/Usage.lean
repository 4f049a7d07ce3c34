import ProtoLink.CommandLine.Help
import ProtoLink.Text.ControlSequence

/-! What can be wrong with a command line, and how it is told. -/
namespace ProtoLink.CommandLine

inductive UsageError where
  | missingCommand
  | unknownCommand (word : String)
  | unknownArgument (text : String)
  | unexpectedValue (value : String) (argument : Argument)
  | missingValue (argument : Argument)
  | invalidValue (value : String) (argument : Argument)
  | malformedImport (value : String)
  | repeated (argument : Argument)
  | missingArguments
deriving DecidableEq, Repr

namespace UsageError

/-- What is at fault, in yellow between quotes. -/
def atFault (text : String) : String := "'\x1b[33m" ++ text ++ "\x1b[0m'"

/-- What is to be typed as it stands, in bold between quotes. -/
def literal (text : String) : String := "'\x1b[1m" ++ text ++ "\x1b[0m'"

/-- An error with its reason, and where help is to be had. -/
def report (reason : String) : String :=
  "\x1b[1m\x1b[31merror:\x1b[0m " ++ reason ++ "\n\nFor more information, try " ++ literal "--help" ++ ".\n"

/-- The message of an error, in colour. Where the command is missing, the help stands for it. -/
def coloured : UsageError → String
  | .missingCommand => Help.text .program
  | .unknownCommand word => report ("unrecognized subcommand " ++ atFault word)
  | .unknownArgument text => report ("unexpected argument " ++ atFault text ++ " found")
  | .unexpectedValue value argument =>
    report ("unexpected value " ++ atFault value ++ " for " ++ literal argument.label ++
      " found; no more were expected")
  | .missingValue argument =>
    report ("a value is required for " ++ atFault argument.label ++ " but none was supplied")
  | .invalidValue value argument =>
    report ("invalid value " ++ atFault value ++ " for " ++ literal argument.label)
  | .malformedImport value =>
    report ("invalid value " ++ atFault value ++ " for " ++ literal (Argument.label .imported) ++
      ": expected PATH=HANDLE, got `" ++ value ++ "`")
  | .repeated argument =>
    report ("the argument " ++ atFault argument.label ++ " cannot be used multiple times")
  | .missingArguments => report "the following required arguments were not provided:"

/-- The message of an error, with neither colours nor the control characters of what was typed. -/
def message (e : UsageError) : String := .ofList (Text.withoutControls .ends e.coloured.toList)

/-- The message of an error as the error output shows it, where a control sequence may go on behind layout. -/
def written (e : UsageError) : String := .ofList (Text.withoutControls .pauses e.coloured.toList)

end UsageError

/-- Why no command is run: help was asked for, or the command line is wrong. -/
inductive Halt where
  | help (topic : Topic)
  | usage (error : UsageError)
deriving DecidableEq, Repr

/-- What there is to say. -/
def Halt.message : Halt → String
  | .help topic => Help.text topic
  | .usage error => error.message

end ProtoLink.CommandLine
