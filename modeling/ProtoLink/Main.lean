import ProtoLink.CommandLine.Run

/-! The program: reads the arguments and the batch, and writes what comes of them. -/
namespace ProtoLink

open CommandLine

/-- The error number behind a failed call to the system. -/
def systemNumber : IO.Error → Nat
  | .noFileOrDirectory _ code _ => code.toNat
  | .permissionDenied _ code _ => code.toNat
  | .inappropriateType _ code _ => code.toNat
  | .invalidArgument _ code _ => code.toNat
  | .resourceExhausted _ code _ => code.toNat
  | .otherError code _ => code.toNat
  | _ => 5

/-- Reads all of standard input. -/
partial def readStream (stream : IO.FS.Stream) (read : ByteArray) : IO ByteArray := do
  let chunk ← stream.read 65536
  if chunk.isEmpty then return read else readStream stream (read ++ chunk)

def readSource : Source → IO ByteArray
  | .standardInput => do readStream (← IO.getStdin) .empty
  | .file path => IO.FS.readBinFile path

/-- What a command reads. -/
def fetch (source : Source) : IO (Except ReadFailure ByteArray) := do
  match ← (readSource source).toBaseIO with
  | .ok bytes => return .ok bytes
  | .error error => return .error (.system (systemNumber error))

/-- Whether both outputs go to a terminal. -/
def onTerminal : IO Bool := do
  return (← (← IO.getStdout).isTty) && (← (← IO.getStderr).isTty)

/-- The outcome of a command. Nothing is read for one that is refused by its parameter. -/
def perform (command : Command) : IO Outcome := do
  let terminal ← onTerminal
  let early := match command with
    | .resolve c => (c.readParameter (c.colour.isOn terminal)).toOption.isNone
    | .symbols _ => false
  let content ← if early then pure (.error .notText) else fetch command.source
  return command.run ⟨fun _ => content, terminal⟩

end ProtoLink

def main (words : List String) : IO UInt32 := do
  let outcome ← match ProtoLink.CommandLine.Command.parse words with
    | .ok command => ProtoLink.perform command
    | .error halt => pure halt.outcome
  (← IO.getStdout).putStr outcome.stdout
  (← IO.getStderr).putStr outcome.stderr
  return outcome.exit.toUInt32
