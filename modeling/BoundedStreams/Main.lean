import BoundedStreams.Arguments
import BoundedStreams.Config.Load
import BoundedStreams.Loopback

/-!
The command line. Each line of the input goes to an echo service in memory, and what comes back is
printed.
-/

namespace BoundedStreams.CommandLine

def usage : String := "usage: bounded-streams [-c|--config FILE] [-p|--port PORT] [--capacity N]"

def contentOf (path : String) : IO (Option ByteArray) := do
  try some <$> IO.FS.readBinFile path
  catch _ => return none

def configOf (a : Arguments) : IO (Except ConfigError Config) := do
  match a.file with
  | none => return .ok .standard
  | some path => return Config.ofFile (← contentOf path)

def exchangeLines (l : Loopback) : IO Unit := do
  let input ← IO.getStdin
  let output ← IO.getStdout
  let mut l := l
  repeat
    let line ← input.getLine
    if line.isEmpty then break
    let (bytes, next) := l.exchange line.toUTF8.toList
    output.write ⟨bytes.toArray⟩
    output.flush
    l := next

/-- Exit codes: 0 for success, 1 for a service that cannot start, 2 for arguments that make no sense. -/
def run (args : List String) : IO UInt32 := do
  match Arguments.ofList? args with
  | none =>
    IO.eprintln usage
    return 2
  | some a =>
    match ← configOf a with
    | .error e =>
      IO.eprintln e.message
      return 1
    | .ok c =>
      match Loopback.ofConfig (a.apply c) with
      | .error e =>
        IO.eprintln e.message
        return 1
      | .ok l =>
        exchangeLines l
        return 0

end BoundedStreams.CommandLine

def main (args : List String) : IO UInt32 := BoundedStreams.CommandLine.run args
