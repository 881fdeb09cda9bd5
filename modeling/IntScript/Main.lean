import IntScript.CommandLine.Report

/-!
# The command-line program

Connects the commands with the file system and the standard streams. A run is carried out step by
step, so that output appears before the next line of input is asked for.
-/

namespace IntScript.CommandLine

/-- Number and description of an error of the operating system. -/
def systemError? : IO.Error → Option (UInt32 × String)
  | .otherError number description | .resourceBusy number description
  | .resourceVanished number description | .unsupportedOperation number description
  | .hardwareFault number description | .unsatisfiedConstraints number description
  | .illegalOperation number description | .protocolError number description
  | .timeExpired number description | .interrupted _ number description
  | .noFileOrDirectory _ number description | .invalidArgument _ number description
  | .permissionDenied _ number description | .resourceExhausted _ number description
  | .inappropriateType _ number description | .noSuchThing _ number description
  | .alreadyExists _ number description => some (number, description)
  | .unexpectedEof | .userError _ => none

/-- The reason why a file cannot be read. Error numbers may come with their sign changed. -/
def fileError (e : IO.Error) : FileError :=
  match systemError? e with
  | some (number, description) =>
    .system (if number < 0x80000000 then number else 0 - number).toNat description.capitalize
  | none => .notText

def readFile (path : String) : IO (Except FileError ByteArray) := do
  try
    return .ok (← IO.FS.readBinFile path)
  catch e =>
    return .error (fileError e)

/-- Prints a report and gives its exit code. -/
def emit (report : Report) : IO UInt32 := do
  IO.print report.stdout
  (← IO.getStdout).flush
  IO.eprint report.stderr
  return report.code.toUInt32

/-- Reads on until a whole line is there or the input ends. -/
partial def fetchLine (console : Console) : IO Console := do
  if console.unread.contains Console.lineFeed then
    return console
  let chunk ← (← IO.getStdin).read 4096
  if chunk.isEmpty then
    return console
  fetchLine { console with unread := console.unread ++ chunk.toList }

partial def pause (millis : Nat) : IO Unit := do
  let longest := 0xFFFFFFFF
  if millis ≤ longest then
    IO.sleep millis.toUInt32
  else
    IO.sleep longest.toUInt32
    pause (millis - longest)

/-- Prints what has been written, then waits as long as was asked for. -/
def carryOut (console : Console) : IO Console := do
  IO.print console.written
  (← IO.getStdout).flush
  console.sleeps.forM pause
  return { console with written := "", sleeps := #[] }

partial def runOnStreams (program : Program) (state : State) (console : Console) : IO UInt32 := do
  let host ← if program.awaitsInput state then fetchLine console else pure console
  match program.step { host, state } with
  | .running m => runOnStreams program m.state (← carryOut m.host)
  | .ended outcome m =>
    let _ ← carryOut m.host
    emit (runReport "" outcome)

end IntScript.CommandLine

open IntScript IntScript.CommandLine in
def main (args : List String) : IO UInt32 := do
  match Invocation.parse args with
  | .error error => emit (usageReport error)
  | .ok .version => emit versionReport
  | .ok (.help topic) => emit (helpReport topic)
  | .ok (.command (.encode text)) => emit (encodeReport text)
  | .ok (.command (.list path)) => emit (listFileReport path (← readFile path))
  | .ok (.command (.run path scopedCalls)) =>
    match loadScript path (← readFile path) with
    | .error report => emit report
    | .ok script => runOnStreams { script, config := { scopedCalls } } {} {}
