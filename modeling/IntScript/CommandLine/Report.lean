import IntScript.CommandLine.Arguments
import IntScript.CommandLine.Files
import IntScript.Instruction.Listing
import IntScript.Machine.Run

/-!
# Reports

What each command prints and the exit code it ends with. Exit code 1 stands for a script that
cannot be read, listed or run to its end, and 2 for a command line that cannot be understood. A
finished run passes its status on as the exit code, modulo 256; a status other than zero never
becomes exit code zero.
-/

namespace IntScript.CommandLine

structure Report where
  code : Nat := 0
  stdout : String := ""
  stderr : String := ""
  deriving DecidableEq, Repr

namespace Report

/-- A failure with one line of explanation. -/
def failure (explanation : String) : Report :=
  { code := 1, stderr := explanation ++ "\n" }

/-- One line of output. -/
def line (text : String) : Report :=
  { stdout := text ++ "\n" }

end Report

/-! ## Scripts -/

/-- The text in a file. -/
def decodeText (contents : Except FileError ByteArray) : Except FileError String :=
  match contents with
  | .error error => .error error
  | .ok bytes =>
    match String.fromUTF8? bytes with
    | some text => .ok text
    | none => .error .notText

/-- The script in a file, or the report of what is wrong with it. -/
def loadScript (path : String) (contents : Except FileError ByteArray) : Except Report Script :=
  match decodeText contents with
  | .error error =>
    .error (.failure ("error: cannot read '" ++ path ++ "': " ++ error.reason))
  | .ok text =>
    match Script.parse text with
    | .error error => .error (.failure ("error: " ++ error.message))
    | .ok script => .ok script

/-! ## Running -/

/-- The exit code for a status. -/
def exitCode (status : Int64) : Nat :=
  if status = 0 then 0
  else if status.toInt % 256 = 0 then 255
  else (status.toInt % 256).toNat

/-- The report of a run that has written `written`. -/
def runReport (written : String) : Outcome → Report
  | .finished status =>
    { code := exitCode status
      stdout := written ++ "Program finished with status code " ++ Text.decimal status ++ "\n" }
  | .failed error =>
    { code := 1, stdout := written, stderr := "runtime error: " ++ error.message ++ "\n" }

/-- Runs a program on the bytes of the standard input. -/
def runProgram (fuel : Nat) (program : Program) (stdin : List UInt8) : Option Report :=
  let (outcome?, m) := program.run fuel { host := ({ unread := stdin } : Console) }
  outcome?.map (runReport m.host.written)

/-! ## Listing -/

/-- Right-aligned in four columns. -/
def lineNumber (line : Nat) : String :=
  let digits := toString line
  "".pushn ' ' (4 - digits.length) ++ digits

/-- The line of a statement in the listing. -/
def listingLine? (s : Statement) : Option String :=
  match Instruction.decode s.tokens with
  | .ok (some i) => some (lineNumber s.line ++ ": " ++ i.listing)
  | _ => none

/-- The line of a malformed statement among the errors. -/
def errorLine? (s : Statement) : Option String :=
  match Instruction.decode s.tokens with
  | .error error => some ("error: line " ++ toString s.line ++ ": " ++ error.message)
  | .ok _ => none

/-- A text with one line for each item. -/
def textOfLines (lines : List String) : String :=
  String.join (lines.map fun line => line ++ "\n")

/-- The listing of a script, with the malformed statements among the errors. -/
def listReport (script : Script) : Report :=
  let statements := script.statements.toList
  let errors := statements.filterMap errorLine?
  { code := if errors.isEmpty then 0 else 1
    stdout := textOfLines (statements.filterMap listingLine?)
    stderr := textOfLines errors }

/-- The listing of the script in a file. -/
def listFileReport (path : String) (contents : Except FileError ByteArray) : Report :=
  match loadScript path contents with
  | .error report => report
  | .ok script => listReport script

/-! ## Commands -/

/-- The character codes of a text. -/
def encodeReport (text : String) : Report :=
  .line (Text.decimals " " (Text.codes text))

def versionReport : Report :=
  .line "numscript 0.1.0"

def helpText : HelpTopic → List String
  | .overview =>
    ["Interpreter for NumScript integer-statement scripts",
      "",
      "Usage: numscript <COMMAND>",
      "",
      "Commands:",
      "  run     Execute a script on stdin/stdout",
      "  list    Print each statement in mnemonic form",
      "  encode  Print the character codes of a string",
      "  help    Print this message or the help of the given subcommand(s)",
      "",
      "Options:",
      "  -h, --help     Print help",
      "  -V, --version  Print version"]
  | .verb .run =>
    ["Execute a script on stdin/stdout",
      "",
      "Usage: numscript run [OPTIONS] <SCRIPT>",
      "",
      "Arguments:",
      "  <SCRIPT>  Script file",
      "",
      "Options:",
      "      --scoped-calls  Give every label call its own scope, released on return",
      "  -h, --help          Print help"]
  | .verb .list =>
    ["Print each statement in mnemonic form",
      "",
      "Usage: numscript list <SCRIPT>",
      "",
      "Arguments:",
      "  <SCRIPT>  Script file",
      "",
      "Options:",
      "  -h, --help  Print help"]
  | .verb .encode =>
    ["Print the character codes of a string",
      "",
      "Usage: numscript encode <TEXT>",
      "",
      "Arguments:",
      "  <TEXT>  Text to encode",
      "",
      "Options:",
      "  -h, --help  Print help"]
  | .help =>
    ["Print this message or the help of the given subcommand(s)",
      "",
      "Usage: numscript help [COMMAND]...",
      "",
      "Arguments:",
      "  [COMMAND]...  Print help for the subcommand(s)"]

def helpReport (topic : HelpTopic) : Report :=
  { stdout := textOfLines (helpText topic) }

def usageReport (error : UsageError) : Report :=
  { code := 2
    stderr := textOfLines
      ["error: " ++ error.message, "", "Usage: numscript <COMMAND>", "",
        "For more information, try '--help'."] }

/-- The report of a command in a directory. There is none if a run takes more than `fuel` rounds. -/
def Command.report (fuel : Nat) (directory : Directory) (stdin : List UInt8) :
    Command → Option Report
  | .run path scopedCalls =>
    match loadScript path (directory.read path) with
    | .error report => some report
    | .ok script => runProgram fuel { script, config := { scopedCalls } } stdin
  | .list path => some (listFileReport path (directory.read path))
  | .encode text => some (encodeReport text)

def Invocation.report (fuel : Nat) (directory : Directory) (stdin : List UInt8) :
    Invocation → Option Report
  | .command c => c.report fuel directory stdin
  | .version => some versionReport
  | .help topic => some (helpReport topic)

end IntScript.CommandLine
