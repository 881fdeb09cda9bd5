/-!
# Command lines

The first argument names a command; the rest belong to the command and are read from left to right.
An argument that starts with a hyphen is an option, unless it is a lone hyphen or follows the
argument `--`. The first argument that does not fit is reported.
-/

namespace IntScript.CommandLine

inductive Command where
  | run (path : String) (scopedCalls : Bool)
  | list (path : String)
  | encode (text : String)
  deriving DecidableEq, Repr

inductive Verb where
  | run | list | encode
  deriving DecidableEq, Repr

namespace Verb

def name : Verb → String
  | run => "run"
  | list => "list"
  | encode => "encode"

def ofName? (name : String) : Option Verb :=
  [run, list, encode].find? fun verb => verb.name == name

/-- The name of the value the command takes. -/
def valueName : Verb → String
  | run | list => "<SCRIPT>"
  | encode => "<TEXT>"

/-- A path has at least one character; a text may have none. -/
def acceptsEmptyValue : Verb → Bool
  | run | list => false
  | encode => true

def acceptsScopedCalls : Verb → Bool
  | run => true
  | list | encode => false

end Verb

inductive HelpTopic where
  | overview
  | verb (verb : Verb)
  | help
  deriving DecidableEq, Repr

/-- What a command line asks for. -/
inductive Invocation where
  | command (command : Command)
  | version
  | help (topic : HelpTopic)
  deriving DecidableEq, Repr

inductive UsageError where
  | noCommand
  | unknownCommand (name : String)
  | unexpectedArgument (arg : String)
  | repeatedOption (option : String)
  | emptyValue (name : String)
  | missingValue (name : String)
  deriving DecidableEq, Repr

def UsageError.message : UsageError → String
  | .noCommand => "a command is required"
  | .unknownCommand name => "unrecognized subcommand '" ++ name ++ "'"
  | .unexpectedArgument arg => "unexpected argument '" ++ arg ++ "' found"
  | .repeatedOption option => "the argument '" ++ option ++ "' cannot be used multiple times"
  | .emptyValue name => "a value is required for '" ++ name ++ "' but none was supplied"
  | .missingValue name => "the following required arguments were not provided: " ++ name

def scopedCallsOption : String := "--scoped-calls"

def isOption (arg : String) : Bool :=
  match arg.toList with
  | '-' :: _ :: _ => true
  | _ => false

/-- Whether an argument is the long option, or a cluster of short ones that starts with `short`. -/
def isFlag (short : Char) (long : String) (arg : String) : Bool :=
  arg == long ||
    match arg.toList with
    | '-' :: c :: _ => c == short
    | _ => false

def asksForHelp (arg : String) : Bool := isFlag 'h' "--help" arg

def asksForVersion (arg : String) : Bool := isFlag 'V' "--version" arg

/-- What has been read of the arguments of a command. -/
structure Arguments where
  value : Option String := none
  scopedCalls : Bool := false
  /-- Whether `--` has been read, after which there are no options. -/
  optionsEnded : Bool := false

namespace Arguments

/-- Takes an argument as the value of the command. -/
def takeValue (verb : Verb) (read : Arguments) (arg : String) : Except UsageError Arguments :=
  if read.value.isSome then .error (.unexpectedArgument arg)
  else if arg.isEmpty && !verb.acceptsEmptyValue then .error (.emptyValue verb.valueName)
  else .ok { read with value := some arg }

/-- Takes an option other than a request for help. -/
def takeOption (verb : Verb) (read : Arguments) (arg : String) : Except UsageError Arguments :=
  if arg == scopedCallsOption && verb.acceptsScopedCalls then
    if read.scopedCalls then .error (.repeatedOption arg)
    else .ok { read with scopedCalls := true }
  else .error (.unexpectedArgument arg)

/-- The command, once all arguments have been read. -/
def command (verb : Verb) (read : Arguments) : Except UsageError Command :=
  match read.value with
  | none => .error (.missingValue verb.valueName)
  | some value =>
    .ok <|
      match verb with
      | .run => .run value read.scopedCalls
      | .list => .list value
      | .encode => .encode value

/-- Reads the arguments that are left. -/
def parse (verb : Verb) (read : Arguments) : List String → Except UsageError Invocation
  | [] => (read.command verb).map .command
  | arg :: rest =>
    if read.optionsEnded || !isOption arg then do
      parse verb (← read.takeValue verb arg) rest
    else if arg == "--" then
      parse verb { read with optionsEnded := true } rest
    else if asksForHelp arg then
      .ok (.help (.verb verb))
    else do
      parse verb (← read.takeOption verb arg) rest

end Arguments

def HelpTopic.ofName? (name : String) : Option HelpTopic :=
  if name == "help" then some .help else (Verb.ofName? name).map .verb

/-- The topic the arguments of the command `help` name. No command has commands of its own. -/
def HelpTopic.parse : List String → Except UsageError HelpTopic
  | [] => .ok .overview
  | name :: rest =>
    match HelpTopic.ofName? name, rest with
    | some topic, [] => .ok topic
    | some _, surplus :: _ => .error (.unknownCommand surplus)
    | none, _ => .error (.unknownCommand name)

/-- What the arguments of the program ask for. -/
def Invocation.parse : List String → Except UsageError Invocation
  | [] => .error .noCommand
  | arg :: rest =>
    match Verb.ofName? arg with
    | some verb => Arguments.parse verb {} rest
    | none =>
      if arg == "help" then (HelpTopic.parse rest).map .help
      else if asksForVersion arg then .ok .version
      else if asksForHelp arg then .ok (.help .overview)
      else if isOption arg then .error (.unexpectedArgument arg)
      else .error (.unknownCommand arg)

end IntScript.CommandLine
