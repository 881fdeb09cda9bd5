/-!
# Script files

A directory holds files under relative names with slashes. Reading a path walks its components from
the working directory. Every component but the last has to lead to a directory, and so has the one
before a trailing slash. Nothing is known about the world around the working directory except that
it consists of directories.
-/

namespace IntScript.CommandLine

/-- Why a file cannot be read as a text. -/
inductive FileError where
  /-- The operating system refuses, with an error number and its description. -/
  | system (number : Nat) (description : String)
  | notText
  deriving DecidableEq, Repr

namespace FileError

def notFound : FileError := system 2 "No such file or directory"

def notDirectory : FileError := system 20 "Not a directory"

def isDirectory : FileError := system 21 "Is a directory"

def reason : FileError → String
  | system number description => description ++ " (os error " ++ toString number ++ ")"
  | notText => "stream did not contain valid UTF-8"

end FileError

structure Directory where
  files : List (String × ByteArray) := []

/-- Where a walk along a path has got to. -/
inductive Place where
  /-- A directory outside the working directory. -/
  | outside
  /-- A directory, by the names that lead to it from the working directory. -/
  | directory (names : List String)
  | file (contents : ByteArray)

def pathComponents (path : String) : List String :=
  (path.toList.splitOn '/').map String.ofList

namespace Directory

/-- What stands under a list of names. -/
def place? (d : Directory) (names : List String) : Option Place :=
  match d.files.find? fun f => pathComponents f.1 == names with
  | some f => some (.file f.2)
  | none =>
    if d.files.any fun f => names.isPrefixOf (pathComponents f.1) then some (.directory names)
    else none

/-- Follows one component of a path. -/
def enter (d : Directory) (component : String) : Place → Except FileError Place
  | .file _ => .error .notDirectory
  | .outside =>
    if component == "" || component == "." || component == ".." then .ok .outside
    else .error .notFound
  | .directory names =>
    if component == "" || component == "." then .ok (.directory names)
    else if component == ".." then
      .ok (if names.isEmpty then .outside else .directory names.dropLast)
    else
      match d.place? (names ++ [component]) with
      | some place => .ok place
      | none => .error .notFound

/-- Where a path leads. -/
def walk (d : Directory) (path : String) : Except FileError Place :=
  match pathComponents path with
  | [""] => .error .notFound
  | "" :: components => components.foldlM (fun place c => d.enter c place) .outside
  | components => components.foldlM (fun place c => d.enter c place) (.directory [])

/-- The contents of the file a path leads to. -/
def read (d : Directory) (path : String) : Except FileError ByteArray :=
  match d.walk path with
  | .error error => .error error
  | .ok (.file contents) => .ok contents
  | .ok _ => .error .isDirectory

end Directory

end IntScript.CommandLine
