import IntScript.Script.Basic
import IntScript.Text.Blank
import IntScript.Text.Numeral

/-!
# Source text

Every line of the source text is one statement. The tokens of a line are its words up to the first
semicolon, which starts a comment. A word that is no numeral of a 64-bit integer makes the whole
text invalid; the first such word is reported.
-/

namespace IntScript

/-- A word that is no numeral, and the line it stands on. -/
structure ParseError where
  line : Nat
  token : String
  deriving DecidableEq, Repr

def ParseError.message (e : ParseError) : String :=
  "line " ++ toString e.line ++ ": invalid token '" ++ e.token ++ "'"

namespace Script

/-- The part of a line before its comment. -/
def beforeComment (line : List Char) : List Char :=
  line.takeWhile fun c => c != ';'

/-- The integers of a line, or its first word that is no numeral. -/
def tokenize (line : List Char) : Except (List Char) (List Int64) :=
  (Text.words (beforeComment line)).mapM fun word =>
    match Text.numeral? word with
    | some n => .ok n
    | none => .error word

/-- The statement on the line with the given number. -/
def parseLine (line : List Char) (number : Nat) : Except ParseError Statement :=
  match tokenize line with
  | .ok tokens => .ok ⟨number, tokens⟩
  | .error word => .error ⟨number, String.ofList word⟩

/-- One statement a line, numbered from one. -/
def parseLines (lines : List (List Char)) : Except ParseError (List Statement) :=
  (lines.zipIdx 1).mapM fun (line, number) => parseLine line number

/-- The script a source text spells. -/
def parse (text : String) : Except ParseError Script :=
  (parseLines (Text.lines text.toList)).map fun statements => ⟨statements.toArray⟩

end Script

end IntScript
