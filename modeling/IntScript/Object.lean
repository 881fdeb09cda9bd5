import IntScript.Text.CodePoint
import IntScript.Text.Numeral

/-!
# Objects

A slot holds one integer or an array of integers. An object has a numeric form, the decimal
numerals of its integers, and a text, the characters its integers are the codes of.
-/

namespace IntScript

inductive Kind where
  | int | array
  deriving DecidableEq, Repr

namespace Kind

def all : List Kind := [int, array]

def name : Kind → String
  | int => "INT"
  | array => "ARRAY"

end Kind

inductive Object where
  | int (value : Int64)
  | array (values : List Int64)
  deriving DecidableEq, Repr

namespace Object

def kind : Object → Kind
  | int _ => .int
  | array _ => .array

/-- The numeric form, with a blank between the integers of an array. -/
def numerals : Object → String
  | int value => Text.decimal value
  | array values => Text.decimals " " values

/-- The text whose characters have the integers as codes, if the kind of object has a text. -/
def text? : Object → Option String
  | int value => some (Text.ofCodes [value])
  | array values => some (Text.ofCodes values)

/-- An integer is true unless it is zero, an array unless it is empty. -/
def isTrue : Object → Bool
  | int value => value != 0
  | array values => !values.isEmpty

end Object

end IntScript
