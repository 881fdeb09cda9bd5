import IntScript.Instruction.Decode

/-!
# Faults

A fault ends a run. The runtime error it becomes names the statement that failed.
-/

namespace IntScript

inductive Fault where
  | decode (error : DecodeError)
  | symbolRedeclared (addr : Int64)
  | symbolNotFound (addr : Int64)
  | labelNotFound (label : Int64)
  | noReturnAddress
  | wrongKind (object : Object) (expected : Kind)
  | noText (object : Object)
  | indexOutOfBounds (index : Int64) (length : Nat)
  | io (reason : String)
  deriving DecidableEq, Repr

def Fault.message : Fault → String
  | .decode error => error.message
  | .symbolRedeclared addr => "symbol " ++ Text.decimal addr ++ " redeclared"
  | .symbolNotFound addr => "symbol " ++ Text.decimal addr ++ " not found"
  | .labelNotFound label => "label " ++ Text.decimal label ++ " not found"
  | .noReturnAddress => "no label to return from"
  | .wrongKind object expected =>
    "invalid object type for object " ++ object.numerals ++ " (expected " ++ expected.name ++ ")"
  | .noText object => "no string representation for object " ++ object.numerals
  | .indexOutOfBounds index length =>
    "index " ++ Text.decimal index ++ " out of bounds (length " ++ toString length ++ ")"
  | .io reason => "i/o failure: " ++ reason

/-- The tokens of a statement as messages and journals show them. -/
def tokensText (tokens : List Int64) : String :=
  "[" ++ Text.decimals ", " tokens ++ "]"

/-- A fault together with the statement it arose in. -/
structure RuntimeError where
  line : Nat
  tokens : List Int64
  fault : Fault
  deriving DecidableEq, Repr

def RuntimeError.message (e : RuntimeError) : String :=
  e.fault.message ++ " on line " ++ toString e.line ++ ": " ++ tokensText e.tokens

end IntScript
