import IntScript.Instruction.Basic

/-!
# Listings

The mnemonic form of an instruction. A slot is written `@address`, an array in brackets.
-/

namespace IntScript

/-- An array in brackets, with a blank between its integers. -/
def bracketed (values : List Int64) : String :=
  "[" ++ Text.decimals " " values ++ "]"

def Object.listing : Object → String
  | .int value => Text.decimal value
  | .array values => bracketed values

def slotListing (addr : Int64) : String :=
  "@" ++ Text.decimal addr

/-- A literal as `write` writes it, or a slot. -/
def Operand.listing {α : Type} (write : α → String) : Operand α → String
  | .literal value => write value
  | .slot addr => slotListing addr

def Jump.listing : Jump → String
  | .goto => "GOTO"
  | .scan => "SCAN"

def InputFormat.listing : InputFormat → String
  | .int => "INT"
  | .ints => "INTS"
  | .char => "CHAR"
  | .line => "LINE"

namespace Instruction

/-- What follows the mnemonic, in the order it is written. -/
def operands : Instruction → List String
  | declareLocal addr source | set addr source => [slotListing addr, source.listing Object.listing]
  | declareLabel label | gotoLabel label => [Text.decimal label]
  | returnFromLabel | noOp => []
  | exit value | sleep value => [value.listing Text.decimal]
  | print source | printString source => [source.listing Object.listing]
  | accessIndex index dest array =>
    [array.listing bracketed, index.listing Text.decimal, "->", slotListing dest]
  | ifJump condition label jump =>
    [condition.listing Text.decimal, jump.listing, Text.decimal label]
  | input dest format => [format.listing, "->", slotListing dest]

def listing (i : Instruction) : String :=
  " ".intercalate (i.opcode.mnemonic :: i.operands)

end Instruction

end IntScript
