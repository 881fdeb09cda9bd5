import IntScript.Instruction.Basic

/-!
# Encoding instructions

The statement that spells an instruction: operation code, selector where the operation has one, and
operands.
-/

namespace IntScript.Instruction

/-- The arguments after the operation code. -/
def arguments : Instruction → List Int64
  | declareLocal addr (.literal (.int value)) | set addr (.literal (.int value)) => [0, addr, value]
  | declareLocal addr (.literal (.array values)) | set addr (.literal (.array values)) =>
    1 :: addr :: values
  | declareLocal addr (.slot source) | set addr (.slot source) => [2, addr, source]
  | declareLabel label | gotoLabel label => [label]
  | returnFromLabel | noOp => []
  | exit (.literal value) | sleep (.literal value) => [0, value]
  | exit (.slot addr) | sleep (.slot addr) => [1, addr]
  | print (.literal (.int value)) | printString (.literal (.int value)) => [0, value]
  | print (.literal (.array values)) | printString (.literal (.array values)) => 1 :: values
  | print (.slot addr) | printString (.slot addr) => [2, addr]
  | accessIndex (.literal index) dest (.literal values) => 0 :: index :: dest :: values
  | accessIndex (.slot index) dest (.literal values) => 1 :: index :: dest :: values
  | accessIndex (.literal index) dest (.slot array) => [2, index, dest, array]
  | accessIndex (.slot index) dest (.slot array) => [3, index, dest, array]
  | ifJump (.literal condition) label .goto => [0, condition, label]
  | ifJump (.slot condition) label .goto => [1, condition, label]
  | ifJump (.literal condition) label .scan => [2, condition, label]
  | ifJump (.slot condition) label .scan => [3, condition, label]
  | input dest .int => [0, dest]
  | input dest .ints => [1, dest]
  | input dest .char => [2, dest]
  | input dest .line => [3, dest]

/-- The tokens of the statement that spells the instruction. -/
def encode (i : Instruction) : List Int64 :=
  i.opcode.code :: i.arguments

end IntScript.Instruction
