import IntScript.Object
import IntScript.Opcode

/-!
# Instructions

An instruction is an operation with its operands. An operand stands in the statement itself or in a
slot; its type parameter says what it stands for: an integer, an array or any object.
-/

namespace IntScript

inductive Operand (α : Type) where
  | literal (value : α)
  | slot (addr : Int64)
  deriving DecidableEq, Repr

/-- How a taken conditional jump reaches its label. -/
inductive Jump where
  /-- Call the label: save the return address and continue at the label. -/
  | goto
  /-- Search the rest of the script for the declaration of the label. -/
  | scan
  deriving DecidableEq, Repr

/-- What one line of input is read as. -/
inductive InputFormat where
  | int | ints | char | line
  deriving DecidableEq, Repr

inductive Instruction where
  | declareLocal (addr : Int64) (source : Operand Object)
  | set (addr : Int64) (source : Operand Object)
  | declareLabel (label : Int64)
  | gotoLabel (label : Int64)
  | returnFromLabel
  | exit (status : Operand Int64)
  | noOp
  | sleep (millis : Operand Int64)
  | print (source : Operand Object)
  | printString (source : Operand Object)
  | accessIndex (index : Operand Int64) (dest : Int64) (array : Operand (List Int64))
  | ifJump (condition : Operand Int64) (label : Int64) (jump : Jump)
  | input (dest : Int64) (format : InputFormat)
  deriving DecidableEq, Repr

def Instruction.opcode : Instruction → Opcode
  | .declareLocal .. => .declareLocal
  | .set .. => .set
  | .declareLabel .. => .declareLabel
  | .gotoLabel .. => .gotoLabel
  | .returnFromLabel => .returnFromLabel
  | .exit .. => .exit
  | .noOp => .noOp
  | .sleep .. => .sleep
  | .print .. => .print
  | .printString .. => .printString
  | .accessIndex .. => .accessIndex
  | .ifJump .. => .ifJump
  | .input .. => .input

end IntScript
