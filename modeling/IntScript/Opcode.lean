/-!
# Operation codes

The first token of a statement names its operation. The codes are dense: the operation at position
`n` of `Opcode.all` has code `n`.
-/

namespace IntScript

inductive Opcode where
  | declareLocal | set
  | declareLabel | gotoLabel | returnFromLabel
  | exit | noOp | sleep
  | print | printString
  | accessIndex | ifJump | input
  deriving DecidableEq, Repr

namespace Opcode

/-- The operations in the order of their codes. -/
def all : List Opcode :=
  [declareLocal, set, declareLabel, gotoLabel, returnFromLabel, exit, noOp, sleep, print,
    printString, accessIndex, ifJump, input]

def code : Opcode → Int64
  | declareLocal => 0
  | set => 1
  | declareLabel => 2
  | gotoLabel => 3
  | returnFromLabel => 4
  | exit => 5
  | noOp => 6
  | sleep => 7
  | print => 8
  | printString => 9
  | accessIndex => 10
  | ifJump => 11
  | input => 12

/-- The name used in listings and messages. -/
def mnemonic : Opcode → String
  | declareLocal => "DECLARE_LOCAL"
  | set => "SET"
  | declareLabel => "DECLARE_LABEL"
  | gotoLabel => "GOTO_LABEL"
  | returnFromLabel => "RETURN_FROM_LABEL"
  | exit => "EXIT"
  | noOp => "NO_OP"
  | sleep => "SLEEP_MS"
  | print => "PRINT"
  | printString => "PRINT_STRING"
  | accessIndex => "ACCESS_INDEX"
  | ifJump => "IF_JUMP"
  | input => "INPUT"

/-- The operation with the given code. -/
def ofCode? (n : Int64) : Option Opcode :=
  all.find? fun op => op.code == n

@[simp]
theorem ofCode?_code (op : Opcode) : ofCode? op.code = some op := by
  cases op <;> rfl

theorem ofCode?_eq_some_iff {n : Int64} {op : Opcode} : ofCode? n = some op ↔ op.code = n := by
  constructor
  · intro h
    simpa using List.find?_some h
  · rintro rfl
    exact ofCode?_code op

end Opcode

end IntScript
