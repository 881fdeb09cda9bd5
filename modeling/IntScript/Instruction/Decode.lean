import IntScript.Instruction.Basic

/-!
# Decoding statements

The tokens after the operation code are the arguments. Most operations take a selector as their
first argument, which says what form the other arguments have. An argument count includes the
selector.

Operations whose forms differ in length look at the selector first and count afterwards; those
whose forms all have one length count first.
-/

namespace IntScript

/-- How many arguments a form takes. -/
inductive Arity where
  | exactly (n : Nat)
  | atLeast (n : Nat)
  deriving DecidableEq, Repr

def Arity.description : Arity → String
  | .exactly n => toString n
  | .atLeast n => "at least " ++ toString n

inductive DecodeError where
  | unknownCode (code : Int64)
  | unknownSelector (opcode : Opcode) (selector : Int64)
  | argumentCount (opcode : Opcode) (expected : Arity) (got : Nat)
  deriving DecidableEq, Repr

def DecodeError.message : DecodeError → String
  | .unknownCode code => "invalid operation code " ++ Text.decimal code
  | .unknownSelector opcode selector =>
    "invalid operation code variation " ++ Text.decimal selector ++ " for operator " ++
      opcode.mnemonic
  | .argumentCount opcode expected got =>
    "invalid argument number for operation " ++ opcode.mnemonic ++ ": expected " ++
      expected.description ++ " arguments, got " ++ toString got

namespace Instruction

/-- A selector, an address and a value to store there. -/
def decodeStore (op : Opcode) : List Int64 → Except DecodeError (Int64 × Operand Object)
  | [] => .error (.argumentCount op (.atLeast 2) 0)
  | selector :: args =>
    if selector = 0 then
      match args with
      | [addr, value] => .ok (addr, .literal (.int value))
      | _ => .error (.argumentCount op (.exactly 3) (args.length + 1))
    else if selector = 1 then
      match args with
      | addr :: values => .ok (addr, .literal (.array values))
      | [] => .error (.argumentCount op (.atLeast 2) 1)
    else if selector = 2 then
      match args with
      | [addr, slot] => .ok (addr, .slot slot)
      | _ => .error (.argumentCount op (.exactly 3) (args.length + 1))
    else
      .error (.unknownSelector op selector)

/-- A selector and a value to print. -/
def decodeSource (op : Opcode) : List Int64 → Except DecodeError (Operand Object)
  | [] => .error (.argumentCount op (.atLeast 1) 0)
  | selector :: args =>
    if selector = 0 then
      match args with
      | [value] => .ok (.literal (.int value))
      | _ => .error (.argumentCount op (.exactly 2) (args.length + 1))
    else if selector = 1 then
      .ok (.literal (.array args))
    else if selector = 2 then
      match args with
      | [slot] => .ok (.slot slot)
      | _ => .error (.argumentCount op (.exactly 2) (args.length + 1))
    else
      .error (.unknownSelector op selector)

/-- A selector and an integer. -/
def decodeScalar (op : Opcode) : List Int64 → Except DecodeError (Operand Int64)
  | [selector, value] =>
    if selector = 0 then .ok (.literal value)
    else if selector = 1 then .ok (.slot value)
    else .error (.unknownSelector op selector)
  | args => .error (.argumentCount op (.exactly 2) args.length)

/-- One label. -/
def decodeLabel (op : Opcode) : List Int64 → Except DecodeError Int64
  | [label] => .ok label
  | args => .error (.argumentCount op (.exactly 1) args.length)

/-- No arguments at all. -/
def decodeNothing (op : Opcode) : List Int64 → Except DecodeError Unit
  | [] => .ok ()
  | args => .error (.argumentCount op (.exactly 0) args.length)

/-- A selector, an index, a destination, and an array written out or the slot that holds it. -/
def decodeAccess (op : Opcode) : List Int64 →
    Except DecodeError (Operand Int64 × Int64 × Operand (List Int64))
  | [] => .error (.argumentCount op (.atLeast 3) 0)
  | selector :: args =>
    if selector = 0 ∨ selector = 1 then
      match args with
      | index :: dest :: values =>
        .ok (if selector = 0 then .literal index else .slot index, dest, .literal values)
      | _ => .error (.argumentCount op (.atLeast 3) (args.length + 1))
    else if selector = 2 ∨ selector = 3 then
      match args with
      | [index, dest, array] =>
        .ok (if selector = 2 then .literal index else .slot index, dest, .slot array)
      | _ => .error (.argumentCount op (.exactly 4) (args.length + 1))
    else
      .error (.unknownSelector op selector)

/-- A selector, a condition and a label. -/
def decodeJump (op : Opcode) : List Int64 → Except DecodeError (Operand Int64 × Int64 × Jump)
  | [selector, condition, label] =>
    if selector = 0 then .ok (.literal condition, label, .goto)
    else if selector = 1 then .ok (.slot condition, label, .goto)
    else if selector = 2 then .ok (.literal condition, label, .scan)
    else if selector = 3 then .ok (.slot condition, label, .scan)
    else .error (.unknownSelector op selector)
  | args => .error (.argumentCount op (.exactly 3) args.length)

/-- A selector of the input format and a destination. -/
def decodeInput (op : Opcode) : List Int64 → Except DecodeError (Int64 × InputFormat)
  | [selector, dest] =>
    if selector = 0 then .ok (dest, .int)
    else if selector = 1 then .ok (dest, .ints)
    else if selector = 2 then .ok (dest, .char)
    else if selector = 3 then .ok (dest, .line)
    else .error (.unknownSelector op selector)
  | args => .error (.argumentCount op (.exactly 2) args.length)

/-- The instruction with the given operation and arguments. -/
def ofArguments (op : Opcode) (args : List Int64) : Except DecodeError Instruction :=
  match op with
  | .declareLocal => (decodeStore op args).map fun (addr, source) => .declareLocal addr source
  | .set => (decodeStore op args).map fun (addr, source) => .set addr source
  | .declareLabel => (decodeLabel op args).map .declareLabel
  | .gotoLabel => (decodeLabel op args).map .gotoLabel
  | .returnFromLabel => (decodeNothing op args).map fun _ => .returnFromLabel
  | .exit => (decodeScalar op args).map .exit
  | .noOp => (decodeNothing op args).map fun _ => .noOp
  | .sleep => (decodeScalar op args).map .sleep
  | .print => (decodeSource op args).map .print
  | .printString => (decodeSource op args).map .printString
  | .accessIndex =>
    (decodeAccess op args).map fun (index, dest, array) => .accessIndex index dest array
  | .ifJump =>
    (decodeJump op args).map fun (condition, label, jump) => .ifJump condition label jump
  | .input => (decodeInput op args).map fun (dest, format) => .input dest format

/-- The instruction a statement spells. A statement without tokens spells none. -/
def decode : List Int64 → Except DecodeError (Option Instruction)
  | [] => .ok none
  | code :: args =>
    match Opcode.ofCode? code with
    | none => .error (.unknownCode code)
    | some op => (ofArguments op args).map some

end Instruction

end IntScript
