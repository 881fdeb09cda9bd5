import IntScript.Machine.Host
import IntScript.Machine.Input
import IntScript.Machine.Program

/-!
# Effects of instructions

An instruction evaluates its operands, then acts. Its effect is what it comes to as a whole: a
transition, or the fault that stands in the way of one, and what becomes of the host.
-/

namespace IntScript

/-! ## Operands -/

/-- The object an operand stands for. -/
def Operand.load (s : State) : Operand Object → Except Fault Object
  | .literal object => .ok object
  | .slot addr => s.get addr

/-- The integer an operand stands for. A slot has to hold an integer. -/
def Operand.scalar (s : State) : Operand Int64 → Except Fault Int64
  | .literal value => .ok value
  | .slot addr => s.getInt addr

/-- The array an operand stands for. A slot has to hold an array. -/
def Operand.elements (s : State) : Operand (List Int64) → Except Fault (List Int64)
  | .literal values => .ok values
  | .slot addr => s.getArray addr

/-- Whether a condition is met. A slot may hold any object. -/
def Operand.holds (s : State) : Operand Int64 → Except Fault Bool
  | .literal value => .ok (value != 0)
  | .slot addr => (s.get addr).map Object.isTrue

/-- The element at a position counted from zero. -/
def elementAt (values : List Int64) (index : Int64) : Except Fault Int64 :=
  match index.toInt.toNat?.bind fun i => values[i]? with
  | some value => .ok value
  | none => .error (.indexOutOfBounds index values.length)

/-- The text of an object. It is a fault if there is none. -/
def Object.text (object : Object) : Except Fault String :=
  match object.text? with
  | some text => .ok text
  | none => .error (.noText object)

/-! ## Instructions -/

namespace State

/-- Stores an element of an array. -/
def accessIndex (s : State) (index : Operand Int64) (dest : Int64)
    (array : Operand (List Int64)) : Except Fault State := do
  let index ← index.scalar s
  let values ← array.elements s
  let element ← elementAt values index
  s.set dest (.int element)

/-- Jumps if the condition is met. -/
def ifJump (s : State) (program : Program) (condition : Operand Int64) (label : Int64)
    (jump : Jump) : Except Fault Transition := do
  if ← condition.holds s then
    match jump with
    | .goto => s.goto program.config label
    | .scan => s.scanForward program.script label
  else
    return .silent s

/-- Takes in one line of input. The end of the input and a line that is not in the format halt the
machine. -/
def receive (s : State) (dest : Int64) (format : InputFormat) :
    Option ByteArray → Except Fault Transition
  | none => .ok (s.halt Status.endOfInput)
  | some bytes =>
    match format.read? bytes with
    | none => .ok (s.halt Status.invalidInput)
    | some object => (s.set dest object).map .silent

end State

variable {η : Type} [Host η]

/-- Writes a line, unless there is a fault instead of one. -/
def State.print (s : State) (line : Except Fault String) (h : η) : Except Fault Transition × η :=
  match line with
  | .error fault => (.error fault, h)
  | .ok line =>
    match Host.writeLine line h with
    | (.ok _, h') => (.ok (.silent s), h')
    | (.error reason, h') => (.error (.io reason), h')

/-- The effect of an instruction on the machine and its host. -/
def Instruction.execute (program : Program) (s : State) (h : η) :
    Instruction → Except Fault Transition × η
  | .declareLocal addr source =>
    ((source.load s).bind fun object => (s.declareLocal addr object).map .silent, h)
  | .set addr source => ((source.load s).bind fun object => (s.set addr object).map .silent, h)
  | .declareLabel label => (.ok (s.declareLabel label), h)
  | .gotoLabel label => (s.goto program.config label, h)
  | .returnFromLabel => (s.returnFromLabel program.config, h)
  | .exit status => ((status.scalar s).map s.halt, h)
  | .noOp => (.ok (.silent s), h)
  | .sleep millis =>
    match millis.scalar s with
    | .error fault => (.error fault, h)
    | .ok millis => (.ok (.silent s), Host.sleep millis.toInt.toNat h)
  | .print source => s.print ((source.load s).map Object.numerals) h
  | .printString source => s.print ((source.load s).bind Object.text) h
  | .accessIndex index dest array => ((s.accessIndex index dest array).map .silent, h)
  | .ifJump condition label jump => (s.ifJump program condition label jump, h)
  | .input dest format =>
    match Host.readLine h with
    | (.error reason, h') => (.error (.io reason), h')
    | (.ok line, h') => (s.receive dest format line, h')

/-- The effect of a statement. One without tokens does nothing. -/
def Program.execute (program : Program) (tokens : List Int64) (s : State) (h : η) :
    Except Fault Transition × η :=
  match Instruction.decode tokens with
  | .error error => (.error (.decode error), h)
  | .ok none => (.ok (.silent s), h)
  | .ok (some i) => i.execute program s h

end IntScript
