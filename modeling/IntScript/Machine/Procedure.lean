import IntScript.Machine.Execute

/-!
# Procedures

A machine is a state with its host and the journal so far. A procedure works on a machine in place,
one step after another. When a step fails, the procedure ends there, and the steps before it have
taken effect: nothing is rolled back.

A machine carries out operations and instructions by the procedures of this module. What they come
to as a whole is said by the operations on states and by `Instruction.execute`.
-/

namespace IntScript

structure Machine (η : Type) where
  host : η
  state : State := {}
  journal : Array Event := #[]
  deriving DecidableEq

/-- The machine after a transition. -/
def Machine.follow {η : Type} (m : Machine η) (t : Transition) : Machine η :=
  { m with state := t.state, journal := m.journal ++ t.events }

/-- A computation that changes a machine in place and may fail. A failure comes with the machine as
it has become by then. -/
abbrev Procedure (η α : Type) := EStateM Fault (Machine η) α

namespace Procedure

variable {η α : Type}

/-! ## Steps -/

/-- Asks the state a question. -/
def inspect (question : State → Except Fault α) : Procedure η α := do
  ofExcept (question (← get).state)

/-- Makes a transition. -/
def follow (effect : State → Transition) : Procedure η Unit :=
  modify fun m => m.follow (effect m.state)

/-- Changes the state and leaves no trace in the journal. -/
def change (f : State → State) : Procedure η Unit :=
  follow fun s => .silent (f s)

/-- Adds an event to the journal. -/
def record (event : State → Event) : Procedure η Unit :=
  follow fun s => ⟨s, [event s]⟩

/-- Uses the host. The fault is the host's reason if it fails. -/
def access (use : η → Except String α × η) : Procedure η α := do
  let result ← modifyGet fun m =>
    let (result, host) := use m.host
    (result, { m with host })
  match result with
  | .ok value => return value
  | .error reason => throw (.io reason)

/-! ## Operations -/

/-- Stops the machine with a status. -/
def halt (status : Int64) : Procedure η Unit := follow fun s => s.halt status

/-- Opens an empty scope at the top of the stack. -/
def enterScope : Procedure η Unit := follow State.enterScope

/-- Closes the innermost scope, and tells whether there was one to close. -/
def exitScope : Procedure η Bool := do
  match (← get).state.exitScope with
  | some t =>
    follow fun _ => t
    return true
  | none => return false

/-- Adds a slot to the innermost scope. -/
def declareLocal (addr : Int64) (object : Object) : Procedure η Unit := do
  match addr.toInt.toNat? with
  | some offset =>
    if (← get).state.scopeSize ≤ offset then
      change fun s => { s with stack := s.stack.push object }
    else
      throw (.symbolRedeclared addr)
  | none => throw (.symbolRedeclared addr)

/-- Replaces the object in a slot. -/
def store (addr : Int64) (object : Object) : Procedure η Unit := do
  let index ← inspect fun s => s.resolve addr
  change fun s => { s with stack := s.stack.setIfInBounds index object }

/-- Binds `label` to the program counter. -/
def declareLabel (label : Int64) : Procedure η Unit := follow fun s => s.declareLabel label

/-- Calls a label. -/
def goto (config : Config) (label : Int64) : Procedure η Unit := do
  match (← get).state.labelAddress label with
  | none => throw (.labelNotFound label)
  | some target =>
    record fun s => .goto label s.pc target
    change fun s => { s with returns := s.pc :: s.returns }
    change fun s => { s with pc := target }
    if config.scopedCalls then enterScope

/-- Takes the return address saved last off its stack. -/
def popReturn : Procedure η Nat := do
  match (← get).state.returns with
  | [] => throw .noReturnAddress
  | target :: rest =>
    change fun s => { s with returns := rest }
    return target

/-- Continues at the return address saved last. -/
def returnFromLabel (config : Config) : Procedure η Unit := do
  let target ← popReturn
  if config.scopedCalls then
    let _ ← exitScope
  record fun s => .returned s.pc target
  change fun s => { s with pc := target }

/-- Continues after the next declaration of `label` in the script and binds the label there. -/
def scanForward (script : Script) (label : Int64) : Procedure η Unit := do
  let s := (← get).state
  match s.distanceToLabel script label with
  | none => throw (.labelNotFound label)
  | some distance =>
    let target := s.pc + distance + 1
    record fun s => .scanned label s.pc target
    change fun s => { s with labels := s.labels.insert label target }
    change fun s => { s with pc := target }

/-! ## Instructions -/

/-- Stores an element of an array. -/
def accessIndex (index : Operand Int64) (dest : Int64) (array : Operand (List Int64)) :
    Procedure η Unit := do
  let index ← inspect fun s => index.scalar s
  let values ← inspect fun s => array.elements s
  let element ← ofExcept (elementAt values index)
  store dest (.int element)

/-- Jumps if the condition is met. -/
def ifJump (program : Program) (condition : Operand Int64) (label : Int64) (jump : Jump) :
    Procedure η Unit := do
  if ← inspect fun s => condition.holds s then
    match jump with
    | .goto => goto program.config label
    | .scan => scanForward program.script label

/-- Takes in one line of input. -/
def receive (dest : Int64) (format : InputFormat) : Option ByteArray → Procedure η Unit
  | none => halt Status.endOfInput
  | some bytes =>
    match format.read? bytes with
    | none => halt Status.invalidInput
    | some object => store dest object

variable [Host η]

def writeLine (line : String) : Procedure η Unit := access (Host.writeLine line)

/-- Carries out an instruction. -/
def ofInstruction (program : Program) : Instruction → Procedure η Unit
  | .declareLocal addr source => do
    let object ← inspect fun s => source.load s
    declareLocal addr object
  | .set addr source => do
    let object ← inspect fun s => source.load s
    store addr object
  | .declareLabel label => declareLabel label
  | .gotoLabel label => goto program.config label
  | .returnFromLabel => returnFromLabel program.config
  | .exit status => do
    let status ← inspect fun s => status.scalar s
    halt status
  | .noOp => return
  | .sleep millis => do
    let millis ← inspect fun s => millis.scalar s
    access fun h => (.ok (), Host.sleep millis.toInt.toNat h)
  | .print source => do
    let object ← inspect fun s => source.load s
    writeLine object.numerals
  | .printString source => do
    let object ← inspect fun s => source.load s
    let text ← ofExcept object.text
    writeLine text
  | .accessIndex index dest array => accessIndex index dest array
  | .ifJump condition label jump => ifJump program condition label jump
  | .input dest format => do
    let line ← access Host.readLine
    receive dest format line

/-- Carries out a statement. One without tokens does nothing. -/
def ofTokens (program : Program) (tokens : List Int64) : Procedure η Unit := do
  match Instruction.decode tokens with
  | .error error => throw (.decode error)
  | .ok none => return
  | .ok (some i) => ofInstruction program i

end Procedure

end IntScript
