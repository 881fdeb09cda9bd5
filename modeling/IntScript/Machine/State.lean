import IntScript.Machine.Event
import IntScript.Machine.LabelTable

/-!
# Machine states

All slots stand on one stack. A scope is the part of the stack from its base up to the base of the
next inner scope, or up to the top. The root scope begins at zero and stays open.

An address counts from the base of a scope. It belongs to the innermost scope that is large enough
to contain it: a scope that is too small passes the address on, unchanged, to the scope around it.

Operations that change the control state return a `Transition`, the new state together with the
events the change is recorded by.
-/

namespace IntScript

/-- The status of a machine that no exit and no input has stopped. -/
def Status.noError : Int64 := 0

/-- The status after a line of input that is not in the format asked for. -/
def Status.invalidInput : Int64 := -1

/-- The status after an attempt to read past the end of the input. -/
def Status.endOfInput : Int64 := -2

structure State where
  /-- Index of the next statement to fetch. -/
  pc : Nat := 0
  /-- The slots of all scopes, outermost scope first. -/
  stack : Array Object := #[]
  /-- The bases of the open scopes, innermost first. -/
  scopes : List Nat := [0]
  /-- Each declared label with the index of the statement after its declaration. -/
  labels : LabelTable := {}
  /-- Saved return addresses, most recent first. -/
  returns : List Nat := []
  running : Bool := true
  status : Int64 := Status.noError
  deriving DecidableEq, Repr

/-- A new state and the events that lead to it. -/
structure Transition where
  state : State
  events : List Event := []
  deriving DecidableEq, Repr

namespace Transition

/-- A transition that leaves no trace in the journal. -/
def silent (s : State) : Transition := ⟨s, []⟩

/-- One transition, then another from the state it leads to. -/
def andThen (t : Transition) (next : State → Transition) : Transition :=
  ⟨(next t.state).state, t.events ++ (next t.state).events⟩

@[simp]
theorem state_silent (s : State) : (silent s).state = s := rfl

@[simp]
theorem events_silent (s : State) : (silent s).events = [] := rfl

@[simp]
theorem state_andThen (t : Transition) (next : State → Transition) :
    (t.andThen next).state = (next t.state).state := rfl

@[simp]
theorem events_andThen (t : Transition) (next : State → Transition) :
    (t.andThen next).events = t.events ++ (next t.state).events := rfl

end Transition

namespace State

/-! ## Scopes -/

def scopeDepth (s : State) : Nat := s.scopes.length

def returnDepth (s : State) : Nat := s.returns.length

/-- The number of slots in the innermost scope. -/
def scopeSize (s : State) : Nat := s.stack.size - s.scopes.headD 0

/-- Opens an empty scope at the top of the stack. -/
def enterScope (s : State) : Transition :=
  let base := s.stack.size
  ⟨{ s with scopes := base :: s.scopes }, [.enterScope (s.scopes.length + 1) base]⟩

/-- Closes the innermost scope and releases its slots. The root scope cannot be closed. -/
def exitScope (s : State) : Option Transition :=
  match s.scopes with
  | base :: enclosing :: outer =>
    some ⟨{ s with stack := s.stack.take base, scopes := enclosing :: outer },
      [.exitScope (outer.length + 1) base]⟩
  | _ => none

/-! ## Slots -/

/-- Searches the scopes with the given bases, the innermost of which ends at `limit`, for the first
that contains `offset`. -/
def locate (offset : Nat) : (limit : Nat) → (bases : List Nat) → Option Nat
  | _, [] => none
  | limit, base :: outer =>
    if offset < limit - base then some (base + offset) else locate offset base outer

/-- The stack index an address stands for. -/
def resolve (s : State) (addr : Int64) : Except Fault Nat :=
  match addr.toInt.toNat?.bind fun offset => locate offset s.stack.size s.scopes with
  | some index => .ok index
  | none => .error (.symbolNotFound addr)

def get (s : State) (addr : Int64) : Except Fault Object :=
  match s.resolve addr with
  | .error fault => .error fault
  | .ok index =>
    match s.stack[index]? with
    | some object => .ok object
    | none => .error (.symbolNotFound addr)

def set (s : State) (addr : Int64) (object : Object) : Except Fault State :=
  match s.resolve addr with
  | .error fault => .error fault
  | .ok index => .ok { s with stack := s.stack.setIfInBounds index object }

/-- Adds a slot to the innermost scope. The address may be any that the scope does not contain. -/
def declareLocal (s : State) (addr : Int64) (object : Object) : Except Fault State :=
  match addr.toInt.toNat? with
  | some offset =>
    if s.scopeSize ≤ offset then .ok { s with stack := s.stack.push object }
    else .error (.symbolRedeclared addr)
  | none => .error (.symbolRedeclared addr)

/-- The integer in a slot that has to hold one. -/
def getInt (s : State) (addr : Int64) : Except Fault Int64 :=
  match s.get addr with
  | .error fault => .error fault
  | .ok (.int value) => .ok value
  | .ok object => .error (.wrongKind object .int)

/-- The array in a slot that has to hold one. -/
def getArray (s : State) (addr : Int64) : Except Fault (List Int64) :=
  match s.get addr with
  | .error fault => .error fault
  | .ok (.array values) => .ok values
  | .ok object => .error (.wrongKind object .array)

/-! ## Halting -/

/-- Stops the machine with a status. -/
def halt (s : State) (status : Int64) : Transition :=
  ⟨{ s with status, running := false }, [.halting status s.pc]⟩

end State

end IntScript
