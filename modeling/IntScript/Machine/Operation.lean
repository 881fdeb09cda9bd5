import IntScript.Machine.Run

/-!
# Operations on a machine

What the user of a machine can ask of it, and the replies.
-/

namespace IntScript

inductive Operation where
  | declareLocal (addr : Int64) (object : Object)
  | get (addr : Int64)
  | set (addr : Int64) (object : Object)
  | resolve (addr : Int64)
  | enterScope
  | exitScope
  | declareLabel (label : Int64)
  | labelAddress (label : Int64)
  | goto (label : Int64)
  | returnFromLabel
  | scanForward (label : Int64)
  | run (fuel : Nat)
  deriving DecidableEq, Repr

inductive Reply where
  | done
  | object (object : Object)
  | index (index : Nat)
  | closed (isClosed : Bool)
  | address (address : Option Nat)
  | outcome (outcome : Outcome)
  /-- The fuel of a run was used up. -/
  | unfinished
  | fault (fault : Fault)
  deriving DecidableEq, Repr

namespace Machine

variable {η : Type}

/-- Calls a procedure. Its value is the reply if it succeeds, and its fault otherwise. -/
def call {α : Type} (m : Machine η) (p : Procedure η α) (reply : α → Reply) : Reply × Machine η :=
  match p.run m with
  | .ok value m' => (reply value, m')
  | .error fault m' => (.fault fault, m')

/-- The reply to an operation and the machine after it. -/
def perform [Host η] (program : Program) (m : Machine η) : Operation → Reply × Machine η
  | .declareLocal addr object => m.call (.declareLocal addr object) fun _ => .done
  | .get addr => m.call (.inspect fun s => s.get addr) .object
  | .set addr object => m.call (.store addr object) fun _ => .done
  | .resolve addr => m.call (.inspect fun s => s.resolve addr) .index
  | .enterScope => m.call .enterScope fun _ => .done
  | .exitScope => m.call .exitScope .closed
  | .declareLabel label => m.call (.declareLabel label) fun _ => .done
  | .labelAddress label => (.address (m.state.labelAddress label), m)
  | .goto label => m.call (.goto program.config label) fun _ => .done
  | .returnFromLabel => m.call (.returnFromLabel program.config) fun _ => .done
  | .scanForward label => m.call (.scanForward program.script label) fun _ => .done
  | .run fuel =>
    match program.run fuel m with
    | (some outcome, m') => (.outcome outcome, m')
    | (none, m') => (.unfinished, m')

end Machine

end IntScript
