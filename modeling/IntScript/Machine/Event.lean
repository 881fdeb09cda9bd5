import IntScript.Machine.Fault

/-!
# The journal

An event records one change of the control state of a machine. Its line in the journal is the
level, the message and the fields, in that order.
-/

namespace IntScript

inductive Event where
  | parsed (statements : Nat)
  | dispatch (line : Nat) (tokens : List Int64)
  | halting (status : Int64) (pc : Nat)
  | enterScope (depth base : Nat)
  | exitScope (depth base : Nat)
  | labelDeclared (label : Int64) (address : Nat)
  | labelRedeclared (label : Int64) (previous address : Nat)
  | goto (label : Int64) (source target : Nat)
  | returned (source target : Nat)
  | scanned (label : Int64) (source target : Nat)
  | finished (status : Int64)
  deriving DecidableEq, Repr

namespace Event

inductive Level where
  | info | debug | trace
  deriving DecidableEq, Repr

def Level.name : Level → String
  | info => "INFO"
  | debug => "DEBUG"
  | trace => "TRACE"

def level : Event → Level
  | dispatch .. => .trace
  | finished .. => .info
  | _ => .debug

def message : Event → String
  | parsed .. => "parsed script"
  | dispatch .. => "dispatch"
  | halting .. => "halting"
  | enterScope .. => "enter scope"
  | exitScope .. => "exit scope"
  | labelDeclared .. => "label declared"
  | labelRedeclared .. => "label redeclared"
  | goto .. => "goto"
  | returned .. => "return from label"
  | scanned .. => "forward scan found label"
  | finished .. => "run finished"

def fields : Event → List (String × String)
  | parsed statements => [("statements", toString statements)]
  | dispatch line tokens => [("line", toString line), ("tokens", tokensText tokens)]
  | halting status pc => [("status", Text.decimal status), ("pc", toString pc)]
  | enterScope depth base => [("depth", toString depth), ("base", toString base)]
  | exitScope depth base => [("depth", toString depth), ("released_to", toString base)]
  | labelDeclared label address => [("label", Text.decimal label), ("address", toString address)]
  | labelRedeclared label previous address =>
    [("label", Text.decimal label), ("previous", toString previous), ("address", toString address)]
  | goto label source target | scanned label source target =>
    [("label", Text.decimal label), ("from", toString source), ("to", toString target)]
  | returned source target => [("from", toString source), ("to", toString target)]
  | finished status => [("status", Text.decimal status)]

/-- The line of an event in the journal. -/
def line (e : Event) : String :=
  " ".intercalate
    (e.level.name :: e.message :: e.fields.map fun (name, value) => name ++ "=" ++ value)

end Event

end IntScript
