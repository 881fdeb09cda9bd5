import IntScript.Machine.State
import IntScript.Script.Parser

/-!
# Programs and jumps

A program is a script with the settings it runs under. Jumps to labels look at both.
-/

namespace IntScript

structure Config where
  /-- Every call of a label opens a scope, which the matching return closes. -/
  scopedCalls : Bool := false
  deriving DecidableEq, Repr

structure Program where
  script : Script
  config : Config := {}
  deriving DecidableEq, Repr

/-- Whether a statement is the declaration of `label`. -/
def Statement.declares (label : Int64) (s : Statement) : Bool :=
  s.tokens == [Opcode.declareLabel.code, label]

/-- Reads a script and records that in a journal. -/
def Script.load (text : String) : Except ParseError (Script × Array Event) :=
  (Script.parse text).map fun script => (script, #[.parsed script.size])

namespace State

def labelAddress (s : State) (label : Int64) : Option Nat := s.labels.find? label

/-- Binds `label` to the program counter. The last declaration of a label counts. -/
def declareLabel (s : State) (label : Int64) : Transition :=
  let events : List Event :=
    match s.labelAddress label with
    | none => [.labelDeclared label s.pc]
    | some previous => if previous = s.pc then [] else [.labelRedeclared label previous s.pc]
  ⟨{ s with labels := s.labels.insert label s.pc }, events⟩

/-- Calls a label: saves the program counter and continues at the address of the label. -/
def goto (s : State) (config : Config) (label : Int64) : Except Fault Transition :=
  match s.labelAddress label with
  | none => .error (.labelNotFound label)
  | some target =>
    let jumped : Transition :=
      ⟨{ s with pc := target, returns := s.pc :: s.returns }, [.goto label s.pc target]⟩
    .ok (if config.scopedCalls then jumped.andThen enterScope else jumped)

/-- Continues at the return address saved last. -/
def returnFromLabel (s : State) (config : Config) : Except Fault Transition :=
  match s.returns with
  | [] => .error .noReturnAddress
  | target :: rest =>
    let popped := { s with returns := rest }
    let released :=
      if config.scopedCalls then popped.exitScope.getD (.silent popped) else .silent popped
    .ok (released.andThen fun t => ⟨{ t with pc := target }, [.returned t.pc target]⟩)

/-- The distance from the program counter to the next declaration of `label`. -/
def distanceToLabel (s : State) (script : Script) (label : Int64) : Option Nat :=
  (script.statements.toList.drop s.pc).findIdx? (Statement.declares label)

/-- Continues after the next declaration of `label` in the script and binds the label there. -/
def scanForward (s : State) (script : Script) (label : Int64) : Except Fault Transition :=
  match s.distanceToLabel script label with
  | none => .error (.labelNotFound label)
  | some distance =>
    let target := s.pc + distance + 1
    .ok ⟨{ s with pc := target, labels := s.labels.insert label target },
      [.scanned label s.pc target]⟩

end State

end IntScript
