import IntScript.Machine.Procedure

/-!
# Runs

One step fetches the statement at the program counter, advances the counter and dispatches the
statement. A run is a sequence of steps until the machine halts, the script ends or a statement
fails. After a failure the machine is still running, so that a further run goes on behind the failed
statement.
-/

namespace IntScript

/-- How a run ends. -/
inductive Outcome where
  | finished (status : Int64)
  | failed (error : RuntimeError)
  deriving DecidableEq, Repr

inductive Progress (η : Type) where
  | running (m : Machine η)
  | ended (outcome : Outcome) (m : Machine η)
  deriving DecidableEq

variable {η : Type}

/-- Ends a run with the status of the machine. -/
def Machine.finish (m : Machine η) : Progress η :=
  .ended (.finished m.state.status) { m with journal := m.journal.push (.finished m.state.status) }

namespace Program

variable [Host η]

/-- Dispatches one statement, which the program counter already points behind. A failure is reported
with the statement, and the machine is left as the failed statement has left it. -/
def dispatch (program : Program) (statement : Statement) (m : Machine η) : Progress η :=
  let journal := m.journal.push (.dispatch statement.line statement.tokens)
  match (Procedure.ofTokens program statement.tokens).run { m with journal } with
  | .ok _ m' => .running m'
  | .error fault m' => .ended (.failed ⟨statement.line, statement.tokens, fault⟩) m'

/-- One round of a run. -/
def step (program : Program) (m : Machine η) : Progress η :=
  if m.state.running then
    match program.script.statement? m.state.pc with
    | none => Machine.finish { m with state.running := false }
    | some statement => program.dispatch statement { m with state.pc := m.state.pc + 1 }
  else
    m.finish

/-- Runs a machine for at most `fuel` rounds. There is no outcome if the run takes longer. -/
def run (program : Program) : (fuel : Nat) → Machine η → Option Outcome × Machine η
  | 0, m => (none, m)
  | fuel + 1, m =>
    match program.step m with
    | .running m' => program.run fuel m'
    | .ended outcome m' => (some outcome, m')

@[simp]
theorem run_zero (program : Program) (m : Machine η) : program.run 0 m = (none, m) := rfl

theorem run_succ_of_running {program : Program} {m m' : Machine η}
    (h : program.step m = .running m') (fuel : Nat) :
    program.run (fuel + 1) m = program.run fuel m' := by
  rw [run, h]

theorem run_succ_of_ended {program : Program} {m m' : Machine η} {outcome : Outcome}
    (h : program.step m = .ended outcome m') (fuel : Nat) :
    program.run (fuel + 1) m = (some outcome, m') := by
  rw [run, h]

/-- Whether the next statement reads a line of input. -/
def awaitsInput (program : Program) (s : State) : Bool :=
  s.running &&
    match program.script.statement? s.pc with
    | none => false
    | some statement =>
      match Instruction.decode statement.tokens with
      | .ok (some (.input ..)) => true
      | _ => false

end Program

end IntScript
