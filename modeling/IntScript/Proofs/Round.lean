import IntScript.Proofs.Action
import IntScript.Proofs.InPlace
import Mathlib.Logic.Function.Iterate

/-!
# Rounds of a run

What one round of a run can do to a state is said once, by `Program.Round`. A property that every
round keeps holds after any number of rounds.

A run that has ended is taken up again by the next round. The machines that runs lead to, resumed
after a fault or not, are therefore the iterates of `Program.next`.
-/

namespace IntScript

theorem Script.lt_size_of_statement? {script : Script} {pc : Nat} {statement : Statement}
    (h : script.statement? pc = some statement) : pc < script.size :=
  (Array.getElem?_eq_some_iff.1 h).1

/-- The state right after a statement has been fetched. -/
def State.fetched (s : State) : State := { s with pc := s.pc + 1 }

/-- The machine a round leads to, whether or not the run ends with it. -/
def Progress.machine {η : Type} : Progress η → Machine η
  | .running m => m
  | .ended _ m => m

namespace Program

/-- The instruction the next round dispatches. There is none if the machine has halted, at the end
of the script, and for a statement that is blank or malformed. -/
def instruction? (program : Program) (s : State) : Option Instruction :=
  if s.running then
    match (program.script.statement? s.pc).map fun st => Instruction.decode st.tokens with
    | some (.ok i?) => i?
    | _ => none
  else
    none

theorem instruction?_eq_some_iff {program : Program} {s : State} {i : Instruction} :
    program.instruction? s = some i ↔ s.running = true ∧
      ∃ statement, program.script.statement? s.pc = some statement ∧
        Instruction.decode statement.tokens = .ok (some i) := by
  unfold instruction?
  cases s.running with
  | false => simp
  | true =>
    cases program.script.statement? s.pc with
    | none => simp
    | some statement => cases hd : Instruction.decode statement.tokens <;> simp [hd]

theorem awaitsInput_iff {program : Program} {s : State} :
    program.awaitsInput s = true ↔
      ∃ dest format, program.instruction? s = some (.input dest format) := by
  simp only [instruction?_eq_some_iff, awaitsInput, Bool.and_eq_true]
  constructor
  · rintro ⟨hr, h⟩
    split at h
    next => cases h
    next statement hs =>
      split at h
      next dest format hd => exact ⟨dest, format, hr, statement, hs, hd⟩
      next => cases h
  · rintro ⟨dest, format, hr, statement, hs, hd⟩
    simp [hr, hs, hd]

/-- What one round of a run can do to a state, with the events it leaves in the journal. -/
inductive Round (program : Program) (s : State) : Transition → Prop where
  | halted : s.running = false → Round program s ⟨s, [.finished s.status]⟩
  | ended : s.running = true → program.script.statement? s.pc = none →
      Round program s ⟨{ s with running := false }, [.finished s.status]⟩
  /-- The statement is blank or fails. -/
  | passed {statement : Statement} :
      s.running = true → program.script.statement? s.pc = some statement →
      Round program s ⟨s.fetched, [.dispatch statement.line statement.tokens]⟩
  | executed {statement : Statement} {i : Instruction} {t : Transition} :
      s.running = true → program.script.statement? s.pc = some statement →
      Instruction.decode statement.tokens = .ok (some i) → i.Action program s.fetched t →
      Round program s ⟨t.state, .dispatch statement.line statement.tokens :: t.events⟩

variable {η : Type} [Host η]

/-- One round of a run. A run that has ended is taken up again. -/
def next (program : Program) (m : Machine η) : Machine η := (program.step m).machine

theorem step_of_halted {program : Program} {m : Machine η} (h : m.state.running = false) :
    program.step m = m.finish := by
  simp [step, h]

theorem step_of_ended {program : Program} {m : Machine η} (h : m.state.running = true)
    (hs : program.script.statement? m.state.pc = none) :
    program.step m = Machine.finish { m with state.running := false } := by
  simp [step, h, hs]

theorem step_of_fetched {program : Program} {m : Machine η} {statement : Statement}
    (h : m.state.running = true)
    (hs : program.script.statement? m.state.pc = some statement) :
    program.step m = program.dispatch statement { m with state := m.state.fetched } := by
  simp [step, h, hs, State.fetched]

/-- A round whose statement succeeds does not end the run. -/
theorem step_of_execute {program : Program} {m : Machine η} {statement : Statement}
    {t : Transition} {host : η} (h : m.state.running = true)
    (hs : program.script.statement? m.state.pc = some statement)
    (ht : program.execute statement.tokens m.state.fetched m.host = (.ok t, host)) :
    program.step m = .running
      { host
        state := t.state
        journal := m.journal.push (.dispatch statement.line statement.tokens) ++ t.events } := by
  rw [step_of_fetched h hs]
  simp [dispatch_eq, ht]

theorem exists_step_of_execute {program : Program} {m : Machine η} {i : Instruction}
    {t : Transition} {host : η} (hi : program.instruction? m.state = some i)
    (ht : i.execute program m.state.fetched m.host = (.ok t, host)) :
    ∃ m', program.step m = .running m' ∧ m'.state = t.state := by
  obtain ⟨hrunning, statement, hs, hd⟩ := instruction?_eq_some_iff.1 hi
  have hexecute : program.execute statement.tokens m.state.fetched m.host = (.ok t, host) := by
    simp [Program.execute, hd, ht]
  exact ⟨_, step_of_execute hrunning hs hexecute, rfl⟩

/-- A round finds the machine halted, comes to the end of the script, or dispatches a statement,
which succeeds or fails. -/
theorem step_cases (program : Program) (m : Machine η) :
    (m.state.running = false ∧ program.step m = m.finish) ∨
    (m.state.running = true ∧ program.script.statement? m.state.pc = none ∧
      program.step m = Machine.finish { m with state.running := false }) ∨
    ∃ statement, m.state.running = true ∧
      program.script.statement? m.state.pc = some statement ∧
      let journal := m.journal.push (.dispatch statement.line statement.tokens)
      ((∃ t host, program.execute statement.tokens m.state.fetched m.host = (.ok t, host) ∧
        program.step m = .running { host, state := t.state, journal := journal ++ t.events }) ∨
      ∃ fault host, program.execute statement.tokens m.state.fetched m.host = (.error fault, host) ∧
        program.step m = .ended (.failed ⟨statement.line, statement.tokens, fault⟩)
          { host, state := m.state.fetched, journal }) := by
  cases hr : m.state.running with
  | false => exact .inl ⟨rfl, step_of_halted hr⟩
  | true =>
    cases hs : program.script.statement? m.state.pc with
    | none => exact .inr (.inl ⟨rfl, rfl, step_of_ended hr hs⟩)
    | some statement =>
      refine .inr (.inr ⟨statement, rfl, rfl, ?_⟩)
      rw [step_of_fetched hr hs]
      cases he : program.execute statement.tokens m.state.fetched m.host with
      | mk result host =>
        cases result with
        | ok t => exact .inl ⟨t, host, rfl, by simp [dispatch_eq, he]⟩
        | error fault => exact .inr ⟨fault, host, rfl, by simp [dispatch_eq, he]⟩

/-- A round that does not end the run has dispatched a statement that succeeds. -/
theorem step_eq_running {program : Program} {m m' : Machine η}
    (h : program.step m = .running m') :
    m.state.running = true ∧ ∃ statement t,
      program.script.statement? m.state.pc = some statement ∧
      program.execute statement.tokens m.state.fetched m.host = (.ok t, m'.host) ∧
      m'.state = t.state ∧
      m'.journal = m.journal.push (.dispatch statement.line statement.tokens) ++ t.events := by
  obtain ⟨-, hs⟩ | ⟨-, -, hs⟩ | ⟨statement, hr, hf, ⟨t, host, he, hs⟩ | ⟨_, _, -, hs⟩⟩ :=
    program.step_cases m <;> cases hs.symm.trans h
  exact ⟨hr, statement, t, hf, he, rfl, rfl⟩

/-- A round that finishes the run finds the machine halted or comes to the end of the script, and
leaves the machine halted. -/
theorem step_eq_finished {program : Program} {m m' : Machine η} {status : Int64}
    (h : program.step m = .ended (.finished status) m') :
    status = m.state.status ∧
      m' = { m with state.running := false, journal := m.journal.push (.finished status) } ∧
      (m.state.running = true → program.script.statement? m.state.pc = none) := by
  obtain ⟨hr, hs⟩ | ⟨-, hf, hs⟩ | ⟨_, -, -, ⟨_, _, -, hs⟩ | ⟨_, _, -, hs⟩⟩ :=
    program.step_cases m <;> cases hs.symm.trans h
  · exact ⟨rfl, by rw [← hr], by simp [hr]⟩
  · exact ⟨rfl, rfl, fun _ => hf⟩

theorem round_of_dispatch {program : Program} {m : Machine η} {statement : Statement}
    (h : m.state.running = true)
    (hs : program.script.statement? m.state.pc = some statement) :
    ∃ t, program.Round m.state t ∧
      (program.dispatch statement { m with state := m.state.fetched }).machine.state = t.state ∧
      (program.dispatch statement { m with state := m.state.fetched }).machine.journal =
        m.journal ++ t.events := by
  cases hd : Instruction.decode statement.tokens with
  | error e =>
    refine ⟨_, .passed h hs, ?_, ?_⟩ <;> simp [dispatch_eq, Program.execute, hd, Progress.machine]
  | ok i? =>
    cases i? with
    | none =>
      refine ⟨_, .passed h hs, ?_, ?_⟩ <;> simp [dispatch_eq, Program.execute, hd, Progress.machine]
    | some i =>
      cases hi : i.execute program m.state.fetched m.host with
      | mk result host =>
        cases result with
        | error fault =>
          refine ⟨_, .passed h hs, ?_, ?_⟩ <;>
            simp [dispatch_eq, Program.execute, hd, hi, Progress.machine]
        | ok t =>
          refine ⟨_, .executed h hs hd (Instruction.action_of_execute hi), ?_, ?_⟩ <;>
            simp [dispatch_eq, Program.execute, hd, hi, Progress.machine]

theorem round_next (program : Program) (m : Machine η) :
    ∃ t, program.Round m.state t ∧ (program.next m).state = t.state ∧
      (program.next m).journal = m.journal ++ t.events := by
  cases hr : m.state.running with
  | false =>
    refine ⟨_, .halted hr, ?_, ?_⟩ <;>
      simp [next, step_of_halted hr, Machine.finish, Progress.machine]
  | true =>
    cases hs : program.script.statement? m.state.pc with
    | none =>
      refine ⟨_, .ended hr hs, ?_, ?_⟩ <;>
        simp [next, step_of_ended hr hs, Machine.finish, Progress.machine]
    | some statement =>
      rw [next, step_of_fetched hr hs]
      exact round_of_dispatch hr hs

/-! ## Sequences of rounds -/

theorem exists_round_iterate (program : Program) (m : Machine η) (n : Nat) :
    ∃ t, program.Round (program.next^[n] m).state t ∧
      (program.next^[n + 1] m).state = t.state := by
  obtain ⟨t, hround, hstate, -⟩ := program.round_next (program.next^[n] m)
  refine ⟨t, hround, ?_⟩
  rw [Function.iterate_succ_apply', hstate]

/-- What every round keeps holds after any number of rounds. -/
theorem iterate_next_induction {program : Program} {P : State → Prop}
    (hround : ∀ s t, P s → program.Round s t → P t.state) {m : Machine η} (h : P m.state)
    (n : Nat) : P (program.next^[n] m).state := by
  induction n with
  | zero => exact h
  | succ n ih =>
    obtain ⟨t, ht, hstate⟩ := program.exists_round_iterate m n
    rw [hstate]
    exact hround _ t ih ht

/-- A run is a number of rounds, and the whole of its fuel if it has no outcome. -/
theorem exists_run_eq_iterate (program : Program) (fuel : Nat) (m : Machine η) :
    ∃ n, (program.run fuel m).2 = program.next^[n] m ∧
      ((program.run fuel m).1 = none → n = fuel) := by
  induction fuel generalizing m with
  | zero => exact ⟨0, rfl, fun _ => rfl⟩
  | succ fuel ih =>
    cases hs : program.step m with
    | running m' =>
      obtain ⟨n, hn, hnone⟩ := ih m'
      refine ⟨n + 1, ?_, ?_⟩
      · rw [run_succ_of_running hs, hn, Function.iterate_succ_apply, next, hs, Progress.machine]
      · intro h
        rw [run_succ_of_running hs] at h
        rw [hnone h]
    | ended outcome m' =>
      refine ⟨1, ?_, ?_⟩
      · rw [run_succ_of_ended hs, Function.iterate_one, next, hs, Progress.machine]
      · intro h
        rw [run_succ_of_ended hs] at h
        contradiction

/-! ## Runs that end -/

/-- The run of a machine ends with an outcome and leaves another machine behind. -/
inductive Ends (program : Program) : Machine η → Outcome → Machine η → Prop where
  | now {m m' : Machine η} {outcome : Outcome} :
      program.step m = .ended outcome m' → Ends program m outcome m'
  | later {m m₁ m' : Machine η} {outcome : Outcome} :
      program.step m = .running m₁ → Ends program m₁ outcome m' → Ends program m outcome m'

theorem ends_iff_exists_run {program : Program} {m m' : Machine η} {outcome : Outcome} :
    program.Ends m outcome m' ↔ ∃ fuel, program.run fuel m = (some outcome, m') := by
  constructor
  · intro h
    induction h with
    | now hs => exact ⟨1, run_succ_of_ended hs 0⟩
    | later hs _ ih =>
      obtain ⟨fuel, hrun⟩ := ih
      exact ⟨fuel + 1, (run_succ_of_running hs fuel).trans hrun⟩
  · rintro ⟨fuel, hrun⟩
    induction fuel generalizing m with
    | zero => cases hrun
    | succ fuel ih =>
      cases hs : program.step m with
      | running m₁ =>
        rw [run_succ_of_running hs] at hrun
        exact .later hs (ih hrun)
      | ended outcome' m₁ =>
        rw [run_succ_of_ended hs] at hrun
        cases hrun
        exact .now hs

/-- More fuel does not change the outcome of a run. -/
theorem run_of_le {program : Program} {m m' : Machine η} {outcome : Outcome} {fuel fuel' : Nat}
    (h : program.run fuel m = (some outcome, m')) (hle : fuel ≤ fuel') :
    program.run fuel' m = (some outcome, m') := by
  induction fuel generalizing fuel' m with
  | zero => cases h
  | succ fuel ih =>
    obtain ⟨fuel', rfl⟩ : ∃ n, fuel' = n + 1 := ⟨fuel' - 1, by omega⟩
    cases hs : program.step m with
    | running m₁ =>
      rw [run_succ_of_running hs] at h ⊢
      exact ih h (by omega)
    | ended outcome' m₁ =>
      rw [run_succ_of_ended hs] at h ⊢
      exact h

/-- A run that has used up its fuel goes on as a run of the machine it has led to. -/
theorem run_add {program : Program} {m m₁ : Machine η} {n : Nat}
    (h : program.run n m = (none, m₁)) (fuel : Nat) :
    program.run (n + fuel) m = program.run fuel m₁ := by
  induction n generalizing m with
  | zero =>
    obtain rfl : m = m₁ := congrArg Prod.snd h
    rw [Nat.zero_add]
  | succ n ih =>
    rw [Nat.succ_add]
    cases hs : program.step m with
    | running m' =>
      rw [run_succ_of_running hs] at h ⊢
      exact ih h
    | ended outcome m' =>
      rw [run_succ_of_ended hs] at h
      cases h

theorem lt_of_run {program : Program} {m m₁ m' : Machine η} {outcome : Outcome} {n fuel : Nat}
    (h : program.run fuel m = (some outcome, m')) (hn : program.run n m = (none, m₁)) :
    n < fuel := by
  by_contra hle
  cases hn.symm.trans (run_of_le h (Nat.le_of_not_lt hle))

/-- A run goes through each of its rounds without an outcome before the last. -/
theorem exists_run_of_le {program : Program} {m m' : Machine η} {k n : Nat}
    (h : program.run n m = (none, m')) (hk : k ≤ n) : ∃ m₁, program.run k m = (none, m₁) := by
  cases hrun : program.run k m with
  | mk outcome? m₁ =>
    cases outcome? with
    | none => exact ⟨m₁, rfl⟩
    | some outcome => cases h.symm.trans (run_of_le hrun hk)

/-- A run ends with the first of its rounds that ends it. -/
theorem run_of_last {program : Program} {m m₁ m' : Machine η} {outcome : Outcome} {n fuel : Nat}
    (hn : program.run n m = (none, m₁)) (hend : program.step m₁ = .ended outcome m')
    (hlt : n < fuel) : program.run fuel m = (some outcome, m') := by
  obtain ⟨rest, rfl⟩ : ∃ rest, fuel = n + (rest + 1) := ⟨fuel - n - 1, by omega⟩
  rw [run_add hn, run_succ_of_ended hend]

/-- A run that ends does so in one of its rounds. -/
theorem exists_last_round {program : Program} {m m' : Machine η} {outcome : Outcome} {fuel : Nat}
    (h : program.run fuel m = (some outcome, m')) :
    ∃ n m₁, program.run n m = (none, m₁) ∧ program.step m₁ = .ended outcome m' := by
  induction fuel generalizing m with
  | zero => cases h
  | succ fuel ih =>
    cases hs : program.step m with
    | running m₂ =>
      rw [run_succ_of_running hs] at h
      obtain ⟨n, m₁, hn, hend⟩ := ih h
      exact ⟨n + 1, m₁, (run_succ_of_running hs n).trans hn, hend⟩
    | ended outcome' m₂ =>
      rw [run_succ_of_ended hs] at h
      cases h
      exact ⟨0, m, rfl, hs⟩

/-- Rounds that do not end the run make up a run without an outcome. -/
theorem run_eq_iterate {program : Program} {m : Machine η} {n : Nat}
    (h : ∀ k < n, program.step (program.next^[k] m) = .running (program.next^[k + 1] m)) :
    program.run n m = (none, program.next^[n] m) := by
  induction n with
  | zero => rfl
  | succ n ih =>
    have hrun := ih fun k hk => h k (Nat.lt_succ_of_lt hk)
    rw [run_add hrun 1, run_succ_of_running (h n (Nat.lt_succ_self n)), run_zero]

/-- A run ends in one way only. -/
theorem Ends.unique {program : Program} {m m₁ m₂ : Machine η} {o₁ o₂ : Outcome}
    (h₁ : program.Ends m o₁ m₁) (h₂ : program.Ends m o₂ m₂) : o₁ = o₂ ∧ m₁ = m₂ := by
  induction h₁ with
  | now hs =>
    cases h₂ with
    | now hs' =>
      cases hs.symm.trans hs'
      exact ⟨rfl, rfl⟩
    | later hs' => cases hs.symm.trans hs'
  | later hs _ ih =>
    cases h₂ with
    | now hs' => cases hs.symm.trans hs'
    | later hs' h₂ =>
      cases hs.symm.trans hs'
      exact ih h₂

end Program

end IntScript
