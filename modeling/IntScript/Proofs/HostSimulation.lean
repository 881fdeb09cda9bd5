import IntScript.Proofs.Round

/-!
# Hosts that answer alike

A machine learns of its host only what the host answers. Two hosts that keep answering alike
therefore drive a program through the same states to the same outcome, with the same journal. What
they answer to a read matters only in the rounds that read.
-/

namespace IntScript

variable {α η θ : Type} {R : η → θ → Prop}

/-- The same answer from two hosts that are related afterwards. -/
structure SameAnswer (R : η → θ → Prop) (a : α × η) (b : α × θ) : Prop where
  answer : a.1 = b.1
  host : R a.2 b.2

theorem SameAnswer.exists_eq {a : α × η} {b : α × θ} (hab : SameAnswer R a b) :
    ∃ answer h k, a = (answer, h) ∧ b = (answer, k) ∧ R h k :=
  ⟨a.1, a.2, b.2, rfl, Prod.ext hab.answer.symm rfl, hab.host⟩

/-- Related hosts give the same answers and stay related. -/
structure Host.Simulation [Host η] [Host θ] (R : η → θ → Prop) : Prop where
  writeLine : ∀ {h k}, R h k → ∀ line, SameAnswer R (Host.writeLine line h) (Host.writeLine line k)
  readLine : ∀ {h k}, R h k → SameAnswer R (Host.readLine h) (Host.readLine k)
  sleep : ∀ {h k}, R h k → ∀ millis, R (Host.sleep millis h) (Host.sleep millis k)

/-- Related hosts answer alike when they are written to, and stay related. Nothing is said about
reads. -/
structure Host.OutputSimulation [Host η] [Host θ] (R : η → θ → Prop) : Prop where
  writeLine : ∀ {h k}, R h k → ∀ line, SameAnswer R (Host.writeLine line h) (Host.writeLine line k)
  sleep : ∀ {h k}, R h k → ∀ millis, R (Host.sleep millis h) (Host.sleep millis k)

/-- Two machines that differ in their hosts only, which are related. -/
structure Machine.Alike (R : η → θ → Prop) (m : Machine η) (n : Machine θ) : Prop where
  host : R m.host n.host
  state : m.state = n.state
  journal : m.journal = n.journal

/-- Two rounds that lead to machines that are alike and end the run alike, or both do not end it. -/
inductive Progress.Alike (R : η → θ → Prop) : Progress η → Progress θ → Prop where
  | running {m : Machine η} {n : Machine θ} : m.Alike R n → Alike R (.running m) (.running n)
  | ended (outcome : Outcome) {m : Machine η} {n : Machine θ} :
      m.Alike R n → Alike R (.ended outcome m) (.ended outcome n)

theorem Machine.Alike.finish {m : Machine η} {n : Machine θ} (h : m.Alike R n) :
    m.finish.Alike R n.finish := by
  unfold Machine.finish
  rw [h.state, h.journal]
  exact .ended _ ⟨h.host, rfl, rfl⟩

variable [Host η] [Host θ] {h : η} {k : θ}

namespace Host.OutputSimulation

/-! ## Statements -/

theorem print (sim : OutputSimulation R) (hk : R h k) (s : State) (line : Except Fault String) :
    SameAnswer R (s.print line h) (s.print line k) := by
  cases line with
  | error fault => exact ⟨rfl, hk⟩
  | ok line =>
    obtain ⟨result, h', k', hw, hw', hk'⟩ := (sim.writeLine hk line).exists_eq
    simp only [State.print, hw, hw']
    cases result <;> exact ⟨rfl, hk'⟩

/-- An instruction uses its host through the operations of a host only. -/
theorem execute (sim : OutputSimulation R) (hk : R h k) (program : Program) (s : State)
    (i : Instruction)
    (hread : ∀ dest format, i = .input dest format →
      SameAnswer R (Host.readLine h) (Host.readLine k)) :
    SameAnswer R (i.execute program s h) (i.execute program s k) := by
  cases i with
  | print source => exact sim.print hk s _
  | printString source => exact sim.print hk s _
  | sleep millis =>
    simp only [Instruction.execute]
    cases millis.scalar s with
    | error fault => exact ⟨rfl, hk⟩
    | ok millis => exact ⟨rfl, sim.sleep hk _⟩
  | input dest format =>
    obtain ⟨result, h', k', hr, hr', hk'⟩ := (hread dest format rfl).exists_eq
    simp only [Instruction.execute, hr, hr']
    cases result <;> exact ⟨rfl, hk'⟩
  | _ => exact ⟨rfl, hk⟩

theorem executeStatement (sim : OutputSimulation R) (hk : R h k) (program : Program)
    (tokens : List Int64) (s : State)
    (hread : ∀ dest format, Instruction.decode tokens = .ok (some (.input dest format)) →
      SameAnswer R (Host.readLine h) (Host.readLine k)) :
    SameAnswer R (program.execute tokens s h) (program.execute tokens s k) := by
  unfold Program.execute
  cases hd : Instruction.decode tokens with
  | error error => exact ⟨rfl, hk⟩
  | ok i? =>
    cases i? with
    | none => exact ⟨rfl, hk⟩
    | some i =>
      refine sim.execute hk program s i fun dest format hi => hread dest format ?_
      rw [hd, hi]

/-! ## Runs -/

variable {m : Machine η} {n : Machine θ}

theorem dispatch (sim : OutputSimulation R) (hm : m.Alike R n) (program : Program)
    (statement : Statement)
    (hread : ∀ dest format, Instruction.decode statement.tokens = .ok (some (.input dest format)) →
      SameAnswer R (Host.readLine m.host) (Host.readLine n.host)) :
    (program.dispatch statement m).Alike R (program.dispatch statement n) := by
  obtain ⟨result, h', k', hx, hx', hk'⟩ :=
    (sim.executeStatement hm.host program statement.tokens m.state hread).exists_eq
  simp only [Program.dispatch_eq]
  rw [← hm.state, ← hm.journal, hx, hx']
  cases result with
  | error fault => exact .ended _ ⟨hk', rfl, rfl⟩
  | ok t => exact .running ⟨hk', rfl, rfl⟩

/-- Machines that are alike make the same round. -/
theorem step (sim : OutputSimulation R) (hm : m.Alike R n) (program : Program)
    (hread : program.awaitsInput m.state = true →
      SameAnswer R (Host.readLine m.host) (Host.readLine n.host)) :
    (program.step m).Alike R (program.step n) := by
  cases hr : m.state.running with
  | false =>
    rw [Program.step_of_halted hr, Program.step_of_halted (hm.state ▸ hr)]
    exact hm.finish
  | true =>
    cases hs : program.script.statement? m.state.pc with
    | none =>
      rw [Program.step_of_ended hr hs, Program.step_of_ended (hm.state ▸ hr) (hm.state ▸ hs)]
      refine Machine.Alike.finish ⟨hm.host, ?_, hm.journal⟩
      rw [hm.state]
    | some statement =>
      have hfetched : Machine.Alike R { m with state := m.state.fetched }
          { n with state := n.state.fetched } :=
        ⟨hm.host, congrArg State.fetched hm.state, hm.journal⟩
      rw [Program.step_of_fetched hr hs, Program.step_of_fetched (hm.state ▸ hr) (hm.state ▸ hs)]
      refine sim.dispatch hfetched program statement fun dest format hd => hread ?_
      refine Program.awaitsInput_iff.2 ⟨dest, format, ?_⟩
      exact Program.instruction?_eq_some_iff.2 ⟨hr, statement, hs, hd⟩

/-- Machines that are alike run in lockstep, as long as the rounds that read are answered alike. -/
theorem run (sim : OutputSimulation R) (hm : m.Alike R n) (program : Program)
    (hread : ∀ j m₁, program.run j m = (none, m₁) → program.awaitsInput m₁.state = true →
      ∀ k, R m₁.host k → SameAnswer R (Host.readLine m₁.host) (Host.readLine k)) (fuel : Nat) :
    (program.run fuel m).1 = (program.run fuel n).1 ∧
      (program.run fuel m).2.Alike R (program.run fuel n).2 := by
  induction fuel generalizing m n with
  | zero => exact ⟨rfl, hm⟩
  | succ fuel ih =>
    have hprogress := sim.step hm program fun hi => hread 0 m rfl hi n.host hm.host
    generalize hx : program.step m = progress at hprogress
    generalize hy : program.step n = progress' at hprogress
    cases hprogress with
    | running hm' =>
      rw [Program.run_succ_of_running hx, Program.run_succ_of_running hy]
      refine ih hm' fun j m₁ hj => hread (j + 1) m₁ ?_
      rw [Program.run_succ_of_running hx, hj]
    | ended outcome hm' =>
      rw [Program.run_succ_of_ended hx, Program.run_succ_of_ended hy]
      exact ⟨rfl, hm'⟩

end Host.OutputSimulation

/-- Machines that are alike run in lockstep. -/
theorem Host.Simulation.run (sim : Host.Simulation R) {m : Machine η} {n : Machine θ}
    (hm : m.Alike R n) (program : Program) (fuel : Nat) :
    (program.run fuel m).1 = (program.run fuel n).1 ∧
      (program.run fuel m).2.Alike R (program.run fuel n).2 := by
  have houtput : Host.OutputSimulation R := ⟨sim.writeLine, sim.sleep⟩
  exact houtput.run hm program (fun _ _ _ _ _ hk => sim.readLine hk) fuel

end IntScript
