import IntScript.Proofs.Labels
import Mathlib.Tactic.IntervalCases

/-!
# The length of runs

The program counter moves forward from statement to statement, by forward scans too. Only calls and
returns take it back, and every return uses up the address that a call has saved. Hence the number
of statements a run can dispatch is bounded by the number of calls it makes: between two jumps the
script is passed through at most once. A run that makes no call ends.
-/

namespace IntScript

namespace Program

/-- Whether the next round dispatches a statement. -/
def dispatches (program : Program) (s : State) : Bool :=
  s.running && (program.script.statement? s.pc).isSome

/-- Whether the next round calls a label that is in the table. -/
def makesCall (program : Program) (s : State) : Bool :=
  match program.instruction? s with
  | some (.gotoLabel label) => (s.labels.find? label).isSome
  | some (.ifJump condition label .goto) =>
    match condition.holds s.fetched with
    | .ok taken => taken && (s.labels.find? label).isSome
    | .error _ => false
  | _ => false

variable {program : Program} {s : State} {t : Transition}

theorem makesCall_iff :
    program.makesCall s = true ↔
      ∃ label, program.Calls s label ∧ (s.labels.find? label).isSome = true := by
  unfold makesCall Calls
  cases program.instruction? s with
  | none => simp
  | some i =>
    cases i with
    | gotoLabel label => simp [Instruction.Calls]
    | ifJump condition label jump =>
      cases jump with
      | goto =>
        cases hholds : condition.holds s.fetched <;> simp [Instruction.Calls, hholds, and_assoc]
      | scan => simp [Instruction.Calls]
    | _ => simp [Instruction.Calls]

theorem makesCall_of_goto {label : Int64} (hcalls : program.Calls s label)
    (ht : s.fetched.goto program.config label = .ok t) : program.makesCall s = true := by
  obtain ⟨target, hlabel, -⟩ := State.goto_eq_ok ht
  have hfound : s.labels.find? label = some target := hlabel
  exact makesCall_iff.2 ⟨label, hcalls, by simp [hfound]⟩

theorem pc_lt_of_instruction? {i : Instruction} (h : program.instruction? s = some i) :
    s.pc < program.script.size := by
  obtain ⟨-, statement, hs, -⟩ := instruction?_eq_some_iff.1 h
  exact Script.lt_size_of_statement? hs

theorem Calls.pc_lt {label : Int64} (h : program.Calls s label) :
    s.pc < program.script.size := by
  obtain ⟨i, hi, -⟩ := h
  exact pc_lt_of_instruction? hi

/-! ## Rounds -/

/-- The program counter goes back only together with a change of the return addresses. -/
theorem pc_le_of_action {i : Instruction} (ha : i.Action program s t)
    (h : t.state.returns = s.returns) : s.pc ≤ t.state.pc := by
  cases ha with
  | idle | declareLabel | halt => exact Nat.le_refl _
  | store _ hs =>
    obtain ⟨index, -, rfl⟩ := State.set_eq_ok hs
    exact Nat.le_refl _
  | declareLocal _ hs =>
    obtain rfl := State.declareLocal_eq_ok hs
    exact Nat.le_refl _
  | call _ ht =>
    obtain ⟨target, -, ht⟩ := State.goto_eq_ok ht
    rw [ht] at h
    exact absurd h (List.cons_ne_self _ _)
  | returnFromLabel ht =>
    obtain ⟨target, rest, hrest, ht⟩ := State.returnFromLabel_eq_ok ht
    rw [ht, hrest] at h
    exact absurd h.symm (List.cons_ne_self _ _)
  | scan _ ht =>
    obtain ⟨distance, -, ht⟩ := State.scanForward_eq_ok ht
    rw [ht]
    change s.pc ≤ s.pc + distance + 1
    omega

/-- A statement that neither calls nor returns is left behind. -/
theorem pc_add_le_of_round (hr : program.Round s t) (h : t.state.returns = s.returns) :
    s.pc + (program.dispatches s).toNat ≤ t.state.pc := by
  have hone : (program.dispatches s).toNat ≤ 1 := Bool.toNat_le _
  cases hr with
  | halted hrunning => simp [dispatches, hrunning]
  | ended _ hs => simp [dispatches, hs]
  | passed => simpa [State.fetched] using hone
  | executed _ _ _ ha =>
    have hpc : s.pc + 1 ≤ _ := pc_le_of_action ha h
    exact Nat.le_trans (Nat.add_le_add_left hone s.pc) hpc

/-- What a round costs. One statement is dispatched at most. A call has two passes through the
script to its credit, one of which its return uses up. -/
theorem dispatches_add_le_of_round (hr : program.Round s t) :
    (program.dispatches s).toNat + t.state.returnDepth * program.script.size + s.pc ≤
      2 * (program.makesCall s).toNat * program.script.size +
        s.returnDepth * program.script.size + t.state.pc := by
  have hone : (program.dispatches s).toNat ≤ 1 := Bool.toNat_le _
  obtain ⟨hreturns, -⟩ | ⟨label, u, hcalls, hu, ht⟩ | ⟨u, hi, hu, ht⟩ := control_of_round hr
  · have hpc := pc_add_le_of_round hr hreturns
    rw [State.returnDepth, hreturns, ← State.returnDepth]
    omega
  · have hpc := hcalls.pc_lt
    obtain ⟨target, -, hstate⟩ := State.goto_eq_ok hu
    have hdepth : t.state.returnDepth = s.returnDepth + 1 := by
      rw [ht, hstate]
      rfl
    rw [makesCall_of_goto hcalls hu, hdepth, Nat.add_mul, Bool.toNat_true]
    omega
  · have hpc := pc_lt_of_instruction? hi
    obtain ⟨target, rest, hrest, hstate⟩ := State.returnFromLabel_eq_ok hu
    have hdepth : s.returnDepth = t.state.returnDepth + 1 := by
      rw [ht, hstate]
      exact congrArg List.length hrest
    rw [hdepth, Nat.add_mul]
    omega

/-! ## Runs -/

section Machine

variable {η : Type} [Host η] {m m' : Machine η}

/-- The number of the first `rounds` rounds that begin in a state with property `p`. -/
def countRounds (program : Program) (p : State → Bool) (m : Machine η) (rounds : Nat) : Nat :=
  (List.range rounds).countP fun k => p (program.next^[k] m).state

theorem countRounds_succ (p : State → Bool) (m : Machine η) (rounds : Nat) :
    program.countRounds p m (rounds + 1) =
      program.countRounds p m rounds + (p (program.next^[rounds] m).state).toNat := by
  rw [countRounds, List.range_succ, List.countP_append, countRounds]
  cases hp : p (program.next^[rounds] m).state <;> simp [hp]

theorem countRounds_dispatches_add_le (m : Machine η) (rounds : Nat) :
    let last := (program.next^[rounds] m).state
    program.countRounds program.dispatches m rounds +
        last.returnDepth * program.script.size + m.state.pc ≤
      2 * program.countRounds program.makesCall m rounds * program.script.size +
        m.state.returnDepth * program.script.size + last.pc := by
  induction rounds with
  | zero => simp [countRounds]
  | succ rounds ih =>
    obtain ⟨t, hround, hstate⟩ := program.exists_round_iterate m rounds
    have hcost := dispatches_add_le_of_round hround
    simp only [countRounds_succ, hstate, Nat.mul_add, Nat.add_mul] at ih ⊢
    omega

/-- The statements a fresh machine has dispatched, against the calls it has made. -/
theorem countRounds_dispatches_le (program : Program) (host : η) (journal : Array Event)
    (rounds : Nat) :
    program.countRounds program.dispatches { host, journal } rounds ≤
      (2 * program.countRounds program.makesCall { host, journal } rounds + 1) *
        program.script.size := by
  have hcost := program.countRounds_dispatches_add_le ({ host, journal } : Machine η) rounds
  have hpc := (wellFormed_iterate program host journal rounds).pc_le
  have hdepth : ({} : State).returnDepth * program.script.size = 0 := by simp [State.returnDepth]
  rw [Nat.add_mul]
  simp only [hdepth] at hcost
  omega

theorem dispatches_of_step (h : program.step m = .running m') :
    program.dispatches m.state = true := by
  obtain ⟨hrunning, statement, t, hs, -⟩ := step_eq_running h
  simp [dispatches, hrunning, hs]

theorem pc_lt_of_step (h : program.step m = .running m') (hcall : program.makesCall m.state = false)
    (hreturn : program.instruction? m.state ≠ some .returnFromLabel) :
    m.state.pc < m'.state.pc := by
  obtain ⟨t, hround, hstate, -⟩ := program.round_next m
  rw [next, h, Progress.machine] at hstate
  obtain ⟨hreturns, -⟩ | ⟨label, u, hcalls, hu, -⟩ | ⟨u, hi, -⟩ := control_of_round hround
  · have hpc := pc_add_le_of_round hround hreturns
    rw [dispatches_of_step h, ← hstate] at hpc
    exact hpc
  · rw [makesCall_of_goto hcalls hu] at hcall
    cases hcall
  · exact absurd hi hreturn

/-- Every round of a run without an outcome dispatches a statement. -/
theorem countRounds_dispatches_of_run {fuel : Nat} (h : program.run fuel m = (none, m')) :
    program.countRounds program.dispatches m fuel = fuel := by
  induction fuel generalizing m' with
  | zero => rfl
  | succ fuel ih =>
    obtain ⟨m₁, hrun⟩ := exists_run_of_le h (Nat.le_succ fuel)
    obtain ⟨n, hn, hfuel⟩ := program.exists_run_eq_iterate fuel m
    rw [hrun] at hn hfuel
    obtain rfl : n = fuel := hfuel rfl
    have hstep : program.dispatches m₁.state = true := by
      rw [run_add hrun 1] at h
      cases hs : program.step m₁ with
      | running m₂ => exact dispatches_of_step hs
      | ended outcome m₂ =>
        rw [run_succ_of_ended hs] at h
        cases h
    rw [countRounds_succ, ih hrun, ← hn, hstep, Bool.toNat_true]

/-- A run that makes a limited number of calls ends. -/
theorem exists_run_of_countRounds_makesCall_le (host : η) (journal : Array Event) {calls : Nat}
    (h : ∀ rounds, program.countRounds program.makesCall { host, journal } rounds ≤ calls) :
    ∃ outcome m', program.run ((2 * calls + 1) * program.script.size + 1)
      ({ host, journal } : Machine η) = (some outcome, m') := by
  generalize hbound : (2 * calls + 1) * program.script.size = bound
  cases hrun : program.run (bound + 1) ({ host, journal } : Machine η) with
  | mk outcome? m' =>
    cases outcome? with
    | some outcome => exact ⟨outcome, m', rfl⟩
    | none =>
      have hcalls := h (bound + 1)
      have hlong : bound + 1 ≤ bound := calc
        bound + 1 = program.countRounds program.dispatches { host, journal } (bound + 1) :=
          (countRounds_dispatches_of_run hrun).symm
        _ ≤ (2 * program.countRounds program.makesCall { host, journal } (bound + 1) + 1) *
            program.script.size := program.countRounds_dispatches_le host journal (bound + 1)
        _ ≤ (2 * calls + 1) * program.script.size :=
          Nat.mul_le_mul_right program.script.size (by omega)
        _ = bound := hbound
      exact absurd hlong (Nat.not_succ_le_self bound)

/-- Only calls and returns can make a run loop.

A statement that succeeds and neither calls nor returns moves the program counter forward. With `g`
calls made, a machine that was fresh at first has dispatched at most `2 * g + 1` times as many
statements as there are in its script, also if its run was resumed after faults. In particular every
run of a script in which no statement calls a label comes to an end. -/
theorem only_calls_can_loop (program : Program) (host : η) (journal : Array Event) :
    (∀ m m' : Machine η, program.step m = .running m' → program.makesCall m.state = false →
      program.instruction? m.state ≠ some .returnFromLabel → m.state.pc < m'.state.pc) ∧
    (∀ rounds, program.countRounds program.dispatches { host, journal } rounds ≤
      (2 * program.countRounds program.makesCall { host, journal } rounds + 1) *
        program.script.size) ∧
    ((∀ p, ¬program.script.CallsAt p) →
      ∃ outcome m', program.run (program.script.size + 1) ({ host, journal } : Machine η) =
        (some outcome, m')) := by
  refine ⟨fun m m' => pc_lt_of_step, program.countRounds_dispatches_le host journal,
    fun hcalls => ?_⟩
  have hnone (rounds : Nat) :
      program.countRounds program.makesCall ({ host, journal } : Machine η) rounds ≤ 0 := by
    rw [Nat.le_zero, countRounds, List.countP_eq_zero]
    intro k _ hcall
    obtain ⟨label, hlabel, -⟩ := makesCall_iff.1 hcall
    exact hcalls _ hlabel.callsAt
  simpa using exists_run_of_countRounds_makesCall_le host journal hnone

/-- A script that skips a statement, reads an integer and exits with it. -/
def skipThenRead : Program where
  script := .ofRows [[0, 0, 0, 1], [11, 3, 0, 5], [8, 0, 1], [2, 5], [12, 0, 0], [5, 1, 0]]

theorem skipThenRead_only_calls_can_loop :
    let m : Machine MemoryHost := { host := .ofLines ["42".toUTF8] }
    (∀ p, ¬skipThenRead.script.CallsAt p) ∧
      (∃ outcome m', skipThenRead.run 7 m = (some outcome, m')) ∧
      ∃ m', skipThenRead.step (skipThenRead.next m) = .running m' ∧ 1 < m'.state.pc := by
  intro m
  have hcalls : ∀ p, ¬skipThenRead.script.CallsAt p := by
    rintro p ⟨statement, hs, h⟩
    have hp : p < 6 := Script.lt_size_of_statement? hs
    interval_cases p <;> obtain rfl := Option.some.inj hs <;>
      obtain ⟨label, h⟩ | ⟨condition, label, h⟩ := h <;> cases h
  obtain ⟨hforward, -, hends⟩ := only_calls_can_loop skipThenRead m.host #[]
  have hstep : skipThenRead.step (skipThenRead.next m) = .running (skipThenRead.next^[2] m) := rfl
  exact ⟨hcalls, hends hcalls, _, hstep,
    hforward _ _ hstep (by decide +kernel) (by decide +kernel)⟩

-- A loop in which every statement but the first is a call.
example :
    let program : Program := { script := .ofRows [[2, 1], [3, 1]] }
    let m : Machine MemoryHost := { host := {} }
    program.countRounds program.dispatches m 10 = 10 ∧
      program.countRounds program.makesCall m 10 = 9 := by
  decide +kernel

end Machine

end Program

end IntScript
