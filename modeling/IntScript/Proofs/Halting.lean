import IntScript.Proofs.Move

/-!
# How machines halt

A machine that is running has the status of no error. It halts at the end of its script, by an exit,
or by an input that finds no line or a line it cannot read, and then stays as it is: no operation
starts it again or changes its status.
-/

namespace IntScript

/-! ## Statuses -/

namespace State

variable {program : Program} {s : State} {t : Transition}

theorem halt_injective {status status' : Int64} (h : s.halt status = s.halt status') :
    status = status' :=
  congrArg (fun t => t.state.status) h

/-- As long as the machine is running, there has been no reason to set its status. -/
theorem status_of_round (h : s.running = true → s.status = Status.noError)
    (ht : program.Round s t) : t.state.running = true → t.state.status = Status.noError := by
  cases ht with
  | halted | passed => exact h
  | ended => intro hr; cases hr
  | executed _ _ _ ha =>
    obtain hmove | ⟨status, -, rfl⟩ := move_or_halt_of_action ha
    · rw [hmove.running.1, hmove.running.2]
      exact h
    · intro hr; cases hr

theorem eq_of_round_of_halted (h : s.running = false) (ht : program.Round s t) : t.state = s := by
  cases ht with
  | halted => rfl
  | ended hr | passed hr | executed hr => exact absurd hr (by simp [h])

end State

namespace Machine

variable {η : Type} [Host η] {program : Program} {m : Machine η}

theorem status_performAll (h : m.state.running = true → m.state.status = Status.noError)
    (operations : List Operation) :
    (m.performAll program operations).state.running = true →
      (m.performAll program operations).state.status = Status.noError := by
  refine performAll_induction
    (P := fun m => m.state.running = true → m.state.status = Status.noError)
    (fun m t hm ht => ?_) (fun m hm => ?_) h operations
  · rw [follow, ht.running.1, ht.running.2]
    exact hm
  · obtain ⟨t, hround, hstate, -⟩ := program.round_next m
    rw [hstate]
    exact State.status_of_round hm hround

/-- No operation starts a machine that has halted or changes its status. -/
theorem halted_performAll (h : m.state.running = false) (operations : List Operation) :
    (m.performAll program operations).state.running = false ∧
      (m.performAll program operations).state.status = m.state.status := by
  refine performAll_induction
    (P := fun m' => m'.state.running = false ∧ m'.state.status = m.state.status)
    (fun m' t hm' ht => ?_) (fun m' hm' => ?_) ⟨h, rfl⟩ operations
  · rw [follow, ht.running.1, ht.running.2]
    exact hm'
  · obtain ⟨t, hround, hstate, -⟩ := program.round_next m'
    rw [hstate, State.eq_of_round_of_halted hm'.1 hround]
    exact hm'

end Machine

/-! ## Reasons to halt -/

variable {η : Type} [Host η]

/-- Why an instruction halts the machine with a status. -/
inductive Instruction.Halts (s : State) (h : η) : Instruction → Int64 → Prop where
  | exit {operand : Operand Int64} {status : Int64} :
      operand.scalar s = .ok status → Halts s h (.exit operand) status
  | endOfInput (dest : Int64) (format : InputFormat) {h' : η} :
      Host.readLine h = (.ok none, h') → Halts s h (.input dest format) Status.endOfInput
  /-- The line is no text, or a text that is not in the format. -/
  | invalidInput (dest : Int64) (format : InputFormat) {bytes : ByteArray} {h' : η} :
      Host.readLine h = (.ok (some bytes), h') →
      (String.fromUTF8? bytes = none ∨
        ∃ text, String.fromUTF8? bytes = some text ∧ format.readChars? text.toList = none) →
      Halts s h (.input dest format) Status.invalidInput

theorem InputFormat.read?_eq_none {format : InputFormat} {bytes : ByteArray}
    (h : format.read? bytes = none) :
    String.fromUTF8? bytes = none ∨
      ∃ text, String.fromUTF8? bytes = some text ∧ format.readChars? text.toList = none := by
  cases ht : String.fromUTF8? bytes with
  | none => exact .inl rfl
  | some text => exact .inr ⟨text, rfl, by simpa [read?, ht] using h⟩

namespace Instruction

variable {program : Program} {s : State} {h h' : η} {t : Transition}

/-- The reasons of `Halts` look at a state only for the value of an operand. -/
theorem Halts.congr {s' : State} {i : Instruction} {status : Int64} (hi : i.Halts s h status)
    (hs : ∀ operand : Operand Int64, operand.scalar s' = operand.scalar s) :
    i.Halts s' h status := by
  cases hi with
  | exit hoperand => exact .exit ((hs _).trans hoperand)
  | endOfInput dest format hr => exact .endOfInput dest format hr
  | invalidInput dest format hr hline => exact .invalidInput dest format hr hline

theorem halts_of_receive {dest : Int64} {format : InputFormat} {line : Option ByteArray}
    {status : Int64} (hr : Host.readLine h = (.ok line, h'))
    (ht : s.receive dest format line = .ok (s.halt status)) :
    (input dest format).Halts s h status := by
  cases line with
  | none =>
    obtain rfl := State.halt_injective (Except.ok.inj ht)
    exact .endOfInput dest format hr
  | some bytes =>
    cases hobject : format.read? bytes with
    | none =>
      have hstatus : s.halt Status.invalidInput = s.halt status := by
        simpa [State.receive, hobject] using ht
      obtain rfl := State.halt_injective hstatus
      exact .invalidInput dest format hr (InputFormat.read?_eq_none hobject)
    | some object =>
      -- A line that is stored leaves no event.
      obtain ⟨s', -, hsilent⟩ : ∃ s', s.set dest object = .ok s' ∧ .silent s' = s.halt status := by
        simpa [State.receive, hobject, map_eq_ok_iff] using ht
      cases congrArg Transition.events hsilent

/-- An instruction that stops a running machine halts it for one of the reasons of `Halts`. -/
theorem halts_of_execute {i : Instruction} (ht : i.execute program s h = (.ok t, h'))
    (hs : s.running = true) (hr : t.state.running = false) :
    ∃ status, i.Halts s h status ∧ t = s.halt status := by
  obtain hmove | ⟨status, hi, rfl⟩ := State.move_or_halt_of_action (action_of_execute ht)
  · rw [hmove.running.1, hs] at hr
    cases hr
  · obtain ⟨operand, rfl, hoperand⟩ | ⟨dest, format, rfl⟩ := hi
    · exact ⟨status, .exit hoperand, rfl⟩
    · cases hread : Host.readLine h with
      | mk result h'' =>
        cases result with
        | error reason => simp [execute, hread] at ht
        | ok line =>
          have hreceive : s.receive dest format line = .ok (s.halt status) := by
            simpa [execute, hread] using congrArg Prod.fst ht
          exact ⟨status, halts_of_receive hread hreceive, rfl⟩

/-- Each of the reasons of `Halts` does halt the machine. -/
theorem Halts.exists_execute {i : Instruction} {status : Int64} (hi : i.Halts s h status)
    (program : Program) : ∃ h', i.execute program s h = (.ok (s.halt status), h') := by
  cases hi with
  | exit hoperand => exact ⟨h, by simp [execute, hoperand, Except.map]⟩
  | @endOfInput dest format h' hr => exact ⟨h', by simp [execute, hr, State.receive]⟩
  | @invalidInput dest format bytes h' hr hline =>
    have hread : format.read? bytes = none := by
      obtain htext | ⟨text, htext, hformat⟩ := hline
      · simp [InputFormat.read?, htext]
      · simp [InputFormat.read?, htext, hformat]
    exact ⟨h', by simp [execute, hr, State.receive, hread]⟩

end Instruction

namespace Program

variable {program : Program} {m m' : Machine η} {status : Int64}

/-- Why a run that has come to the running machine `m` finishes with a status, and the state it
leaves behind. -/
inductive FinishesAt (program : Program) (m : Machine η) : Int64 → State → Prop where
  | endOfScript : m.state.pc = program.script.size →
      FinishesAt program m Status.noError { m.state with running := false }
  | instruction {i : Instruction} {status : Int64} :
      program.instruction? m.state = some i → i.Halts m.state m.host status →
      FinishesAt program m status
        { m.state with pc := m.state.pc + 1, status, running := false }

theorem run_of_halted (h : m.state.running = false) (fuel : Nat) :
    program.run (fuel + 1) m = (some (.finished m.state.status),
      { m with journal := m.journal.push (.finished m.state.status) }) :=
  run_succ_of_ended (step_of_halted h) fuel

theorem finishesAt_of_step (hs : program.step m = .running m') (hr : m'.state.running = false) :
    program.FinishesAt m m'.state.status m'.state := by
  obtain ⟨hrunning, statement, t, hf, he, hstate, -⟩ := step_eq_running hs
  rw [hstate] at hr ⊢
  unfold Program.execute at he
  split at he
  next => simp at he
  next =>
    obtain ⟨rfl, -⟩ : Transition.silent m.state.fetched = t ∧ m.host = m'.host := by
      simpa using he
    exact absurd hrunning (by simpa [State.fetched] using hr)
  next i hd =>
    obtain ⟨status, hhalts, rfl⟩ := Instruction.halts_of_execute he hrunning hr
    exact .instruction (instruction?_eq_some_iff.2 ⟨hrunning, statement, hf, hd⟩)
      (hhalts.congr fun _ => rfl)

/-- A run that finishes goes through running machines up to the one where there is a reason to
finish. -/
theorem exists_finishesAt (h : program.Ends m (.finished status) m')
    (hr : m.state.running = true) (hwf : m.state.WellFormed program.script)
    (hstatus : m.state.running = true → m.state.status = Status.noError) :
    ∃ n, (∀ k ≤ n, (program.next^[k] m).state.running = true ∧
        (program.next^[k] m).state.status = Status.noError) ∧
      (∀ k < n, program.step (program.next^[k] m) = .running (program.next^[k + 1] m)) ∧
      program.FinishesAt (program.next^[n] m) status m'.state := by
  have hfirst : ∀ k ≤ 0, (program.next^[k] m).state.running = true ∧
      (program.next^[k] m).state.status = Status.noError := by
    simpa using ⟨hr, hstatus hr⟩
  generalize hfinished : Outcome.finished status = outcome at h
  induction h with
  | now hs =>
    subst hfinished
    obtain ⟨rfl, rfl, hend⟩ := step_eq_finished hs
    refine ⟨0, hfirst, by simp, ?_⟩
    rw [hstatus hr]
    refine .endOfScript (Nat.le_antisymm hwf.pc_le ?_)
    exact Array.getElem?_eq_none_iff.1 (hend hr)
  | @later m m₁ m' _ hs hends ih =>
    have hnext (k : Nat) : program.next^[k + 1] m = program.next^[k] m₁ := by
      rw [Function.iterate_succ_apply, next, hs, Progress.machine]
    cases hr₁ : m₁.state.running with
    | true =>
      obtain ⟨t, hround, ht, -⟩ := program.round_next m
      rw [next, hs, Progress.machine] at ht
      have hwf₁ : m₁.state.WellFormed program.script := ht ▸ hwf.round hround
      have hstatus₁ : m₁.state.running = true → m₁.state.status = Status.noError :=
        ht ▸ State.status_of_round hstatus hround
      obtain ⟨n, hrunning, hsteps, hfinishes⟩ :=
        ih hr₁ hwf₁ hstatus₁ (by simpa using ⟨hr₁, hstatus₁ hr₁⟩) hfinished
      refine ⟨n + 1, fun k hk => ?_, fun k hk => ?_, by rwa [hnext]⟩
      · cases k with
        | zero => exact hfirst 0 (Nat.le_refl 0)
        | succ k =>
          rw [hnext]
          exact hrunning k (by omega)
      · cases k with
        | zero =>
          rw [hnext]
          exact hs
        | succ k =>
          rw [hnext, hnext]
          exact hsteps k (by omega)
    | false =>
      -- The halted machine finishes in the next round and does nothing else.
      have hfinish : program.Ends m₁ (.finished m₁.state.status) _ := .now (step_of_halted hr₁)
      obtain ⟨hstatus, rfl⟩ := hends.unique hfinish
      obtain rfl := Outcome.finished.inj (hfinished.trans hstatus)
      exact ⟨0, hfirst, by simp, finishesAt_of_step hs hr₁⟩

/-- Whatever operations a fresh machine has been asked for, its status is that of no error as long
as it is running. Once it has halted, no operations start it again or change its status, and a run
ends at once with that status, leaving everything but the journal as it is.

A run of a running machine that finishes with a status has dispatched statements that left the
machine running, up to the reason why it finishes: the end of the script, or a statement that halts
the machine and changes nothing but the program counter and the status. -/
theorem halting_is_final (program : Program) (host : η) (journal : Array Event)
    (operations : List Operation) :
    let m := Machine.performAll program { host, journal } operations
    (m.state.running = true → m.state.status = Status.noError) ∧
    (m.state.running = false →
      (∀ more, (m.performAll program more).state.running = false ∧
        (m.performAll program more).state.status = m.state.status) ∧
      ∀ fuel, program.run (fuel + 1) m = (some (.finished m.state.status),
        { m with journal := m.journal.push (.finished m.state.status) })) ∧
    (m.state.running = true → ∀ fuel status m',
      program.run fuel m = (some (.finished status), m') →
      ∃ n, let machine (k : Nat) := program.next^[k] m
        (∀ k ≤ n, (machine k).state.running = true ∧
          (machine k).state.status = Status.noError) ∧
        (∀ k < n, program.step (machine k) = .running (machine (k + 1))) ∧
        program.FinishesAt (machine n) status m'.state) := by
  intro m
  have hstatus : m.state.running = true → m.state.status = Status.noError :=
    Machine.status_performAll (fun _ => rfl) operations
  have hwf : m.state.WellFormed program.script :=
    Machine.wellFormed_performAll (.empty program.script) operations
  refine ⟨hstatus, fun hr => ⟨Machine.halted_performAll hr, run_of_halted hr⟩,
    fun hr fuel status m' hrun => ?_⟩
  exact exists_finishesAt (ends_iff_exists_run.2 ⟨fuel, hrun⟩) hr hwf hstatus

/-- A script that reads an integer from a line and exits with it. -/
def exitWithInput : Program where
  script := .ofRows [[0, 0, 0, 0], [12, 0, 0], [5, 1, 0]]

theorem exitWithInput_halting_is_final :
    let m : Machine MemoryHost := { host := .ofLines ["x".toUTF8] }
    let halted := m.performAll exitWithInput [.run 3]
    (exitWithInput.run 3 m).1 = some (.finished Status.invalidInput) ∧
      (∃ n, exitWithInput.FinishesAt (exitWithInput.next^[n] m) Status.invalidInput
        (exitWithInput.run 3 m).2.state) ∧
      ∀ more, (halted.performAll exitWithInput more).state.status = Status.invalidInput := by
  intro m halted
  have houtcome : (exitWithInput.run 3 m).1 = some (.finished Status.invalidInput) := by
    decide +kernel
  have hrunning : halted.state.running = false := by decide +kernel
  have hstatus : halted.state.status = Status.invalidInput := by decide +kernel
  obtain ⟨n, -, -, hfinishes⟩ := (halting_is_final exitWithInput m.host #[] []).2.2 rfl 3
    Status.invalidInput (exitWithInput.run 3 m).2 (Prod.ext houtcome rfl)
  refine ⟨houtcome, ⟨n, hfinishes⟩, fun more => ?_⟩
  rw [← hstatus]
  exact (((halting_is_final exitWithInput m.host #[] [.run 3]).2.1 hrunning).1 more).2

end Program

end IntScript
