import IntScript.Proofs.Failure
import IntScript.Proofs.Halting

/-!
# Code behind a script

A run sees the statements it comes to, and a forward scan sees those behind it. Code appended to a
script is therefore out of sight of every run of the script alone, up to its end: where a scan finds
a declaration in the script, it finds the same one with more code behind it. Only a scan that finds
none can be led into the appended code.
-/

namespace IntScript

/-- One script behind the other. The statements keep their lines. -/
instance : Append Script where
  append script tail := ⟨script.statements ++ tail.statements⟩

/-- The program with more code behind its script. -/
def Program.extend (program : Program) (tail : Script) : Program :=
  { program with script := program.script ++ tail }

/-- A forward scan has found no declaration of its label. -/
def RuntimeError.IsScanFault (error : RuntimeError) : Prop :=
  ∃ condition label,
    Instruction.decode error.tokens = .ok (some (.ifJump condition label .scan)) ∧
      error.fault = .labelNotFound label

/-! ## Statements and scans -/

namespace Script

variable {script : Script} {pc : Nat} {statement : Statement}

theorem statements_append (script tail : Script) :
    (script ++ tail).statements = script.statements ++ tail.statements := rfl

theorem statement?_append (h : script.statement? pc = some statement) (tail : Script) :
    (script ++ tail).statement? pc = some statement := by
  rw [statement?, statements_append, Array.getElem?_append_left (lt_size_of_statement? h)]
  exact h

/-- The appended code begins where the script ends. -/
theorem statement?_append_size (script tail : Script) :
    (script ++ tail).statement? script.size = tail.statement? 0 := by
  rw [statement?, size, statements_append, Array.getElem?_append_right (Nat.le_refl _),
    Nat.sub_self, statement?]

end Script

/-- A scan takes the first declaration, whatever follows it. -/
theorem State.distanceToLabel_append {s : State} {script : Script} {label : Int64} {distance : Nat}
    (h : s.distanceToLabel script label = some distance) (tail : Script) :
    s.distanceToLabel (script ++ tail) label = some distance := by
  unfold State.distanceToLabel at h ⊢
  rw [Script.statements_append, Array.toList_append, List.drop_append, List.findIdx?_append, h]
  rfl

theorem State.scanForward_append {s : State} {script : Script} {label : Int64}
    (h : s.scanForward script label ≠ .error (.labelNotFound label)) (tail : Script) :
    s.scanForward (script ++ tail) label = s.scanForward script label := by
  cases hd : s.distanceToLabel script label with
  | none => simp [State.scanForward, hd] at h
  | some distance => simp only [State.scanForward, hd, State.distanceToLabel_append hd tail]

variable {η : Type} [Host η] {program : Program} {s : State} {host host' : η}
  {result : Except Fault Transition}

/-- The appended code makes no difference to an instruction that is no scan without success. -/
theorem Instruction.execute_extend {i : Instruction}
    (h : i.execute program s host = (result, host'))
    (hscan : ∀ condition label, i = .ifJump condition label .scan →
      result ≠ .error (.labelNotFound label)) (tail : Script) :
    i.execute (program.extend tail) s host = (result, host') := by
  cases i with
  | ifJump condition label jump =>
    rw [← h]
    obtain rfl : s.ifJump program condition label jump = result := congrArg Prod.fst h
    simp only [Instruction.execute, State.ifJump]
    cases hholds : condition.holds s with
    | error fault => rfl
    | ok met =>
      cases met with
      | false => rfl
      | true =>
        cases jump with
        | goto => rfl
        | scan =>
          have hne := hscan condition label rfl
          simp only [State.ifJump, hholds] at hne
          exact congrArg (·, host) (State.scanForward_append hne tail)
  | _ => exact h

theorem Program.execute_extend {tokens : List Int64}
    (h : program.execute tokens s host = (result, host'))
    (hscan : ∀ condition label,
      Instruction.decode tokens = .ok (some (.ifJump condition label .scan)) →
      result ≠ .error (.labelNotFound label)) (tail : Script) :
    (program.extend tail).execute tokens s host = (result, host') := by
  unfold Program.execute at h ⊢
  split at h
  next => exact h
  next => exact h
  next i hd =>
    refine Instruction.execute_extend h (fun condition label hi => ?_) tail
    exact hscan condition label (hi ▸ hd)

/-! ## Runs -/

namespace Program

variable {m m' : Machine η} {outcome : Outcome} {n fuel : Nat}

/-- A round that does not end the run is the same round with more code behind the script. -/
theorem step_extend_of_running (h : program.step m = .running m') (tail : Script) :
    (program.extend tail).step m = .running m' := by
  obtain ⟨hrunning, statement, t, hs, he, -⟩ := step_eq_running h
  rw [← h, step_of_fetched hrunning hs,
    step_of_fetched hrunning (Script.statement?_append hs tail)]
  simp only [dispatch_eq]
  rw [he, Program.execute_extend he (fun _ _ _ => by simp) tail]

/-- A statement that fails does so with more code behind the script, unless it is a scan. -/
theorem step_extend_of_failed {error : RuntimeError}
    (h : program.step m = .ended (.failed error) m') (herror : ¬error.IsScanFault)
    (tail : Script) :
    (program.extend tail).step m = .ended (.failed error) m' := by
  obtain ⟨statement, hfails, hstatement⟩ := failsAt_of_step h
  have hscan : ∀ condition label,
      Instruction.decode statement.tokens = .ok (some (.ifJump condition label .scan)) →
      (.error error.fault : Except Fault Transition) ≠ .error (.labelNotFound label) := by
    intro condition label hd hfault
    refine herror ⟨condition, label, ?_, Except.error.inj hfault⟩
    rw [hstatement]
    exact hd
  have hextend : (program.extend tail).FailsAt m statement error.fault m' :=
    failsAt_iff.2 ⟨hfails.running, Script.statement?_append hfails.fetched tail,
      Program.execute_extend hfails.execute hscan tail, hfails.unchanged⟩
  rw [hextend.step, ← hfails.step, h]

theorem run_extend_of_none (h : program.run n m = (none, m')) (tail : Script) :
    (program.extend tail).run n m = (none, m') := by
  induction n generalizing m with
  | zero => exact h
  | succ n ih =>
    cases hs : program.step m with
    | running m₁ =>
      rw [run_succ_of_running hs] at h
      rw [run_succ_of_running (step_extend_of_running hs tail)]
      exact ih h
    | ended outcome m₁ =>
      rw [run_succ_of_ended hs] at h
      cases h

/-- If the run of a program ends in a round that is the same with more code behind the script, the
whole run is the same. -/
theorem run_extend_of_last {m₁ m₂ : Machine η} {outcome₂ : Outcome} {tail : Script}
    (h : program.run fuel m = (some outcome, m')) (hn : program.run n m = (none, m₁))
    (hend : program.step m₁ = .ended outcome₂ m₂)
    (hextend : (program.extend tail).step m₁ = .ended outcome₂ m₂) :
    (program.extend tail).run fuel m = (some outcome, m') := by
  have hlt := lt_of_run h hn
  rw [← h, run_of_last hn hend hlt]
  exact run_of_last (run_extend_of_none hn tail) hextend hlt

/-- After `n` rounds the run comes to an exit, or to an input without a line it can read, which
halts the machine. -/
def HaltsAfter (program : Program) (m : Machine η) (n : Nat) : Prop :=
  ∃ m₁ i status, program.run n m = (none, m₁) ∧ program.instruction? m₁.state = some i ∧
    i.Halts m₁.state m₁.host status

/-- After `n` rounds the run has come to the end of the script, in the machine `m₁`. -/
structure RunsOffAfter (program : Program) (m : Machine η) (n : Nat) (m₁ : Machine η) : Prop where
  run : program.run n m = (none, m₁)
  running : m₁.state.running = true
  pc : m₁.state.pc = program.script.size

/-- A run that halts does so in a round that no code behind the script can change. -/
theorem run_extend_of_haltsAfter (h : program.run fuel m = (some outcome, m'))
    (hhalts : program.HaltsAfter m n) (tail : Script) :
    (program.extend tail).run fuel m = (some outcome, m') := by
  obtain ⟨m₁, i, status, hn, hi, hhalts⟩ := hhalts
  have hfetched : i.Halts m₁.state.fetched m₁.host status := hhalts.congr fun _ => rfl
  obtain ⟨host, he⟩ := hfetched.exists_execute program
  obtain ⟨m₂, hstep, hstate⟩ := exists_step_of_execute hi he
  have hrunning : m₂.state.running = false := by rw [hstate]; rfl
  have hn₂ : program.run (n + 1) m = (none, m₂) := by
    rw [run_add hn 1, run_succ_of_running hstep, run_zero]
  exact run_extend_of_last h hn₂ (step_of_halted hrunning) (step_of_halted hrunning)

theorem RunsOffAfter.step {m₁ : Machine η} (hoff : program.RunsOffAfter m n m₁) :
    program.step m₁ = Machine.finish { m₁ with state.running := false } :=
  step_of_ended hoff.running (Array.getElem?_eq_none_iff.2 (Nat.le_of_eq hoff.pc.symm))

/-- A run that comes to the end of the script only stops the machine there. -/
theorem RunsOffAfter.eq_of_run {m₁ : Machine η} (hoff : program.RunsOffAfter m n m₁)
    (h : program.run fuel m = (some outcome, m')) :
    m'.state = { m₁.state with running := false } ∧ m'.host = m₁.host := by
  cases h.symm.trans (run_of_last hoff.run hoff.step (lt_of_run h hoff.run))
  exact ⟨rfl, rfl⟩

/-- A run of a fresh machine that ends is halted, fails, or comes to the end of the script. -/
theorem halts_or_fails_or_runsOff {host : η} {journal : Array Event}
    (h : program.run fuel { host, journal } = (some outcome, m')) :
    (∃ n, program.HaltsAfter { host, journal } n) ∨ (∃ error, outcome = .failed error) ∨
      ∃ n m, program.RunsOffAfter { host, journal } n m := by
  cases outcome with
  | failed error => exact .inr (.inl ⟨error, rfl⟩)
  | finished status =>
    obtain ⟨n, hrunning, hsteps, hfinishes⟩ :=
      exists_finishesAt (ends_iff_exists_run.2 ⟨fuel, h⟩) rfl (.empty program.script) fun _ => rfl
    have hn := run_eq_iterate hsteps
    generalize hstate : m'.state = s' at hfinishes
    cases hfinishes with
    | endOfScript hpc => exact .inr (.inr ⟨n, _, hn, (hrunning n (Nat.le_refl n)).1, hpc⟩)
    | instruction hi hhalts => exact .inl ⟨n, _, _, _, hn, hi, hhalts⟩

/-- Appending code does not disturb a run that ends. If the run of a fresh machine is halted, or
fails other than by a scan that finds no declaration, it is the same run with more code behind the
script: the same rounds, the same outcome and the same machine left behind. If it comes to the end
of the script, the longer script is run through the same rounds to the machine that the run leaves
behind, except that it is still running, and goes on with the first statement of the appended
code. -/
theorem run_extend (program : Program) (tail : Script) {host : η} {journal : Array Event}
    (h : program.run fuel { host, journal } = (some outcome, m')) :
    let start : Machine η := { host, journal }
    let extended := program.extend tail
    ((∃ n, program.HaltsAfter start n) ∨ (∃ error, outcome = .failed error) ∨
      ∃ n m, program.RunsOffAfter start n m) ∧
    (∀ n, program.HaltsAfter start n → extended.run fuel start = (some outcome, m')) ∧
    (∀ error, outcome = .failed error → ¬error.IsScanFault →
      extended.run fuel start = (some outcome, m')) ∧
    ∀ n m, program.RunsOffAfter start n m →
      (∀ k ≤ n, extended.run k start = program.run k start) ∧
      extended.run n start = (none, m) ∧ m.state = { m'.state with running := true } ∧
      m.state.pc = program.script.size ∧ m.host = m'.host ∧
      ∀ statement, tail.statement? 0 = some statement →
        extended.step m = extended.dispatch statement { m with state := m.state.fetched } := by
  intro start extended
  refine ⟨halts_or_fails_or_runsOff h, fun n hhalts => run_extend_of_haltsAfter h hhalts tail,
    ?_, fun n m hoff => ?_⟩
  · rintro error rfl herror
    obtain ⟨n, m, hn, hend⟩ := exists_last_round h
    exact run_extend_of_last h hn hend (step_extend_of_failed hend herror tail)
  · obtain ⟨hstate, hhost⟩ := hoff.eq_of_run h
    refine ⟨fun k hk => ?_, run_extend_of_none hoff.run tail, ?_, hoff.pc, hhost.symm,
      fun statement hs => ?_⟩
    · obtain ⟨m₁, hm₁⟩ := exists_run_of_le hoff.run hk
      rw [hm₁, run_extend_of_none hm₁ tail]
    · rw [hstate, ← hoff.running]
    · refine step_of_fetched hoff.running ?_
      rw [hoff.pc, ← hs]
      exact Script.statement?_append_size program.script tail

/-- A script that skips a statement by a scan and exits. -/
def skipThenExit : Program where
  script := .ofRows [[11, 2, 1, 7], [8, 0, 1], [2, 7], [5, 0, 3]]

/-- A script that calls a label it never declares. -/
def callNowhere : Program where
  script := .ofRows [[8, 0, 1], [3, 7]]

/-- A script that prints and ends. -/
def printOne : Program where
  script := .ofRows [[8, 0, 1]]

/-- Code that declares the label of the two scripts above. -/
def declareThenPrint : Script := .ofRows [[2, 7], [8, 0, 2]]

theorem skipThenExit_run_extend :
    let m : Machine MemoryHost := { host := {} }
    (skipThenExit.HaltsAfter m 1 ∧
      ((skipThenExit.extend declareThenPrint).run 3 m).1 = some (.finished 3)) ∧
    ((callNowhere.extend declareThenPrint).run 2 m).1 =
      some (.failed ⟨2, [3, 7], .labelNotFound 7⟩) ∧
    ∃ m₁, printOne.RunsOffAfter m 1 m₁ ∧
      (printOne.extend declareThenPrint).run 1 m = (none, m₁) := by
  intro m
  have hexit : skipThenExit.run 3 m = (some (.finished 3), (skipThenExit.run 3 m).2) := rfl
  have hcall : callNowhere.run 2 m =
    (some (.failed ⟨2, [3, 7], .labelNotFound 7⟩), (callNowhere.run 2 m).2) := rfl
  have hprint : printOne.run 2 m = (some (.finished 0), (printOne.run 2 m).2) := rfl
  have hhalts : skipThenExit.HaltsAfter m 1 :=
    ⟨_, .exit (.literal 3), 3, rfl, rfl, .exit rfl⟩
  have hoff : printOne.RunsOffAfter m 1 (printOne.run 1 m).2 := ⟨rfl, rfl, rfl⟩
  have hscan : ¬RuntimeError.IsScanFault ⟨2, [3, 7], .labelNotFound 7⟩ := by
    rintro ⟨condition, label, hd, -⟩
    cases hd
  refine ⟨⟨hhalts, ?_⟩, ?_, _, hoff, ?_⟩
  · exact congrArg Prod.fst ((run_extend skipThenExit declareThenPrint hexit).2.1 1 hhalts)
  · exact congrArg Prod.fst ((run_extend callNowhere declareThenPrint hcall).2.2.1 _ rfl hscan)
  · exact ((run_extend printOne declareThenPrint hprint).2.2.2 1 _ hoff).2.1

/-- A scan that finds no declaration in the script may find one in the appended code. -/
example :
    let program : Program := { script := .ofRows [[11, 2, 1, 7]] }
    let m : Machine MemoryHost := { host := {} }
    (program.run 4 m).1 = some (.failed ⟨1, [11, 2, 1, 7], .labelNotFound 7⟩) ∧
      ((program.extend (.ofRows [[2, 7]])).run 4 m).1 = some (.finished 0) := by
  decide +kernel

end Program

end IntScript
