import IntScript.Proofs.Round

/-!
# Statements that fail

A statement that fails ends the run with an error that names the statement. Although it is carried
out in place and nothing is rolled back, it leaves the state as it was, the program counter already
pointing behind it, so that a further run goes on from there.

What it does to the host is said by `Instruction.FaultyUse`: only a write that fails, a read that
fails, and a read whose line has no slot to go to touch the host at all.
-/

namespace IntScript

/-! ## What can be seen of a host -/

/-- The input a host has not handed out yet, the lines it has written and its sleeps. A read takes
the next item of the input and nothing else, and a write that fails leaves no trace. -/
structure Host.View (η : Type) [Host η] where
  input : η → List InputItem
  output : η → Array String
  sleeps : η → Array Nat
  of_write_error : ∀ {line h reason h'}, Host.writeLine line h = (.error reason, h') →
    input h' = input h ∧ output h' = output h ∧ sleeps h' = sleeps h
  of_read : ∀ {h result h'}, Host.readLine h = (result, h') →
    output h' = output h ∧ sleeps h' = sleeps h
  of_read_error : ∀ {h reason h'}, Host.readLine h = (.error reason, h') →
    input h = .failure reason :: input h'
  of_read_line : ∀ {h bytes h'}, Host.readLine h = (.ok (some bytes), h') →
    input h = .line bytes :: input h'

namespace MemoryHost

theorem eq_of_writeLine_error {line reason : String} {h h' : MemoryHost}
    (hw : h.writeLine line = (.error reason, h')) : h' = { h with writes := h.writes + 1 } := by
  unfold writeLine at hw
  split at hw
  · split at hw
    · exact (Prod.mk.inj hw).2.symm
    · simp at hw
  · simp at hw

/-- A host in memory keeps everything there is to see of it. -/
def view : Host.View MemoryHost where
  input h := h.input
  output h := h.output
  sleeps h := h.sleeps
  of_write_error hw := by
    rw [eq_of_writeLine_error hw]
    exact ⟨rfl, rfl, rfl⟩
  of_read {h result h'} hr := by
    change h.readLine = _ at hr
    unfold readLine at hr
    split at hr <;> obtain ⟨-, rfl⟩ := Prod.mk.inj hr <;> exact ⟨rfl, rfl⟩
  of_read_error {h reason h'} hr := by
    change h.readLine = _ at hr
    unfold readLine at hr
    split at hr
    next => simp at hr
    next => simp at hr
    next reason' rest hinput =>
      obtain ⟨hreason, rfl⟩ := Prod.mk.inj hr
      rw [hinput, Except.error.inj hreason]
  of_read_line {h bytes h'} hr := by
    change h.readLine = _ at hr
    unfold readLine at hr
    split at hr
    next => simp at hr
    next bytes' rest hinput =>
      obtain ⟨hbytes, rfl⟩ := Prod.mk.inj hr
      rw [hinput, Option.some.inj (Except.ok.inj hbytes)]
    next => simp at hr

end MemoryHost

/-! ## Instructions that fail -/

namespace State

variable {s : State} {addr : Int64} {object : Object} {fault : Fault}

theorem resolve_eq_error (h : s.resolve addr = .error fault) : fault = .symbolNotFound addr := by
  unfold resolve at h
  split at h
  · cases h
  · exact (Except.error.inj h).symm

theorem set_eq_error (h : s.set addr object = .error fault) :
    fault = .symbolNotFound addr ∧ s.resolve addr = .error (.symbolNotFound addr) := by
  cases hr : s.resolve addr with
  | ok index => simp [State.set, hr] at h
  | error fault' =>
    obtain rfl := resolve_eq_error hr
    simp only [State.set, hr, Except.error.injEq] at h
    exact ⟨h.symm, rfl⟩

end State

namespace Instruction

variable {η : Type} [Host η]

def IsInput (i : Instruction) : Prop := ∃ dest format, i = .input dest format

def IsPrint (i : Instruction) : Prop := ∃ source, i = .print source ∨ i = .printString source

theorem IsPrint.not_isInput {i : Instruction} (h : i.IsPrint) : ¬i.IsInput := by
  obtain ⟨source, rfl | rfl⟩ := h <;> simp [IsInput]

/-- How an instruction that fails in state `s` with the given fault uses the host: `h` is the host
before and the last argument the host after it. -/
inductive FaultyUse (s : State) (h : η) : Instruction → Fault → η → Prop where
  | none {i : Instruction} (fault : Fault) : ¬i.IsInput → FaultyUse s h i fault h
  | write {i : Instruction} {line reason : String} {h' : η} :
      i.IsPrint → Host.writeLine line h = (.error reason, h') →
      FaultyUse s h i (.io reason) h'
  | read (dest : Int64) (format : InputFormat) {reason : String} {h' : η} :
      Host.readLine h = (.error reason, h') →
      FaultyUse s h (.input dest format) (.io reason) h'
  /-- A line has been read in the right format, but there is no slot for it. -/
  | store {dest : Int64} {format : InputFormat} {bytes : ByteArray} {object : Object} {h' : η} :
      Host.readLine h = (.ok (some bytes), h') → format.read? bytes = some object →
      s.resolve dest = .error (.symbolNotFound dest) →
      FaultyUse s h (.input dest format) (.symbolNotFound dest) h'

variable {program : Program} {s : State} {h h' : η} {fault : Fault}

theorem faultyUse_of_print {i : Instruction} (hi : i.IsPrint) {line : Except Fault String}
    (ht : s.print line h = (.error fault, h')) : i.FaultyUse s h fault h' := by
  cases line with
  | error fault' =>
    obtain ⟨-, rfl⟩ := Prod.mk.inj ht
    exact .none fault hi.not_isInput
  | ok line =>
    cases hw : Host.writeLine line h with
    | mk result h'' =>
      cases result with
      | ok => simp [State.print, hw] at ht
      | error reason =>
        obtain ⟨rfl, rfl⟩ : Fault.io reason = fault ∧ h'' = h' := by
          simpa [State.print, hw] using ht
        exact .write hi hw

theorem faultyUse_of_receive {dest : Int64} {format : InputFormat} {line : Option ByteArray}
    (hr : Host.readLine h = (.ok line, h')) (ht : s.receive dest format line = .error fault) :
    (input dest format).FaultyUse s h fault h' := by
  cases line with
  | none => cases ht
  | some bytes =>
    cases hobject : format.read? bytes with
    | none => simp [State.receive, hobject] at ht
    | some object =>
      cases hset : s.set dest object with
      | ok s' => simp [State.receive, hobject, hset, Except.map] at ht
      | error fault' =>
        obtain rfl : fault' = fault := by
          simpa [State.receive, hobject, hset, Except.map] using ht
        obtain ⟨rfl, hresolve⟩ := State.set_eq_error hset
        exact .store hr hobject hresolve

/-- Every instruction that fails uses the host in one of the ways of `FaultyUse`. -/
theorem faultyUse_of_execute {i : Instruction}
    (ht : i.execute program s h = (.error fault, h')) : i.FaultyUse s h fault h' := by
  cases i with
  | print source => exact faultyUse_of_print ⟨source, .inl rfl⟩ ht
  | printString source => exact faultyUse_of_print ⟨source, .inr rfl⟩ ht
  | sleep millis =>
    cases hm : millis.scalar s with
    | ok n => simp [execute, hm] at ht
    | error fault' =>
      obtain ⟨-, rfl⟩ : fault' = fault ∧ h = h' := by simpa [execute, hm] using ht
      exact .none fault (by simp [IsInput])
  | input dest format =>
    cases hr : Host.readLine h with
    | mk result h'' =>
      cases result with
      | error reason =>
        obtain ⟨rfl, rfl⟩ : Fault.io reason = fault ∧ h'' = h' := by
          simpa [execute, hr] using ht
        exact .read dest format hr
      | ok line =>
        obtain ⟨hreceive, rfl⟩ : s.receive dest format line = .error fault ∧ h'' = h' := by
          simpa [execute, hr] using ht
        exact faultyUse_of_receive hr hreceive
  | _ =>
    -- The other instructions do not know the host.
    obtain rfl : h = h' := congrArg Prod.snd ht
    exact .none fault (by simp [IsInput])

/-- Reading for the slot `dest` has failed after taking one item from the input: the failure that is
reported, or a line in the right format while there is no such slot. -/
def TakesOne (view : Host.View η) (s : State) (h : η) (dest : Int64) (format : InputFormat)
    (fault : Fault) (h' : η) : Prop :=
  (∃ reason, fault = .io reason ∧ view.input h = .failure reason :: view.input h') ∨
    ∃ bytes object, fault = .symbolNotFound dest ∧ s.resolve dest = .error fault ∧
      format.read? bytes = some object ∧ view.input h = .line bytes :: view.input h'

/-- An instruction that fails writes nothing and does not sleep. It takes an item of the input only
if it is meant to read. -/
theorem FaultyUse.view {i : Instruction} (hu : i.FaultyUse s h fault h') (view : Host.View η) :
    view.output h' = view.output h ∧ view.sleeps h' = view.sleeps h ∧
      (¬i.IsInput → view.input h' = view.input h) ∧
      ∀ dest format, i = .input dest format → TakesOne view s h dest format fault h' := by
  cases hu with
  | none _ hi => exact ⟨rfl, rfl, fun _ => rfl, fun dest format h => (hi ⟨dest, format, h⟩).elim⟩
  | write hi hw =>
    obtain ⟨hinput, houtput, hsleeps⟩ := view.of_write_error hw
    refine ⟨houtput, hsleeps, fun _ => hinput, fun dest format h => ?_⟩
    exact (hi.not_isInput ⟨dest, format, h⟩).elim
  | @read dest format reason _ hr =>
    obtain ⟨houtput, hsleeps⟩ := view.of_read hr
    refine ⟨houtput, hsleeps, fun hi => (hi ⟨dest, format, rfl⟩).elim, fun _ _ _ => ?_⟩
    exact .inl ⟨reason, rfl, view.of_read_error hr⟩
  | @store dest format bytes object _ hr hobject hresolve =>
    obtain ⟨houtput, hsleeps⟩ := view.of_read hr
    refine ⟨houtput, hsleeps, fun hi => (hi ⟨dest, format, rfl⟩).elim, ?_⟩
    rintro _ _ ⟨⟩
    exact .inr ⟨bytes, object, rfl, hresolve, hobject, view.of_read_line hr⟩

end Instruction

/-! ## Statements and runs that fail -/

variable {η : Type} [Host η]

/-- How a statement that fails uses the host. A malformed statement does not touch it. -/
def Statement.FaultyUse (s : State) (h : η) (statement : Statement) (fault : Fault) (h' : η) :
    Prop :=
  (∃ error, Instruction.decode statement.tokens = .error error ∧ fault = .decode error ∧ h' = h) ∨
    ∃ i, Instruction.decode statement.tokens = .ok (some i) ∧ i.FaultyUse s h fault h'

theorem Statement.FaultyUse.view {s : State} {h h' : η} {statement : Statement} {fault : Fault}
    (hu : statement.FaultyUse s h fault h') (view : Host.View η) :
    view.output h' = view.output h ∧ view.sleeps h' = view.sleeps h ∧
      ((∀ dest format, Instruction.decode statement.tokens ≠ .ok (some (.input dest format))) →
        view.input h' = view.input h) ∧
      ∀ dest format, Instruction.decode statement.tokens = .ok (some (.input dest format)) →
        Instruction.TakesOne view s h dest format fault h' := by
  obtain ⟨error, hd, -, rfl⟩ | ⟨i, hd, hu⟩ := hu
  · simp [hd]
  · obtain ⟨houtput, hsleeps, hother, hinput⟩ := hu.view view
    refine ⟨houtput, hsleeps, fun hne => hother ?_, fun dest format hd' => hinput dest format ?_⟩
    · rintro ⟨dest, format, rfl⟩
      exact hne dest format hd
    · simpa [hd] using hd'

namespace Program

/-- The next round dispatches a statement that fails and leaves the machine `m'` behind. -/
structure FailsAt (program : Program) (m : Machine η) (statement : Statement) (fault : Fault)
    (m' : Machine η) : Prop where
  running : m.state.running = true
  fetched : program.script.statement? m.state.pc = some statement
  failed : (Procedure.ofTokens program statement.tokens).run
    { m with
      state := m.state.fetched
      journal := m.journal.push (.dispatch statement.line statement.tokens) } = .error fault m'

variable {program : Program} {m m' : Machine η} {statement : Statement} {fault : Fault}

/-- A statement that fails has a fault for its effect, and has changed neither the state nor the
journal since it was fetched. -/
theorem failsAt_iff :
    program.FailsAt m statement fault m' ↔
      m.state.running = true ∧ program.script.statement? m.state.pc = some statement ∧
      program.execute statement.tokens m.state.fetched m.host = (.error fault, m'.host) ∧
      m'.state = m.state.fetched ∧
      m'.journal = m.journal.push (.dispatch statement.line statement.tokens) := by
  constructor
  · rintro ⟨hrunning, hfetched, hfailed⟩
    exact ⟨hrunning, hfetched, Procedure.run_ofTokens_eq_error_iff.1 hfailed⟩
  · rintro ⟨hrunning, hfetched, hfailed⟩
    exact ⟨hrunning, hfetched, Procedure.run_ofTokens_eq_error_iff.2 hfailed⟩

namespace FailsAt

theorem step (h : program.FailsAt m statement fault m') :
    program.step m = .ended (.failed ⟨statement.line, statement.tokens, fault⟩) m' := by
  rw [step_of_fetched h.running h.fetched, dispatch, h.failed]

theorem execute (h : program.FailsAt m statement fault m') :
    program.execute statement.tokens m.state.fetched m.host = (.error fault, m'.host) :=
  (failsAt_iff.1 h).2.2.1

theorem unchanged (h : program.FailsAt m statement fault m') :
    m'.state = m.state.fetched ∧
      m'.journal = m.journal.push (.dispatch statement.line statement.tokens) :=
  (failsAt_iff.1 h).2.2.2

theorem tokens_ne_nil (h : program.FailsAt m statement fault m') : statement.tokens ≠ [] := by
  intro hnil
  have hexecute := h.execute
  simp [Program.execute, hnil, Instruction.decode] at hexecute

theorem faultyUse (h : program.FailsAt m statement fault m') :
    statement.FaultyUse m.state.fetched m.host fault m'.host := by
  have hexecute := h.execute
  unfold Program.execute at hexecute
  split at hexecute
  next error hd =>
    obtain ⟨hfault, hhost⟩ := Prod.mk.inj hexecute
    exact .inl ⟨error, hd, (Except.error.inj hfault).symm, hhost.symm⟩
  next => simp at hexecute
  next i hd => exact .inr ⟨i, hd, Instruction.faultyUse_of_execute hexecute⟩

end FailsAt

/-- A round that fails has dispatched a statement that fails. -/
theorem failsAt_of_step {error : RuntimeError} (h : program.step m = .ended (.failed error) m') :
    ∃ statement, program.FailsAt m statement error.fault m' ∧
      error = ⟨statement.line, statement.tokens, error.fault⟩ := by
  obtain ⟨-, hs⟩ | ⟨-, -, hs⟩ | ⟨statement, hr, hf, ⟨_, _, -, hs⟩ | ⟨fault, host, he, hs⟩⟩ :=
    program.step_cases m <;> cases hs.symm.trans h
  exact ⟨statement, failsAt_iff.2 ⟨hr, hf, he, rfl, rfl⟩, rfl⟩

/-- A statement that fails ends the run, however long the run has been going on, with an error that
names the statement. Whichever of its steps has failed, the machine it leaves behind differs from
the one before the dispatch in the program counter, in the journal, and in its host only as far as
`Statement.FaultyUse` allows: nothing is written, no time is slept, and an item of the input is
taken only by a statement that reads, which then has met a read failure or has no slot for the line.
A further run goes on with the statement behind the failed one. -/
theorem run_of_failing_statement {program : Program} {m₀ m m' : Machine η} {n : Nat}
    {statement : Statement} {fault : Fault} (hrun : program.run n m₀ = (none, m))
    (hfails : program.FailsAt m statement fault m') :
    statement.tokens ≠ [] ∧
      (∀ fuel > n, program.run fuel m₀ =
        (some (.failed ⟨statement.line, statement.tokens, fault⟩), m')) ∧
      m'.state = { m.state with pc := m.state.pc + 1 } ∧ m'.state.running = true ∧
      m'.journal = m.journal.push (.dispatch statement.line statement.tokens) ∧
      statement.FaultyUse m.state.fetched m.host fault m'.host ∧
      (∀ view : Host.View η,
        view.output m'.host = view.output m.host ∧ view.sleeps m'.host = view.sleeps m.host ∧
        ((∀ dest format, Instruction.decode statement.tokens ≠ .ok (some (.input dest format))) →
          view.input m'.host = view.input m.host) ∧
        ∀ dest format, Instruction.decode statement.tokens = .ok (some (.input dest format)) →
          Instruction.TakesOne view m.state m.host dest format fault m'.host) ∧
      (program.script.statement? (m.state.pc + 1) = none →
        program.step m' = Machine.finish { m' with state.running := false }) ∧
      ∀ following, program.script.statement? (m.state.pc + 1) = some following →
        program.step m' = program.dispatch following { m' with state.pc := m.state.pc + 2 } := by
  obtain ⟨hstate, hjournal⟩ := hfails.unchanged
  have hrunning : m'.state.running = true := by
    rw [hstate]
    exact hfails.running
  have hpc : m'.state.pc = m.state.pc + 1 := by rw [hstate, State.fetched]
  refine ⟨hfails.tokens_ne_nil, fun fuel hfuel => run_of_last hrun hfails.step hfuel, hstate,
    hrunning, hjournal, hfails.faultyUse, hfails.faultyUse.view, fun hnone => ?_,
    fun following hfollowing => ?_⟩
  · exact step_of_ended hrunning (by rwa [hpc])
  · rw [step_of_fetched hrunning (by rwa [hpc]), State.fetched, hpc]

/-- A script that reads a line for a slot that does not exist, with a statement on either side. -/
def lostLine : Program where
  script := .ofRows [[0, 0, 0, 1], [12, 0, 5], [5, 1, 0]]

theorem lostLine_run_of_failing_statement :
    let m₀ : Machine MemoryHost := { host := .ofLines ["7".toUTF8, "8".toUTF8] }
    ∃ m m' : Machine MemoryHost, lostLine.run 1 m₀ = (none, m) ∧
      lostLine.FailsAt m ⟨2, [12, 0, 5]⟩ (.symbolNotFound 5) m' ∧
      lostLine.run 9 m₀ = (some (.failed ⟨2, [12, 0, 5], .symbolNotFound 5⟩), m') ∧
      m'.state = { m.state with pc := 2 } ∧
      ∃ line, m.host.input = .line line :: m'.host.input := by
  intro m₀
  let m := lostLine.next m₀
  have hrun : lostLine.run 1 m₀ = (none, m) := rfl
  have hfails : lostLine.FailsAt m ⟨2, [12, 0, 5]⟩ (.symbolNotFound 5)
      (lostLine.next m) := ⟨rfl, rfl, rfl⟩
  obtain ⟨-, herror, hstate, -, -, -, hview, -⟩ := run_of_failing_statement hrun hfails
  obtain ⟨-, -, -, hinput⟩ := hview MemoryHost.view
  refine ⟨m, _, hrun, hfails, herror 9 (by decide), hstate, ?_⟩
  obtain ⟨reason, hfault, -⟩ | ⟨line, -, -, -, -, hline⟩ := hinput 5 .int rfl
  · cases hfault
  · exact ⟨line, hline⟩

end Program

end IntScript
