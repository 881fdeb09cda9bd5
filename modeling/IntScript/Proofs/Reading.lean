import IntScript.Proofs.HostSimulation

/-!
# What a run reads

A run reads once for each input it dispatches and not otherwise, and each read takes the next line.
Lines that are still unread make no difference: as long as no read comes to the end of the input,
more lines behind the input are only left over.
-/

namespace IntScript

/-! ## Reads of hosts in memory -/

namespace MemoryHost

/-- The host with more lines behind its input. -/
def withMore (more : List ByteArray) (h : MemoryHost) : MemoryHost :=
  { h with input := h.input ++ more.map .line }

/-- From `h` to `h'` there have been `n` reads, each of which has taken the next item. -/
structure Reads (n : Nat) (h h' : MemoryHost) : Prop where
  reads : h'.reads = h.reads + n
  input : h'.input = h.input.drop n

variable {h h' h'' : MemoryHost}

theorem Reads.refl (h : MemoryHost) : Reads 0 h h := ⟨rfl, rfl⟩

theorem Reads.trans {n k : Nat} (hn : Reads n h h') (hk : Reads k h' h'') :
    Reads (n + k) h h'' where
  reads := by rw [hk.reads, hn.reads, Nat.add_assoc]
  input := by rw [hk.input, hn.input, List.drop_drop]

theorem reads_writeLine (line : String) (h : MemoryHost) : Reads 0 h (h.writeLine line).2 := by
  unfold writeLine
  split
  · split <;> exact ⟨rfl, rfl⟩
  · exact ⟨rfl, rfl⟩

theorem reads_readLine (h : MemoryHost) : Reads 1 h h.readLine.2 := by
  unfold readLine
  split
  next hinput => exact ⟨rfl, by simp [hinput]⟩
  next hinput => exact ⟨rfl, by simp [hinput]⟩
  next hinput => exact ⟨rfl, by simp [hinput]⟩

theorem readLine_of_input {h : MemoryHost} {lines : List ByteArray}
    (hinput : h.input = lines.map .line) :
    h.readLine = (.ok lines.head?,
      { h with reads := h.reads + 1, input := lines.tail.map .line }) := by
  unfold readLine
  cases lines <;> simp [hinput]

end MemoryHost

/-- A fresh machine on a host that offers the given lines. -/
def Machine.ofLines (lines : List ByteArray) : Machine MemoryHost where
  host := .ofLines lines

/-! ## Reads of runs -/

/-- Whether the statement spells an input. -/
def Statement.isInput (s : Statement) : Bool :=
  match Instruction.decode s.tokens with
  | .ok (some (.input ..)) => true
  | _ => false

theorem Statement.isInput_of_decode {s : Statement} {i : Instruction}
    (h : Instruction.decode s.tokens = .ok (some i)) : s.isInput = (i.opcode == .input) := by
  unfold isInput
  rw [h]
  cases i <;> rfl

theorem State.reads_print (s : State) (line : Except Fault String) (h : MemoryHost) :
    MemoryHost.Reads 0 h (s.print line h).2 := by
  cases line with
  | error fault => exact .refl h
  | ok line =>
    have hwrite : MemoryHost.Reads 0 h (Host.writeLine line h).2 := h.reads_writeLine line
    simp only [State.print]
    cases hw : Host.writeLine line h with
    | mk result h' =>
      rw [hw] at hwrite
      cases result <;> exact hwrite

theorem Instruction.reads_execute (program : Program) (s : State) (h : MemoryHost)
    (i : Instruction) :
    MemoryHost.Reads (i.opcode == .input).toNat h (i.execute program s h).2 := by
  cases i with
  | print source => exact s.reads_print _ h
  | printString source => exact s.reads_print _ h
  | sleep millis =>
    simp only [Instruction.execute]
    cases millis.scalar s <;> exact ⟨rfl, rfl⟩
  | input dest format =>
    have hread : MemoryHost.Reads 1 h (Host.readLine h).2 := h.reads_readLine
    simp only [Instruction.execute]
    cases hr : Host.readLine h with
    | mk result h' =>
      rw [hr] at hread
      cases result <;> exact hread
  | _ => exact .refl h

namespace Program

/-- A statement reads once if it spells an input, and not otherwise. -/
theorem reads_execute (program : Program) (statement : Statement) (s : State) (h : MemoryHost) :
    MemoryHost.Reads statement.isInput.toNat h (program.execute statement.tokens s h).2 := by
  unfold Program.execute
  cases hd : Instruction.decode statement.tokens with
  | error error => simpa [Statement.isInput, hd] using .refl h
  | ok i? =>
    cases i? with
    | none => simpa [Statement.isInput, hd] using .refl h
    | some i =>
      rw [Statement.isInput_of_decode hd]
      exact i.reads_execute program s h

section Dispatched

variable {η : Type} [Host η]

/-- The statement that the next round dispatches. -/
def nextStatement? (program : Program) (s : State) : Option Statement :=
  if s.running then program.script.statement? s.pc else none

/-- The statements that a run dispatches in at most `fuel` rounds, in their order. -/
def dispatched (program : Program) : (fuel : Nat) → Machine η → List Statement
  | 0, _ => []
  | fuel + 1, m =>
    (program.nextStatement? m.state).toList ++
      match program.step m with
      | .running m' => program.dispatched fuel m'
      | .ended _ _ => []

end Dispatched

theorem reads_step (program : Program) (m : Machine MemoryHost) :
    MemoryHost.Reads ((program.nextStatement? m.state).toList.countP Statement.isInput) m.host
      (program.step m).machine.host := by
  obtain ⟨hr, hs⟩ | ⟨hr, hf, hs⟩ | ⟨statement, hr, hf, hs⟩ := program.step_cases m
  · simpa [nextStatement?, hr, hs, Machine.finish, Progress.machine] using .refl m.host
  · simpa [nextStatement?, hr, hf, hs, Machine.finish, Progress.machine] using .refl m.host
  · have hreads := program.reads_execute statement m.state.fetched m.host
    have hcount : (program.nextStatement? m.state).toList.countP Statement.isInput =
        statement.isInput.toNat := by
      cases hi : statement.isInput <;> simp [nextStatement?, hr, hf, hi]
    rw [hcount]
    obtain ⟨t, host, he, hs⟩ | ⟨fault, host, he, hs⟩ := hs <;> rw [he] at hreads <;> rw [hs] <;>
      exact hreads

/-- A run reads once for each input it dispatches. -/
theorem reads_run (program : Program) (fuel : Nat) (m : Machine MemoryHost) :
    MemoryHost.Reads ((program.dispatched fuel m).countP Statement.isInput) m.host
      (program.run fuel m).2.host := by
  induction fuel generalizing m with
  | zero => exact .refl m.host
  | succ fuel ih =>
    have hstep := program.reads_step m
    rw [dispatched, List.countP_append]
    cases hs : program.step m with
    | running m' =>
      rw [hs] at hstep
      rw [run_succ_of_running hs]
      exact hstep.trans (ih m')
    | ended outcome m' =>
      rw [hs] at hstep
      rw [run_succ_of_ended hs]
      exact hstep

/-- No read in the run of `m` meets the end of the input. -/
def NeverReadsAtEnd {η : Type} [Host η] (program : Program) (m : Machine η) : Prop :=
  ∀ n m₁, program.run n m = (none, m₁) → program.awaitsInput m₁.state = true →
    (Host.readLine m₁.host).1 ≠ .ok none

end Program

/-! ## Unread lines -/

namespace MemoryHost

variable {more : List ByteArray}

theorem writeLine_withMore (line : String) (h : MemoryHost) :
    (h.withMore more).writeLine line = Prod.map id (withMore more) (h.writeLine line) := by
  unfold writeLine
  cases hfailure : h.writeFailure with
  | none => simp [withMore, hfailure]
  | some failure =>
    by_cases hattempt : failure.1 = h.writes <;> simp [withMore, hfailure, hattempt]

/-- A read that does not meet the end of the input does not see what is behind it. -/
theorem readLine_withMore {h : MemoryHost} (hne : h.readLine.1 ≠ .ok none) :
    (h.withMore more).readLine = Prod.map id (withMore more) h.readLine := by
  unfold readLine at hne ⊢
  cases hinput : h.input with
  | nil => simp [hinput] at hne
  | cons item rest => cases item <;> simp [withMore, hinput]

theorem outputSimulation_withMore (more : List ByteArray) :
    Host.OutputSimulation fun h k : MemoryHost => k = h.withMore more where
  writeLine := by
    rintro h k rfl line
    have hwrite : Host.writeLine line (h.withMore more) =
      Prod.map id (withMore more) (Host.writeLine line h) := writeLine_withMore line h
    rw [hwrite]
    exact ⟨rfl, rfl⟩
  sleep := by
    rintro h k rfl millis
    rfl

end MemoryHost

namespace Program

theorem eq_of_alike_withMore {more : List ByteArray} {m m' : Machine MemoryHost}
    (h : m.Alike (fun h k => k = h.withMore more) m') :
    m' = { m with host := m.host.withMore more } := by
  obtain ⟨host, state, journal⟩ := m'
  obtain ⟨rfl, rfl, rfl⟩ := h
  rfl

theorem run_withMore {program : Program} {m : Machine MemoryHost} (h : program.NeverReadsAtEnd m)
    (more : List ByteArray) (fuel : Nat) :
    program.run fuel { m with host := m.host.withMore more } =
      ((program.run fuel m).1,
        { (program.run fuel m).2 with host := (program.run fuel m).2.host.withMore more }) := by
  have hstart : m.Alike (fun h k => k = h.withMore more)
      { m with host := m.host.withMore more } := ⟨rfl, rfl, rfl⟩
  obtain ⟨houtcome, halike⟩ := (MemoryHost.outputSimulation_withMore more).run hstart program (by
    rintro j m₁ hj hi k rfl
    have hread : Host.readLine (m₁.host.withMore more) =
      Prod.map id (MemoryHost.withMore more) (Host.readLine m₁.host) :=
      MemoryHost.readLine_withMore (h j m₁ hj hi)
    rw [hread]
    exact ⟨rfl, rfl⟩) fuel
  exact Prod.ext houtcome.symm (eq_of_alike_withMore halike)

/-- The reads and the lines left at any time in the run on a host that offers lines. -/
theorem reads_of_lines (program : Program) (lines : List ByteArray) (fuel : Nat) :
    let h := (program.run fuel (.ofLines lines)).2.host
    h.reads = (program.dispatched fuel (.ofLines lines)).countP Statement.isInput ∧
      h.input = (lines.drop h.reads).map .line := by
  intro h
  have hrun : MemoryHost.Reads _ (MemoryHost.ofLines lines) h :=
    program.reads_run fuel (.ofLines lines)
  have hreads : h.reads = (program.dispatched fuel (.ofLines lines)).countP Statement.isInput := by
    rw [hrun.reads]
    exact Nat.zero_add _
  refine ⟨hreads, ?_⟩
  rw [hrun.input, hreads, List.map_drop]
  rfl

/-- A run reads no further than it must.

If no read of a run meets the end of the input, more lines behind the input change nothing: after
any number of rounds there is the same outcome, if any, and the same machine, except that the
additional lines are left over too.

At any time there have been as many reads as inputs dispatched, and the lines left are those behind
as many lines of the input. An input in the next round takes in the first of them. -/
theorem run_reads_no_further (program : Program) (lines : List ByteArray) :
    (program.NeverReadsAtEnd (.ofLines lines) → ∀ more fuel,
      let r := program.run fuel (.ofLines lines)
      program.run fuel (.ofLines (lines ++ more)) =
        (r.1, { r.2 with host := r.2.host.withMore more })) ∧
    (∀ fuel,
      let h := (program.run fuel (.ofLines lines)).2.host
      h.reads = (program.dispatched fuel (.ofLines lines)).countP Statement.isInput ∧
        h.input = (lines.drop h.reads).map .line) ∧
    ∀ n m statement dest format, program.run n (.ofLines lines) = (none, m) →
      program.nextStatement? m.state = some statement →
      Instruction.decode statement.tokens = .ok (some (.input dest format)) →
      program.execute statement.tokens m.state.fetched m.host =
        (m.state.fetched.receive dest format lines[m.host.reads]?,
          { m.host with
            reads := m.host.reads + 1
            input := (lines.drop (m.host.reads + 1)).map .line }) := by
  refine ⟨fun hend more fuel => ?_, program.reads_of_lines lines,
    fun n m statement dest format hn _ hd => ?_⟩
  · have hstart : Machine.ofLines (lines ++ more) =
        { Machine.ofLines lines with host := (Machine.ofLines lines).host.withMore more } := by
      simp [Machine.ofLines, MemoryHost.ofLines, MemoryHost.withMore]
    rw [hstart, run_withMore hend]
  · have hinput := (program.reads_of_lines lines n).2
    rw [hn] at hinput
    have hread : Host.readLine m.host = _ := MemoryHost.readLine_of_input hinput
    rw [List.head?_drop, List.tail_drop] at hread
    simp only [Program.execute, hd, Instruction.execute, hread]

/-- Whether a run that ends meets the end of its input can be read off its rounds. -/
theorem neverReadsAtEnd_of_ends {program : Program} {m : Machine MemoryHost} {outcome : Outcome}
    {fuel : Nat} (hend : (program.run fuel m).1 = some outcome)
    (h : ∀ n < fuel, program.awaitsInput (program.run n m).2.state = true →
      (program.run n m).2.host.input.isEmpty = false) : program.NeverReadsAtEnd m := by
  intro n m₁ hn hi hread
  have hne : m₁.host.input.isEmpty = false := by
    have hround := h n (lt_of_run (Prod.ext hend rfl) hn)
    rw [hn] at hround
    exact hround hi
  change m₁.host.readLine.1 = .ok none at hread
  unfold MemoryHost.readLine at hread
  split at hread
  next hnil => simp [hnil] at hne
  next => cases hread
  next => cases hread

/-- A script that reads two lines, the second of which it has no slot for. -/
def readTwo : Program where
  script := .ofRows [[0, 1, 0], [12, 3, 0], [9, 2, 0], [12, 0, 1]]

theorem readTwo_run_reads_no_further :
    let lines := ["a".toUTF8, "7".toUTF8]
    let more := ["8".toUTF8]
    readTwo.NeverReadsAtEnd (.ofLines lines) ∧
      (readTwo.run 4 (.ofLines (lines ++ more))).1 =
        some (.failed ⟨4, [12, 0, 1], .symbolNotFound 1⟩) ∧
      (readTwo.run 4 (.ofLines (lines ++ more))).2.host.input = more.map .line ∧
      (readTwo.run 4 (.ofLines lines)).2.host.reads = 2 := by
  intro lines more
  have houtcome : (readTwo.run 4 (.ofLines lines)).1 =
      some (.failed ⟨4, [12, 0, 1], .symbolNotFound 1⟩) := by decide +kernel
  have hrounds : ∀ n < 4, readTwo.awaitsInput (readTwo.run n (.ofLines lines)).2.state = true →
      (readTwo.run n (.ofLines lines)).2.host.input.isEmpty = false := by decide +kernel
  have hend : readTwo.NeverReadsAtEnd (.ofLines lines) := neverReadsAtEnd_of_ends houtcome hrounds
  obtain ⟨hmore, hreads, -⟩ := run_reads_no_further readTwo lines
  have hrun := hmore hend more 4
  obtain ⟨hcount, hinput⟩ := hreads 4
  have htwo : (readTwo.run 4 (.ofLines lines)).2.host.reads = 2 := hcount.trans (by decide +kernel)
  refine ⟨hend, ?_, ?_, htwo⟩
  · rw [hrun]
    exact houtcome
  · rw [hrun, MemoryHost.withMore, hinput, htwo]
    rfl

end Program

end IntScript
