import IntScript.Machine.Operation

/-!
# Procedures that fail change nothing

A procedure works in place, and what it has changed before it fails stays changed. Every procedure
that carries out an operation or an instruction nonetheless leaves the machine as it was when it
fails, its host apart: whatever can fail in it comes before the first change.

Each of these procedures is compared with its effect, which is a transition or a fault and has no
state to show for a fault. `Machine.settle` is the machine that the effect asks for, and that the
procedure leads to this machine is one equation for each procedure.
-/

namespace IntScript

namespace State

/-- The steps of an access to an element. -/
theorem accessIndex_eq (s : State) (index : Operand Int64) (dest : Int64)
    (array : Operand (List Int64)) :
    s.accessIndex index dest array =
      (index.scalar s).bind fun i => (array.elements s).bind fun vs =>
        (elementAt vs i).bind fun element => s.set dest (.int element) := rfl

theorem map_accessIndex_eq {α : Type} (f : State → α) (s : State) (index : Operand Int64)
    (dest : Int64) (array : Operand (List Int64)) :
    (s.accessIndex index dest array).map f =
      (index.scalar s).bind fun i => (array.elements s).bind fun vs =>
        (elementAt vs i).bind fun element => (s.set dest (.int element)).map f := by
  have hmap {β : Type} (x : Except Fault β) (g : β → Except Fault State) :
      (x.bind g).map f = x.bind fun value => (g value).map f := by
    cases x <;> rfl
  simp only [accessIndex_eq, hmap]

/-- The steps of a jump under a condition. -/
theorem ifJump_eq (s : State) (program : Program) (condition : Operand Int64) (label : Int64)
    (jump : Jump) :
    s.ifJump program condition label jump =
      (condition.holds s).bind fun met =>
        if met then
          match jump with
          | .goto => s.goto program.config label
          | .scan => s.scanForward program.script label
        else .ok (.silent s) := rfl

end State

namespace Machine

variable {η : Type}

/-- What comes of an effect on a machine: a transition takes place, and a fault leaves everything as
it was. The host is the one given in either case. -/
def settle (m : Machine η) : Except Fault Transition × η → EStateM.Result Fault (Machine η) Unit
  | (.ok t, host) => .ok () { m.follow t with host }
  | (.error fault, host) => .error fault { m with host }

@[simp]
theorem follow_silent (m : Machine η) (s : State) :
    m.follow (.silent s) = { m with state := s } := by
  simp [follow]

theorem settle_eq_error_iff {m m' : Machine η} {effect : Except Fault Transition × η}
    {fault : Fault} :
    m.settle effect = .error fault m' ↔
      effect = (.error fault, m'.host) ∧ m'.state = m.state ∧ m'.journal = m.journal := by
  obtain ⟨result, host⟩ := effect
  constructor
  · cases result <;> rintro ⟨⟩
    exact ⟨rfl, rfl, rfl⟩
  · obtain ⟨host', state, journal⟩ := m'
    rintro ⟨⟨⟩, rfl, rfl⟩
    rfl

end Machine

namespace Procedure

variable {η α : Type} (m : Machine η)

/-! ## Steps -/

@[simp]
theorem run_follow (effect : State → Transition) :
    (follow effect).run m = .ok () (m.follow (effect m.state)) := rfl

-- A change that comes before a failure stays.
example (fault : Fault) :
    (do halt 1; throw fault : Procedure η Unit).run m =
      .error fault (m.follow (m.state.halt 1)) := rfl

@[simp]
theorem run_change (f : State → State) :
    (change f).run m = .ok () { m with state := f m.state } := by
  simp [change]

@[simp]
theorem run_record (event : State → Event) :
    (record event).run m = .ok () { m with journal := m.journal.push (event m.state) } := by
  simp [record, Machine.follow]

@[simp]
theorem run_ofExcept (x : Except Fault α) :
    (ofExcept x : Procedure η α).run m =
      match x with
      | .ok value => .ok value m
      | .error fault => .error fault m := by
  cases x <;> rfl

@[simp]
theorem run_inspect (question : State → Except Fault α) :
    (inspect question : Procedure η α).run m =
      match question m.state with
      | .ok value => .ok value m
      | .error fault => .error fault m := by
  simp [inspect]

@[simp]
theorem run_access (use : η → Except String α × η) :
    (access use).run m =
      match use m.host with
      | (.ok value, host) => .ok value { m with host }
      | (.error reason, host) => .error (.io reason) { m with host } := by
  simp only [access, EStateM.run_bind, EStateM.run_modifyGet]
  rcases use m.host with ⟨reason | value, host⟩ <;> rfl

/-- A question comes before what is done with the answer. When there is no answer, nothing has been
changed. -/
theorem run_ofExcept_bind {x : Except Fault α} {next : α → Procedure η Unit}
    {effect : α → Except Fault Transition}
    (h : ∀ value, (next value).run m = m.settle (effect value, m.host)) :
    (ofExcept x >>= next).run m = m.settle (x.bind effect, m.host) := by
  cases x with
  | error fault => rfl
  | ok value => exact h value

theorem run_inspect_bind {question : State → Except Fault α} {next : α → Procedure η Unit}
    {effect : α → Except Fault Transition}
    (h : ∀ value, (next value).run m = m.settle (effect value, m.host)) :
    (inspect question >>= next).run m = m.settle ((question m.state).bind effect, m.host) :=
  run_ofExcept_bind m h

/-! ## Operations -/

theorem run_declareLocal (addr : Int64) (object : Object) :
    (declareLocal addr object).run m =
      m.settle ((m.state.declareLocal addr object).map .silent, m.host) := by
  cases haddr : addr.toInt.toNat? with
  | none => simp [declareLocal, State.declareLocal, haddr, Except.map, Machine.settle]
  | some offset =>
    by_cases h : m.state.scopeSize ≤ offset <;>
      simp [declareLocal, State.declareLocal, haddr, h, Except.map, Machine.settle]

theorem run_store (addr : Int64) (object : Object) :
    (store addr object).run m = m.settle ((m.state.set addr object).map .silent, m.host) := by
  cases h : m.state.resolve addr <;> simp [store, State.set, h, Except.map, Machine.settle]

theorem run_exitScope :
    exitScope.run m =
      match m.state.exitScope with
      | some t => .ok true (m.follow t)
      | none => .ok false m := by
  simp only [exitScope, EStateM.run_bind, EStateM.run_get]
  cases m.state.exitScope <;> rfl

theorem run_goto (config : Config) (label : Int64) :
    (goto config label).run m = m.settle (m.state.goto config label, m.host) := by
  cases h : m.state.labelAddress label with
  | none => simp [goto, State.goto, h, Machine.settle]
  | some target =>
    cases hc : config.scopedCalls <;>
      simp [goto, State.goto, h, hc, enterScope, State.enterScope, Machine.settle, Machine.follow]

theorem run_popReturn :
    popReturn.run m =
      match m.state.returns with
      | [] => .error .noReturnAddress m
      | target :: rest => .ok target { m with state.returns := rest } := by
  simp only [popReturn, EStateM.run_bind, EStateM.run_get]
  cases m.state.returns <;> rfl

/-- The return address is taken off its stack at once. There is nothing left to fail after that. -/
theorem run_returnFromLabel (config : Config) :
    (returnFromLabel config).run m = m.settle (m.state.returnFromLabel config, m.host) := by
  cases h : m.state.returns with
  | nil => simp [returnFromLabel, State.returnFromLabel, run_popReturn, h, Machine.settle]
  | cons target rest =>
    cases hc : config.scopedCalls with
    | false =>
      simp [returnFromLabel, State.returnFromLabel, run_popReturn, h, hc, Machine.settle,
        Machine.follow]
    | true =>
      rcases hs : m.state.scopes with _ | ⟨base, _ | ⟨enclosing, outer⟩⟩ <;>
        simp [returnFromLabel, State.returnFromLabel, run_popReturn, run_exitScope, State.exitScope,
          h, hc, hs, Machine.settle, Machine.follow]

theorem run_scanForward (script : Script) (label : Int64) :
    (scanForward script label).run m = m.settle (m.state.scanForward script label, m.host) := by
  cases h : m.state.distanceToLabel script label <;>
    simp [scanForward, State.scanForward, h, Machine.settle, Machine.follow]

/-! ## Instructions -/

theorem run_accessIndex (index : Operand Int64) (dest : Int64) (array : Operand (List Int64)) :
    (accessIndex index dest array).run m =
      m.settle ((m.state.accessIndex index dest array).map .silent, m.host) := by
  rw [State.map_accessIndex_eq]
  refine run_inspect_bind m fun i => ?_
  refine run_inspect_bind m fun values => ?_
  refine run_ofExcept_bind m fun element => ?_
  exact run_store m dest (.int element)

theorem run_ifJump (program : Program) (condition : Operand Int64) (label : Int64) (jump : Jump) :
    (ifJump program condition label jump).run m =
      m.settle (m.state.ifJump program condition label jump, m.host) := by
  rw [State.ifJump_eq]
  refine run_inspect_bind m fun met => ?_
  cases met with
  | false => simp [Machine.settle]
  | true =>
    cases jump with
    | goto => exact run_goto m program.config label
    | scan => exact run_scanForward m program.script label

theorem run_receive (dest : Int64) (format : InputFormat) (line : Option ByteArray) :
    (receive dest format line).run m = m.settle (m.state.receive dest format line, m.host) := by
  cases line with
  | none => rfl
  | some bytes =>
    simp only [receive, State.receive]
    cases format.read? bytes with
    | none => rfl
    | some object => exact run_store m dest object

variable [Host η]

theorem run_writeLine (line : String) :
    (writeLine line).run m = m.settle (m.state.print (.ok line) m.host) := by
  simp only [writeLine, run_access, State.print]
  rcases Host.writeLine line m.host with ⟨reason | _, host⟩ <;> simp [Machine.settle]

/-- An instruction is carried out in place to the effect that it has as a whole. -/
theorem run_ofInstruction (program : Program) (i : Instruction) :
    (ofInstruction program i).run m = m.settle (i.execute program m.state m.host) := by
  cases i with
  | declareLocal addr source => exact run_inspect_bind m fun object => run_declareLocal m addr object
  | set addr source => exact run_inspect_bind m fun object => run_store m addr object
  | declareLabel label => rfl
  | gotoLabel label => exact run_goto m program.config label
  | returnFromLabel => exact run_returnFromLabel m program.config
  | exit status =>
    simp only [ofInstruction, Instruction.execute, EStateM.run_bind, run_inspect]
    cases status.scalar m.state <;> rfl
  | noOp => simp [ofInstruction, Instruction.execute, Machine.settle]
  | sleep millis =>
    simp only [ofInstruction, Instruction.execute, EStateM.run_bind, run_inspect]
    cases millis.scalar m.state <;> simp [Machine.settle]
  | print source =>
    simp only [ofInstruction, Instruction.execute, EStateM.run_bind, run_inspect]
    cases source.load m.state with
    | error fault => rfl
    | ok object => exact run_writeLine m object.numerals
  | printString source =>
    simp only [ofInstruction, Instruction.execute, EStateM.run_bind, run_inspect, run_ofExcept]
    cases source.load m.state with
    | error fault => rfl
    | ok object =>
      simp only [Except.bind]
      cases object.text with
      | error fault => rfl
      | ok text => exact run_writeLine m text
  | accessIndex index dest array => exact run_accessIndex m index dest array
  | ifJump condition label jump => exact run_ifJump m program condition label jump
  | input dest format =>
    simp only [ofInstruction, Instruction.execute, EStateM.run_bind, run_access]
    -- The line is taken from the host before it is known whether there is a slot for it.
    rcases Host.readLine m.host with ⟨reason | line, host⟩
    · rfl
    · exact run_receive { m with host } dest format line

theorem run_ofTokens (program : Program) (tokens : List Int64) :
    (ofTokens program tokens).run m = m.settle (program.execute tokens m.state m.host) := by
  cases hd : Instruction.decode tokens with
  | error error => simp [ofTokens, Program.execute, hd, Machine.settle]
  | ok i? =>
    cases i? with
    | none => simp [ofTokens, Program.execute, hd, Machine.settle]
    | some i => simp [ofTokens, Program.execute, hd, run_ofInstruction]

/-- A statement that fails has changed neither the state nor the journal. -/
theorem run_ofTokens_eq_error_iff {m m' : Machine η} {program : Program} {tokens : List Int64}
    {fault : Fault} :
    (ofTokens program tokens).run m = .error fault m' ↔
      program.execute tokens m.state m.host = (.error fault, m'.host) ∧
        m'.state = m.state ∧ m'.journal = m.journal := by
  rw [run_ofTokens, Machine.settle_eq_error_iff]

end Procedure

/-! ## Statements and operations -/

variable {η : Type}

/-- What the dispatch of a statement comes to. -/
theorem Program.dispatch_eq [Host η] (program : Program) (statement : Statement) (m : Machine η) :
    program.dispatch statement m =
      let journal := m.journal.push (.dispatch statement.line statement.tokens)
      match program.execute statement.tokens m.state m.host with
      | (.ok t, host) => .running { host, state := t.state, journal := journal ++ t.events }
      | (.error fault, host) =>
        .ended (.failed ⟨statement.line, statement.tokens, fault⟩) { m with host, journal } := by
  simp only [dispatch, Procedure.run_ofTokens]
  rcases program.execute statement.tokens m.state m.host with ⟨fault | t, host⟩ <;> rfl

namespace Machine

/-- The machine after a transition, unless there is a fault. -/
def attempt (m : Machine η) : Except Fault Transition → Reply × Machine η
  | .ok t => (.done, m.follow t)
  | .error fault => (.fault fault, m)

/-- The reply to a question that does not change the machine. -/
def answer {α : Type} (m : Machine η) (reply : α → Reply) : Except Fault α → Reply × Machine η
  | .ok value => (reply value, m)
  | .error fault => (.fault fault, m)

theorem call_of_settle {m : Machine η} {p : Procedure η Unit} {result : Except Fault Transition}
    (h : p.run m = m.settle (result, m.host)) :
    (m.call p fun _ => .done) = m.attempt result := by
  cases result <;> simp [call, h, settle, attempt, follow]

theorem call_inspect {α : Type} (m : Machine η) (question : State → Except Fault α)
    (reply : α → Reply) :
    m.call (.inspect question) reply = m.answer reply (question m.state) := by
  cases h : question m.state <;> simp [call, h, answer]

variable [Host η]

/-- What an operation comes to as a whole. A run is not taken apart. -/
def reaction (program : Program) (m : Machine η) : Operation → Reply × Machine η
  | .declareLocal addr object => m.attempt ((m.state.declareLocal addr object).map .silent)
  | .get addr => m.answer .object (m.state.get addr)
  | .set addr object => m.attempt ((m.state.set addr object).map .silent)
  | .resolve addr => m.answer .index (m.state.resolve addr)
  | .enterScope => (.done, m.follow m.state.enterScope)
  | .exitScope =>
    match m.state.exitScope with
    | some t => (.closed true, m.follow t)
    | none => (.closed false, m)
  | .declareLabel label => (.done, m.follow (m.state.declareLabel label))
  | .labelAddress label => (.address (m.state.labelAddress label), m)
  | .goto label => m.attempt (m.state.goto program.config label)
  | .returnFromLabel => m.attempt (m.state.returnFromLabel program.config)
  | .scanForward label => m.attempt (m.state.scanForward program.script label)
  | .run fuel => m.perform program (.run fuel)

theorem perform_eq (program : Program) (m : Machine η) (operation : Operation) :
    m.perform program operation = m.reaction program operation := by
  cases operation with
  | declareLocal addr object => exact call_of_settle (Procedure.run_declareLocal m addr object)
  | set addr object => exact call_of_settle (Procedure.run_store m addr object)
  | goto label => exact call_of_settle (Procedure.run_goto m program.config label)
  | returnFromLabel => exact call_of_settle (Procedure.run_returnFromLabel m program.config)
  | scanForward label => exact call_of_settle (Procedure.run_scanForward m program.script label)
  | get addr => exact m.call_inspect _ _
  | resolve addr => exact m.call_inspect _ _
  | exitScope =>
    simp only [perform, reaction, call, Procedure.run_exitScope]
    cases m.state.exitScope <;> rfl
  | enterScope | declareLabel | labelAddress | run => rfl

end Machine

end IntScript
