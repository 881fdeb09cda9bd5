import IntScript.Proofs.Round

/-!
# Mirrored machines

A map `φ` from the states of one program to those of another mirrors a state if every operation that
instructions are made of commutes with `φ` there. A statement dispatched in such a state then has
the same effect in both programs, up to `φ`: the same fault or the mirrored state, and the same
host. Only the journals may differ.
-/

namespace IntScript

variable {η : Type} {p₁ p₂ : Program} {φ : State → State} {s : State}

/-- At `s`, the operations of `p₁` and those of `p₂` commute with `φ`. Declarations of locals are
left to `DeclaresAlike`. -/
structure State.Mirrors (p₁ p₂ : Program) (φ : State → State) (s : State) : Prop where
  get : ∀ addr, (φ s).get addr = s.get addr
  set : ∀ addr object, (φ s).set addr object = (s.set addr object).map φ
  declareLabel : ∀ label, ((φ s).declareLabel label).state = φ (s.declareLabel label).state
  goto : ∀ label, ((φ s).goto p₂.config label).map Transition.state =
    ((s.goto p₁.config label).map Transition.state).map φ
  returnFromLabel : ((φ s).returnFromLabel p₂.config).map Transition.state =
    ((s.returnFromLabel p₁.config).map Transition.state).map φ
  scanForward : ∀ label, ((φ s).scanForward p₂.script label).map Transition.state =
    ((s.scanForward p₁.script label).map Transition.state).map φ
  halt : ∀ status, ((φ s).halt status).state = φ (s.halt status).state

/-- If the instruction declares a local at `s`, the declaration commutes with `φ`. -/
def Instruction.DeclaresAlike (φ : State → State) (s : State) (i : Instruction) : Prop :=
  ∀ addr source, i = .declareLocal addr source →
    ∀ object, (φ s).declareLocal addr object = (s.declareLocal addr object).map φ

/-- Two results of a statement that are the same up to `φ` and the events. -/
structure MirroredResult (φ : State → State) (r₁ r₂ : Except Fault Transition × η) : Prop where
  state : r₂.1.map Transition.state = (r₁.1.map Transition.state).map φ
  host : r₂.2 = r₁.2

namespace State.Mirrors

theorem load (h : s.Mirrors p₁ p₂ φ) (source : Operand Object) :
    source.load (φ s) = source.load s := by
  cases source with
  | literal => rfl
  | slot addr => exact h.get addr

theorem scalar (h : s.Mirrors p₁ p₂ φ) (operand : Operand Int64) :
    operand.scalar (φ s) = operand.scalar s := by
  cases operand with
  | literal => rfl
  | slot addr => rw [Operand.scalar, Operand.scalar, State.getInt, State.getInt, h.get]

theorem elements (h : s.Mirrors p₁ p₂ φ) (operand : Operand (List Int64)) :
    operand.elements (φ s) = operand.elements s := by
  cases operand with
  | literal => rfl
  | slot addr => rw [Operand.elements, Operand.elements, State.getArray, State.getArray, h.get]

theorem holds (h : s.Mirrors p₁ p₂ φ) (condition : Operand Int64) :
    condition.holds (φ s) = condition.holds s := by
  cases condition with
  | literal => rfl
  | slot addr => rw [Operand.holds, Operand.holds, h.get]

theorem accessIndex (h : s.Mirrors p₁ p₂ φ) (index : Operand Int64) (dest : Int64)
    (array : Operand (List Int64)) :
    (φ s).accessIndex index dest array = (s.accessIndex index dest array).map φ := by
  unfold State.accessIndex
  rw [h.scalar, h.elements]
  cases index.scalar s with
  | error fault => rfl
  | ok i =>
    cases array.elements s with
    | error fault => rfl
    | ok values =>
      cases hv : elementAt values i with
      | error fault => simp [bind, Except.bind, hv, Except.map]
      | ok element => simpa [bind, Except.bind, hv] using h.set dest (.int element)

theorem ifJump (h : s.Mirrors p₁ p₂ φ) (condition : Operand Int64) (label : Int64) (jump : Jump) :
    ((φ s).ifJump p₂ condition label jump).map Transition.state =
      ((s.ifJump p₁ condition label jump).map Transition.state).map φ := by
  unfold State.ifJump
  rw [h.holds]
  cases condition.holds s with
  | error fault => rfl
  | ok met =>
    cases met with
    | false => rfl
    | true =>
      cases jump with
      | goto => exact h.goto label
      | scan => exact h.scanForward label

theorem receive (h : s.Mirrors p₁ p₂ φ) (dest : Int64) (format : InputFormat)
    (line : Option ByteArray) :
    ((φ s).receive dest format line).map Transition.state =
      ((s.receive dest format line).map Transition.state).map φ := by
  cases line with
  | none => exact congrArg Except.ok (h.halt _)
  | some bytes =>
    cases hr : format.read? bytes with
    | none =>
      simp only [State.receive, hr]
      exact congrArg Except.ok (h.halt _)
    | some object =>
      simp only [State.receive, hr, h.set]
      cases s.set dest object <;> rfl

variable [Host η]

theorem print (s : State) (φ : State → State) (line : Except Fault String) (host : η) :
    MirroredResult φ (s.print line host) ((φ s).print line host) := by
  unfold State.print
  cases line with
  | error fault => exact ⟨rfl, rfl⟩
  | ok line =>
    dsimp only
    cases Host.writeLine line host with
    | mk result host' => cases result <;> exact ⟨rfl, rfl⟩

/-- Execution of an instruction commutes with `φ`. -/
theorem execute (h : s.Mirrors p₁ p₂ φ) (i : Instruction) (hlocal : i.DeclaresAlike φ s)
    (host : η) : MirroredResult φ (i.execute p₁ s host) (i.execute p₂ (φ s) host) := by
  cases i with
  | declareLocal addr source =>
    refine ⟨?_, rfl⟩
    simp only [Instruction.execute, h.load]
    cases source.load s with
    | error fault => rfl
    | ok object =>
      simp only [Except.bind, hlocal addr source rfl object]
      cases s.declareLocal addr object <;> rfl
  | set addr source =>
    refine ⟨?_, rfl⟩
    simp only [Instruction.execute, h.load]
    cases source.load s with
    | error fault => rfl
    | ok object =>
      simp only [Except.bind, h.set]
      cases s.set addr object <;> rfl
  | declareLabel label => exact ⟨congrArg Except.ok (h.declareLabel label), rfl⟩
  | gotoLabel label => exact ⟨h.goto label, rfl⟩
  | returnFromLabel => exact ⟨h.returnFromLabel, rfl⟩
  | exit status =>
    refine ⟨?_, rfl⟩
    simp only [Instruction.execute, h.scalar]
    cases status.scalar s with
    | error fault => rfl
    | ok code => exact congrArg Except.ok (h.halt code)
  | noOp => exact ⟨rfl, rfl⟩
  | sleep millis =>
    simp only [Instruction.execute, h.scalar]
    cases millis.scalar s <;> exact ⟨rfl, rfl⟩
  | print source | printString source =>
    simp only [Instruction.execute, h.load]
    exact print s φ _ host
  | accessIndex index dest array =>
    refine ⟨?_, rfl⟩
    simp only [Instruction.execute, h.accessIndex]
    cases s.accessIndex index dest array <;> rfl
  | ifJump condition label jump => exact ⟨h.ifJump condition label jump, rfl⟩
  | input dest format =>
    simp only [Instruction.execute]
    cases Host.readLine host with
    | mk result host' =>
      cases result with
      | error reason => exact ⟨rfl, rfl⟩
      | ok line => exact ⟨h.receive dest format line, rfl⟩

end State.Mirrors

/-! ## Machines -/

/-- Two machines with the same host, the state of the second being the image of the state of the
first. -/
structure Machine.Mirrored (φ : State → State) (m₁ m₂ : Machine η) : Prop where
  state : m₂.state = φ m₁.state
  host : m₂.host = m₁.host

/-- Two rounds that lead to mirrored machines and end the run alike, or both do not end it. -/
inductive Progress.Mirrored (φ : State → State) : Progress η → Progress η → Prop where
  | running {m₁ m₂ : Machine η} : m₁.Mirrored φ m₂ → Mirrored φ (.running m₁) (.running m₂)
  | ended (outcome : Outcome) {m₁ m₂ : Machine η} :
      m₁.Mirrored φ m₂ → Mirrored φ (.ended outcome m₁) (.ended outcome m₂)

theorem Machine.Mirrored.finish {m₁ m₂ : Machine η} (h : m₁.Mirrored φ m₂)
    (hstatus : (φ m₁.state).status = m₁.state.status) :
    m₁.finish.Mirrored φ m₂.finish := by
  have hs : m₂.state.status = m₁.state.status := by rw [h.state, hstatus]
  unfold Machine.finish
  rw [hs]
  exact .ended _ ⟨h.state, h.host⟩

variable [Host η]

theorem State.Mirrors.executeStatement (h : s.Mirrors p₁ p₂ φ) (tokens : List Int64)
    (hlocal : ∀ i, Instruction.decode tokens = .ok (some i) → i.DeclaresAlike φ s) (host : η) :
    MirroredResult φ (p₁.execute tokens s host) (p₂.execute tokens (φ s) host) := by
  unfold Program.execute
  cases hd : Instruction.decode tokens with
  | error e => exact ⟨rfl, rfl⟩
  | ok i? =>
    cases i? with
    | none => exact ⟨rfl, rfl⟩
    | some i => exact h.execute i (hlocal i hd) host

/-- Mirrored machines that dispatch the same statement stay mirrored. -/
theorem Machine.Mirrored.dispatch {m₁ m₂ : Machine η} (hm : m₁.Mirrored φ m₂)
    (h : m₁.state.Mirrors p₁ p₂ φ) (statement : Statement)
    (hlocal : ∀ i, Instruction.decode statement.tokens = .ok (some i) →
      i.DeclaresAlike φ m₁.state) :
    (p₁.dispatch statement m₁).Mirrored φ (p₂.dispatch statement m₂) := by
  obtain ⟨hstate, hhost⟩ := h.executeStatement statement.tokens hlocal m₁.host
  simp only [Program.dispatch_eq]
  rw [hm.state, hm.host]
  cases h₁ : p₁.execute statement.tokens m₁.state m₁.host with
  | mk r₁ host₁ =>
    cases h₂ : p₂.execute statement.tokens (φ m₁.state) m₁.host with
    | mk r₂ host₂ =>
      rw [h₁, h₂] at hstate hhost
      -- Both fail with one fault, or both succeed.
      cases r₁ <;> cases r₂ <;> simp only [Except.map, reduceCtorEq] at hstate
      · obtain rfl := Except.error.inj hstate
        exact .ended _ ⟨rfl, hhost⟩
      · exact .running ⟨Except.ok.inj hstate, hhost⟩

/-! ## Rounds -/

/-- At `s` and at `φ s` the next round dispatches the same statement, if any. -/
structure State.Aligned (p₁ p₂ : Program) (φ : State → State) (s : State) : Prop where
  running : (φ s).running = s.running
  status : (φ s).status = s.status
  stop : { φ s with running := false } = φ { s with running := false }
  statement : s.running = true → p₂.script.statement? (φ s).pc = p₁.script.statement? s.pc
  fetched : s.running = true → ∀ statement, p₁.script.statement? s.pc = some statement →
    (φ s).fetched = φ s.fetched

/-- Aligned machines make the same round. -/
theorem Machine.Mirrored.step {m₁ m₂ : Machine η} (hm : m₁.Mirrored φ m₂)
    (ha : m₁.state.Aligned p₁ p₂ φ) (h : m₁.state.fetched.Mirrors p₁ p₂ φ)
    (hlocal : ∀ i, p₁.instruction? m₁.state = some i → i.DeclaresAlike φ m₁.state.fetched) :
    (p₁.step m₁).Mirrored φ (p₂.step m₂) := by
  have hrunning : m₂.state.running = m₁.state.running := by rw [hm.state, ha.running]
  cases hr : m₁.state.running with
  | false =>
    rw [Program.step_of_halted hr, Program.step_of_halted (hrunning.trans hr)]
    exact hm.finish ha.status
  | true =>
    have hstatement : p₂.script.statement? m₂.state.pc = p₁.script.statement? m₁.state.pc := by
      rw [hm.state, ha.statement hr]
    cases hs : p₁.script.statement? m₁.state.pc with
    | none =>
      rw [Program.step_of_ended hr hs,
        Program.step_of_ended (hrunning.trans hr) (hstatement.trans hs)]
      refine Machine.Mirrored.finish ⟨?_, hm.host⟩ ?_
      · rw [hm.state]
        exact ha.stop
      · rw [← ha.stop]
        exact ha.status
    | some statement =>
      have hfetched : Machine.Mirrored φ { m₁ with state := m₁.state.fetched }
          { m₂ with state := m₂.state.fetched } := by
        refine ⟨?_, hm.host⟩
        rw [hm.state]
        exact ha.fetched hr statement hs
      rw [Program.step_of_fetched hr hs,
        Program.step_of_fetched (hrunning.trans hr) (hstatement.trans hs)]
      exact hfetched.dispatch h statement fun i hi =>
        hlocal i (Program.instruction?_eq_some_iff.2 ⟨hr, statement, hs, hi⟩)

/-- Two programs whose rounds are mirrored as long as `I` holds run in lockstep. -/
theorem Program.run_mirrored {I : Machine η → Prop}
    (hstep : ∀ m₁ m₂, I m₁ → m₁.Mirrored φ m₂ → (p₁.step m₁).Mirrored φ (p₂.step m₂))
    (hkeep : ∀ m₁ m, I m₁ → p₁.step m₁ = .running m → I m) {m₁ m₂ : Machine η} (h : I m₁)
    (hm : m₁.Mirrored φ m₂) (fuel : Nat) :
    (p₂.run fuel m₂).1 = (p₁.run fuel m₁).1 ∧
      (p₁.run fuel m₁).2.Mirrored φ (p₂.run fuel m₂).2 := by
  induction fuel generalizing m₁ m₂ with
  | zero => exact ⟨rfl, hm⟩
  | succ fuel ih =>
    have hprogress := hstep m₁ m₂ h hm
    cases h₁ : p₁.step m₁ with
    | running m =>
      rw [h₁] at hprogress
      generalize h₂ : p₂.step m₂ = progress at hprogress
      cases hprogress with
      | running hm' =>
        rw [run_succ_of_running h₁, run_succ_of_running h₂]
        exact ih (hkeep m₁ m h h₁) hm'
    | ended outcome m =>
      rw [h₁] at hprogress
      generalize h₂ : p₂.step m₂ = progress at hprogress
      cases hprogress with
      | ended _ hm' =>
        rw [run_succ_of_ended h₁, run_succ_of_ended h₂]
        exact ⟨rfl, hm'⟩

end IntScript
