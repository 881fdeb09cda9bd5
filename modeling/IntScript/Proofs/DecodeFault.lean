import IntScript.Proofs.Failure

/-!
# Where decoding faults come from

A run decodes a statement when it dispatches it, and nothing else it does can end in a fault of
decoding. Hence a run that fails with such a fault has come to a malformed statement of its script.
-/

namespace IntScript

/-! ## Instructions -/

section NoDecodeFault

variable {α β : Type}

/-- The result is not a fault of decoding. -/
def NoDecodeFault (result : Except Fault α) : Prop :=
  ∀ error, result ≠ .error (.decode error)

theorem NoDecodeFault.ok (a : α) : NoDecodeFault (.ok a) := by
  intro error h
  cases h

theorem NoDecodeFault.bind {x : Except Fault α} {f : α → Except Fault β} (hx : NoDecodeFault x)
    (hf : ∀ a, NoDecodeFault (f a)) : NoDecodeFault (x.bind f) := by
  cases x with
  | error fault => exact fun error h => hx error (congrArg Except.error (Except.error.inj h))
  | ok a => exact hf a

theorem NoDecodeFault.map {x : Except Fault α} (hx : NoDecodeFault x) (f : α → β) :
    NoDecodeFault (x.map f) := by
  cases x with
  | error fault => exact fun error h => hx error (congrArg Except.error (Except.error.inj h))
  | ok a => exact .ok _

end NoDecodeFault

namespace State

variable (s : State)

theorem noDecodeFault_get (addr : Int64) : NoDecodeFault (s.get addr) := by
  intro error h
  unfold State.get State.resolve at h
  grind

theorem noDecodeFault_set (addr : Int64) (object : Object) :
    NoDecodeFault (s.set addr object) := by
  intro error h
  unfold State.set State.resolve at h
  grind

theorem noDecodeFault_declareLocal (addr : Int64) (object : Object) :
    NoDecodeFault (s.declareLocal addr object) := by
  intro error h
  unfold State.declareLocal at h
  grind

theorem noDecodeFault_goto (config : Config) (label : Int64) :
    NoDecodeFault (s.goto config label) := by
  intro error h
  unfold State.goto at h
  grind

theorem noDecodeFault_returnFromLabel (config : Config) :
    NoDecodeFault (s.returnFromLabel config) := by
  intro error h
  unfold State.returnFromLabel at h
  grind

theorem noDecodeFault_scanForward (script : Script) (label : Int64) :
    NoDecodeFault (s.scanForward script label) := by
  intro error h
  unfold State.scanForward at h
  grind

end State

namespace Operand

variable (s : State)

theorem noDecodeFault_load (source : Operand Object) : NoDecodeFault (source.load s) := by
  cases source with
  | literal object => exact .ok object
  | slot addr => exact s.noDecodeFault_get addr

theorem noDecodeFault_scalar (operand : Operand Int64) : NoDecodeFault (operand.scalar s) := by
  cases operand with
  | literal value => exact .ok value
  | slot addr =>
    have hget := s.noDecodeFault_get addr
    intro error h
    unfold Operand.scalar State.getInt at h
    grind [NoDecodeFault]

theorem noDecodeFault_elements (operand : Operand (List Int64)) :
    NoDecodeFault (operand.elements s) := by
  cases operand with
  | literal values => exact .ok values
  | slot addr =>
    have hget := s.noDecodeFault_get addr
    intro error h
    unfold Operand.elements State.getArray at h
    grind [NoDecodeFault]

theorem noDecodeFault_holds (condition : Operand Int64) : NoDecodeFault (condition.holds s) := by
  cases condition with
  | literal value => exact .ok _
  | slot addr => exact (s.noDecodeFault_get addr).map _

end Operand

theorem noDecodeFault_elementAt (values : List Int64) (index : Int64) :
    NoDecodeFault (elementAt values index) := by
  intro error h
  unfold elementAt at h
  grind

theorem Object.noDecodeFault_text (object : Object) : NoDecodeFault object.text := by
  intro error h
  unfold Object.text at h
  grind

namespace State

variable {η : Type} [Host η] (s : State)

theorem noDecodeFault_accessIndex (index : Operand Int64) (dest : Int64)
    (array : Operand (List Int64)) : NoDecodeFault (s.accessIndex index dest array) := by
  refine (index.noDecodeFault_scalar s).bind fun i => ?_
  refine (array.noDecodeFault_elements s).bind fun values => ?_
  exact (noDecodeFault_elementAt values i).bind fun element => s.noDecodeFault_set dest _

theorem noDecodeFault_ifJump (program : Program) (condition : Operand Int64) (label : Int64)
    (jump : Jump) : NoDecodeFault (s.ifJump program condition label jump) := by
  refine (condition.noDecodeFault_holds s).bind fun met => ?_
  cases met with
  | false => exact .ok _
  | true =>
    cases jump with
    | goto => exact s.noDecodeFault_goto program.config label
    | scan => exact s.noDecodeFault_scanForward program.script label

theorem noDecodeFault_receive (dest : Int64) (format : InputFormat) (line : Option ByteArray) :
    NoDecodeFault (s.receive dest format line) := by
  cases line with
  | none => exact .ok _
  | some bytes =>
    cases hobject : format.read? bytes with
    | none => simpa [State.receive, hobject] using NoDecodeFault.ok _
    | some object => simpa [State.receive, hobject] using (s.noDecodeFault_set dest object).map _

theorem noDecodeFault_print {line : Except Fault String} (hline : NoDecodeFault line) (h : η) :
    NoDecodeFault (s.print line h).1 := by
  cases line with
  | error fault => exact fun error h => hline error (congrArg Except.error (Except.error.inj h))
  | ok line =>
    intro error h
    unfold State.print at h
    grind

end State

/-- An instruction that has been decoded does not fail to decode. -/
theorem Instruction.noDecodeFault_execute {η : Type} [Host η] (program : Program) (s : State)
    (h : η) (i : Instruction) : NoDecodeFault (i.execute program s h).1 := by
  cases i with
  | declareLocal addr source =>
    exact (source.noDecodeFault_load s).bind fun object =>
      (s.noDecodeFault_declareLocal addr object).map _
  | set addr source =>
    exact (source.noDecodeFault_load s).bind fun object => (s.noDecodeFault_set addr object).map _
  | declareLabel | noOp => exact .ok _
  | gotoLabel label => exact s.noDecodeFault_goto program.config label
  | returnFromLabel => exact s.noDecodeFault_returnFromLabel program.config
  | exit status => exact (status.noDecodeFault_scalar s).map _
  | sleep millis =>
    have hmillis := millis.noDecodeFault_scalar s
    intro error h
    unfold Instruction.execute at h
    grind [NoDecodeFault]
  | print source => exact s.noDecodeFault_print ((source.noDecodeFault_load s).map _) h
  | printString source =>
    exact s.noDecodeFault_print
      ((source.noDecodeFault_load s).bind fun object => object.noDecodeFault_text) h
  | accessIndex index dest array => exact (s.noDecodeFault_accessIndex index dest array).map _
  | ifJump condition label jump => exact s.noDecodeFault_ifJump program condition label jump
  | input dest format =>
    cases hr : Host.readLine h with
    | mk result h' =>
      cases result with
      | error reason =>
        intro error he
        simp [Instruction.execute, hr] at he
      | ok line =>
        simpa [Instruction.execute, hr] using s.noDecodeFault_receive dest format line

/-! ## Runs -/

namespace Program

variable {η : Type} [Host η] {program : Program} {m m' : Machine η}

theorem FailsAt.decode_eq_error {statement : Statement} {error : DecodeError}
    (h : program.FailsAt m statement (.decode error) m') :
    Instruction.decode statement.tokens = .error error := by
  have hexecute := h.execute
  unfold Program.execute at hexecute
  split at hexecute
  next error' hd =>
    rw [hd, Fault.decode.inj (Except.error.inj (congrArg Prod.fst hexecute))]
  next => simp at hexecute
  next i _ =>
    have hfault := congrArg Prod.fst hexecute
    exact (i.noDecodeFault_execute program _ _ error hfault).elim

/-- A run that fails with a fault of decoding names a statement of the script that does not
decode. -/
theorem decode_eq_error_of_run {fuel line : Nat} {tokens : List Int64} {error : DecodeError}
    (h : program.run fuel m = (some (.failed ⟨line, tokens, .decode error⟩), m')) :
    ⟨line, tokens⟩ ∈ program.script.statements ∧ Instruction.decode tokens = .error error := by
  have hends := ends_iff_exists_run.2 ⟨fuel, h⟩
  generalize hfailed : Outcome.failed ⟨line, tokens, .decode error⟩ = outcome at hends
  clear h
  induction hends with
  | later _ _ ih => exact ih hfailed
  | now hs =>
    subst hfailed
    obtain ⟨statement, hfails, herror⟩ := failsAt_of_step hs
    obtain ⟨rfl, rfl, -⟩ := RuntimeError.mk.inj herror
    exact ⟨Array.mem_of_getElem? hfails.fetched, hfails.decode_eq_error⟩

end Program

end IntScript
