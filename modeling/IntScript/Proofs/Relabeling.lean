import IntScript.Proofs.Encoding
import IntScript.Proofs.Failure

/-!
# Labels are only names

A script may give its labels other names, as long as different labels keep different names. Every
operation of a machine commutes with the change of names, and so does a whole run: the script with
the new names runs as the old one does, round by round, up to the names in the table of labels, in
the journal and in the error a run may fail with.
-/

namespace IntScript

variable {α β : Type} (f : Int64 → Int64)

/-! ## New names -/

/-- The tokens of a statement under new names. The label is the last token of a statement that has
one. All other statements stay as they are, malformed ones included. -/
def relabelTokens (tokens : List Int64) : List Int64 :=
  match Instruction.decode tokens with
  | .ok (some (.declareLabel label)) | .ok (some (.gotoLabel label))
  | .ok (some (.ifJump _ label _)) => tokens.dropLast ++ [f label]
  | _ => tokens

def Statement.relabel (s : Statement) : Statement :=
  { s with tokens := relabelTokens f s.tokens }

def Script.relabel (script : Script) : Script :=
  ⟨script.statements.map (Statement.relabel f)⟩

/-- The program whose labels have new names. -/
def Program.relabel (program : Program) : Program :=
  { program with script := program.script.relabel f }

def Instruction.relabel : Instruction → Instruction
  | .declareLabel label => .declareLabel (f label)
  | .gotoLabel label => .gotoLabel (f label)
  | .ifJump condition label jump => .ifJump condition (f label) jump
  | i => i

def Fault.relabel : Fault → Fault
  | .labelNotFound label => .labelNotFound (f label)
  | fault => fault

/-- The error under new names. It is on the same line. -/
def RuntimeError.relabel (e : RuntimeError) : RuntimeError :=
  ⟨e.line, relabelTokens f e.tokens, e.fault.relabel f⟩

def Outcome.relabel : Outcome → Outcome
  | .finished status => .finished status
  | .failed error => .failed (error.relabel f)

def Event.relabel : Event → Event
  | .dispatch line tokens => .dispatch line (relabelTokens f tokens)
  | .labelDeclared label address => .labelDeclared (f label) address
  | .labelRedeclared label previous address => .labelRedeclared (f label) previous address
  | .goto label source target => .goto (f label) source target
  | .scanned label source target => .scanned (f label) source target
  | e => e

def LabelTable.relabel (t : LabelTable) : LabelTable :=
  ⟨t.entries.map fun entry => (f entry.1, entry.2)⟩

def State.relabel (s : State) : State :=
  { s with labels := s.labels.relabel f }

def Transition.relabel (t : Transition) : Transition :=
  ⟨t.state.relabel f, t.events.map (Event.relabel f)⟩

def Machine.relabel {η : Type} (m : Machine η) : Machine η :=
  { m with state := m.state.relabel f, journal := m.journal.map (Event.relabel f) }

def Progress.relabel {η : Type} : Progress η → Progress η
  | .running m => .running (m.relabel f)
  | .ended outcome m => .ended (outcome.relabel f) (m.relabel f)

/-- A result whose value is mapped and whose fault is under new names. -/
def relabelResult (g : α → β) : Except Fault α → Except Fault β
  | .ok a => .ok (g a)
  | .error fault => .error (fault.relabel f)

variable {f}

@[simp]
theorem relabelResult_ok (g : α → β) (a : α) : relabelResult f g (.ok a) = .ok (g a) := rfl

@[simp]
theorem relabelResult_error (g : α → β) (fault : Fault) :
    relabelResult f g (.error fault) = .error (fault.relabel f) := rfl

theorem relabelResult_bind {γ δ : Type} (g : α → β) (g' : γ → δ) (x : Except Fault α)
    {next : α → Except Fault γ} {next' : β → Except Fault δ}
    (h : ∀ a, next' (g a) = relabelResult f g' (next a)) :
    (relabelResult f g x).bind next' = relabelResult f g' (x.bind next) := by
  cases x with
  | error fault => rfl
  | ok a => exact h a

theorem relabelResult_silent (x : Except Fault State) :
    (relabelResult f (State.relabel f) x).map .silent =
      relabelResult f (Transition.relabel f) (x.map .silent) := by
  cases x <;> rfl

/-! ## Statements -/

namespace Instruction

/-- A statement under new names spells the instruction under new names. -/
theorem decode_relabelTokens (tokens : List Int64) :
    decode (relabelTokens f tokens) = (decode tokens).map (Option.map (relabel f)) := by
  unfold relabelTokens
  cases hd : decode tokens with
  | error error => simpa [Except.map] using hd
  | ok i? =>
    cases i? with
    | none => simpa [Except.map] using hd
    | some i =>
      have htokens := eq_encode_of_decode hd
      cases i with
      | declareLabel label | gotoLabel label =>
        rw [htokens]
        rfl
      | ifJump condition label jump =>
        rw [htokens]
        cases condition <;> cases jump <;> rfl
      | _ => simpa [Except.map, relabel] using hd

end Instruction

theorem Instruction.relabel_eq_declareLabel_iff (hf : Function.Injective f) {i : Instruction}
    {label : Int64} : i.relabel f = .declareLabel (f label) ↔ i = .declareLabel label := by
  cases i <;> simp [relabel, hf.eq_iff]

theorem Statement.declares_relabel (hf : Function.Injective f) (label : Int64) (s : Statement) :
    (s.relabel f).declares (f label) = s.declares label := by
  rw [Bool.eq_iff_iff, declares_iff_decode, declares_iff_decode]
  have hd := Instruction.decode_relabelTokens (f := f) s.tokens
  change Instruction.decode (relabelTokens f s.tokens) = _ ↔ _
  rw [hd]
  cases Instruction.decode s.tokens with
  | error error => simp [Except.map]
  | ok i? =>
    cases i? with
    | none => simp [Except.map]
    | some i => simpa [Except.map] using Instruction.relabel_eq_declareLabel_iff hf

theorem Script.statement?_relabel (script : Script) (pc : Nat) :
    (script.relabel f).statement? pc = (script.statement? pc).map (Statement.relabel f) := by
  simp [statement?, relabel]

/-! ## Tables of labels -/

namespace LabelTable

theorem find?_relabel (hf : Function.Injective f) (t : LabelTable) (label : Int64) :
    (t.relabel f).find? (f label) = t.find? label := by
  unfold find? relabel
  induction t.entries with
  | nil => rfl
  | cons entry rest ih =>
    obtain ⟨key, address⟩ := entry
    have hkey : (f label == f key) = (label == key) := by
      rw [Bool.eq_iff_iff, beq_iff_eq, beq_iff_eq, hf.eq_iff]
    rw [List.map_cons, List.lookup_cons, List.lookup_cons, hkey, ih]

theorem relabel_insert (hf : Function.Injective f) (t : LabelTable) (label : Int64)
    (address : Nat) :
    (t.insert label address).relabel f = (t.relabel f).insert (f label) address := by
  unfold insert relabel
  congr 1
  induction t.entries with
  | nil => rfl
  | cons entry rest ih =>
    simp only [insertEntry, List.map_cons, hf.eq_iff]
    split <;> simp_all

end LabelTable

/-! ## Operations -/

namespace State

variable (s : State)

theorem get_relabel (addr : Int64) :
    (s.relabel f).get addr = relabelResult f id (s.get addr) := by
  have hr : (s.relabel f).resolve addr = s.resolve addr := rfl
  have hstack : (s.relabel f).stack = s.stack := rfl
  cases hindex : s.resolve addr with
  | error fault =>
    obtain rfl := resolve_eq_error hindex
    simp only [State.get, hr, hindex]
    rfl
  | ok index =>
    simp only [State.get, hr, hindex, hstack]
    cases s.stack[index]? <;> rfl

theorem getInt_relabel (addr : Int64) :
    (s.relabel f).getInt addr = relabelResult f id (s.getInt addr) := by
  unfold State.getInt
  rw [get_relabel]
  cases s.get addr with
  | error fault => rfl
  | ok object => cases object <;> rfl

theorem getArray_relabel (addr : Int64) :
    (s.relabel f).getArray addr = relabelResult f id (s.getArray addr) := by
  unfold State.getArray
  rw [get_relabel]
  cases s.get addr with
  | error fault => rfl
  | ok object => cases object <;> rfl

theorem set_relabel (addr : Int64) (object : Object) :
    (s.relabel f).set addr object = relabelResult f (relabel f) (s.set addr object) := by
  have hr : (s.relabel f).resolve addr = s.resolve addr := rfl
  unfold State.set
  rw [hr]
  cases hindex : s.resolve addr with
  | error fault =>
    obtain rfl := resolve_eq_error hindex
    rfl
  | ok index => rfl

theorem declareLocal_relabel (addr : Int64) (object : Object) :
    (s.relabel f).declareLocal addr object =
      relabelResult f (relabel f) (s.declareLocal addr object) := by
  have hsize : (s.relabel f).scopeSize = s.scopeSize := rfl
  unfold State.declareLocal
  rw [hsize]
  cases addr.toInt.toNat? with
  | none => rfl
  | some offset => dsimp only; split <;> rfl

theorem declareLabel_relabel (hf : Function.Injective f) (label : Int64) :
    (s.relabel f).declareLabel (f label) = (s.declareLabel label).relabel f := by
  have hl : (s.relabel f).labelAddress (f label) = s.labelAddress label :=
    s.labels.find?_relabel hf label
  have hinsert := s.labels.relabel_insert hf label s.pc
  unfold State.declareLabel Transition.relabel
  rw [hl]
  cases s.labelAddress label with
  | none => simp [relabel, hinsert, Event.relabel]
  | some previous =>
    by_cases hpc : previous = s.pc <;> simp [relabel, hinsert, hpc, Event.relabel]

theorem goto_relabel (hf : Function.Injective f) (config : Config) (label : Int64) :
    (s.relabel f).goto config (f label) =
      relabelResult f (Transition.relabel f) (s.goto config label) := by
  have hl : (s.relabel f).labelAddress (f label) = s.labelAddress label :=
    s.labels.find?_relabel hf label
  unfold State.goto
  rw [hl]
  cases s.labelAddress label with
  | none => rfl
  | some target => cases config.scopedCalls <;> rfl

theorem returnFromLabel_relabel (config : Config) :
    (s.relabel f).returnFromLabel config =
      relabelResult f (Transition.relabel f) (s.returnFromLabel config) := by
  have hr : (s.relabel f).returns = s.returns := rfl
  unfold State.returnFromLabel
  rw [hr]
  cases s.returns with
  | nil => rfl
  | cons target rest =>
    cases config.scopedCalls with
    | false => rfl
    | true =>
      rcases hs : s.scopes with _ | ⟨base, _ | ⟨enclosing, outer⟩⟩ <;>
        simp [exitScope, hs, relabel, Transition.relabel, Transition.andThen, Event.relabel]

/-- A scan finds the declaration under the new name where it finds it under the old one. -/
theorem distanceToLabel_relabel (hf : Function.Injective f) (script : Script) (label : Int64) :
    (s.relabel f).distanceToLabel (script.relabel f) (f label) =
      s.distanceToLabel script label := by
  have hdeclares : (Statement.declares (f label)) ∘ Statement.relabel f =
      Statement.declares label := funext fun s => s.declares_relabel hf label
  unfold State.distanceToLabel Script.relabel
  rw [Array.toList_map, ← List.map_drop, List.findIdx?_map, hdeclares]
  rfl

theorem scanForward_relabel (hf : Function.Injective f) (script : Script) (label : Int64) :
    (s.relabel f).scanForward (script.relabel f) (f label) =
      relabelResult f (Transition.relabel f) (s.scanForward script label) := by
  unfold State.scanForward
  rw [s.distanceToLabel_relabel hf]
  cases s.distanceToLabel script label with
  | none => rfl
  | some distance =>
    have hinsert := s.labels.relabel_insert hf label (s.pc + distance + 1)
    simp [relabel, Transition.relabel, hinsert, Event.relabel]

end State

/-! ## Operands -/

namespace Operand

variable (s : State)

theorem load_relabel (source : Operand Object) :
    source.load (s.relabel f) = relabelResult f id (source.load s) := by
  cases source with
  | literal => rfl
  | slot addr => exact s.get_relabel addr

theorem scalar_relabel (operand : Operand Int64) :
    operand.scalar (s.relabel f) = relabelResult f id (operand.scalar s) := by
  cases operand with
  | literal => rfl
  | slot addr => exact s.getInt_relabel addr

theorem elements_relabel (operand : Operand (List Int64)) :
    operand.elements (s.relabel f) = relabelResult f id (operand.elements s) := by
  cases operand with
  | literal => rfl
  | slot addr => exact s.getArray_relabel addr

theorem holds_relabel (condition : Operand Int64) :
    condition.holds (s.relabel f) = relabelResult f id (condition.holds s) := by
  cases condition with
  | literal => rfl
  | slot addr =>
    rw [holds, holds, s.get_relabel]
    cases s.get addr <;> rfl

end Operand

theorem elementAt_relabel (values : List Int64) (index : Int64) :
    elementAt values index = relabelResult f id (elementAt values index) := by
  unfold elementAt
  split <;> rfl

theorem Object.text_relabel (object : Object) :
    object.text = relabelResult f id object.text := by
  unfold Object.text
  split <;> rfl

/-! ## Instructions -/

namespace State

variable (s : State)

theorem accessIndex_relabel (index : Operand Int64) (dest : Int64) (array : Operand (List Int64)) :
    (s.relabel f).accessIndex index dest array =
      relabelResult f (relabel f) (s.accessIndex index dest array) := by
  unfold State.accessIndex
  rw [index.scalar_relabel, array.elements_relabel]
  refine relabelResult_bind id _ _ fun i => ?_
  refine relabelResult_bind id _ _ fun values => ?_
  rw [elementAt_relabel (f := f)]
  exact relabelResult_bind id _ _ fun element => s.set_relabel dest (.int element)

theorem ifJump_relabel (hf : Function.Injective f) (program : Program)
    (condition : Operand Int64) (label : Int64) (jump : Jump) :
    (s.relabel f).ifJump (program.relabel f) condition (f label) jump =
      relabelResult f (Transition.relabel f) (s.ifJump program condition label jump) := by
  unfold State.ifJump
  rw [condition.holds_relabel]
  refine relabelResult_bind id _ _ fun met => ?_
  cases met with
  | false => rfl
  | true =>
    cases jump with
    | goto => exact s.goto_relabel hf program.config label
    | scan => exact s.scanForward_relabel hf program.script label

theorem receive_relabel (dest : Int64) (format : InputFormat) (line : Option ByteArray) :
    (s.relabel f).receive dest format line =
      relabelResult f (Transition.relabel f) (s.receive dest format line) := by
  cases line with
  | none => rfl
  | some bytes =>
    cases hr : format.read? bytes with
    | none =>
      simp only [State.receive, hr]
      rfl
    | some object =>
      simp only [State.receive, hr]
      rw [s.set_relabel, relabelResult_silent]

variable {η : Type} [Host η]

theorem print_relabel (line : Except Fault String) (host : η) :
    (s.relabel f).print (relabelResult f id line) host =
      Prod.map (relabelResult f (Transition.relabel f)) id (s.print line host) := by
  cases line with
  | error fault => rfl
  | ok line =>
    simp only [State.print, relabelResult_ok, id]
    cases Host.writeLine line host with
    | mk result host' => cases result <;> rfl

end State

theorem Machine.finish_relabel {η : Type} (m : Machine η) :
    (m.relabel f).finish = m.finish.relabel f := by
  simp [finish, relabel, Progress.relabel, Outcome.relabel, Event.relabel, State.relabel]

variable {η : Type} [Host η]

/-- An instruction under new names has the same effect under new names, and the same effect on the
host. -/
theorem Instruction.execute_relabel (hf : Function.Injective f) (program : Program) (s : State)
    (host : η) (i : Instruction) :
    (i.relabel f).execute (program.relabel f) (s.relabel f) host =
      Prod.map (relabelResult f (Transition.relabel f)) id (i.execute program s host) := by
  cases i with
  | declareLocal addr source =>
    refine congrArg (·, host) ?_
    rw [source.load_relabel]
    refine relabelResult_bind id _ _ fun object => ?_
    rw [id, s.declareLocal_relabel, relabelResult_silent]
  | set addr source =>
    refine congrArg (·, host) ?_
    rw [source.load_relabel]
    refine relabelResult_bind id _ _ fun object => ?_
    rw [id, s.set_relabel, relabelResult_silent]
  | declareLabel label => exact congrArg (Except.ok ·, host) (s.declareLabel_relabel hf label)
  | gotoLabel label => exact congrArg (·, host) (s.goto_relabel hf program.config label)
  | returnFromLabel => exact congrArg (·, host) (s.returnFromLabel_relabel program.config)
  | exit status =>
    simp only [Instruction.relabel, Instruction.execute, status.scalar_relabel]
    cases status.scalar s <;> rfl
  | noOp => rfl
  | sleep millis =>
    simp only [Instruction.relabel, Instruction.execute, millis.scalar_relabel]
    cases millis.scalar s <;> rfl
  | print source =>
    simp only [Instruction.relabel, Instruction.execute, source.load_relabel]
    rw [← s.print_relabel]
    cases source.load s <;> rfl
  | printString source =>
    simp only [Instruction.relabel, Instruction.execute, source.load_relabel]
    rw [← s.print_relabel]
    rw [relabelResult_bind id id _ fun object => object.text_relabel]
  | accessIndex index dest array =>
    refine congrArg (·, host) ?_
    rw [s.accessIndex_relabel, relabelResult_silent]
  | ifJump condition label jump =>
    exact congrArg (·, host) (s.ifJump_relabel hf program condition label jump)
  | input dest format =>
    simp only [Instruction.relabel, Instruction.execute]
    cases Host.readLine host with
    | mk result host' =>
      cases result with
      | error reason => rfl
      | ok line => exact congrArg (·, host') (s.receive_relabel dest format line)

/-! ## Runs -/

namespace Program

theorem execute_relabel (hf : Function.Injective f) (program : Program) (tokens : List Int64)
    (s : State) (host : η) :
    (program.relabel f).execute (relabelTokens f tokens) (s.relabel f) host =
      Prod.map (relabelResult f (Transition.relabel f)) id (program.execute tokens s host) := by
  unfold Program.execute
  rw [Instruction.decode_relabelTokens]
  cases Instruction.decode tokens with
  | error error => rfl
  | ok i? =>
    cases i? with
    | none => rfl
    | some i => exact i.execute_relabel hf program s host

theorem dispatch_relabel (hf : Function.Injective f) (program : Program) (statement : Statement)
    (m : Machine η) :
    (program.relabel f).dispatch (statement.relabel f) (m.relabel f) =
      (program.dispatch statement m).relabel f := by
  have he := program.execute_relabel hf statement.tokens m.state m.host
  simp only [dispatch_eq]
  cases hresult : program.execute statement.tokens m.state m.host with
  | mk result host =>
    rw [hresult] at he
    simp only [Statement.relabel, Machine.relabel, he]
    cases result with
    | error fault =>
      simp [Progress.relabel, Machine.relabel, Outcome.relabel, RuntimeError.relabel, Event.relabel]
    | ok t =>
      refine congrArg (fun journal => Progress.running ⟨host, t.state.relabel f, journal⟩) ?_
      apply Array.ext'
      simp [Transition.relabel, Event.relabel]

/-- A round commutes with the change of names. -/
theorem step_relabel (hf : Function.Injective f) (program : Program) (m : Machine η) :
    (program.relabel f).step (m.relabel f) = (program.step m).relabel f := by
  have hs : (program.relabel f).script.statement? (m.relabel f).state.pc =
      (program.script.statement? m.state.pc).map (Statement.relabel f) :=
    program.script.statement?_relabel m.state.pc
  have hrunning : (m.relabel f).state.running = m.state.running := rfl
  cases hr : m.state.running with
  | false => rw [step_of_halted hr, ← Machine.finish_relabel, step_of_halted (hrunning.trans hr)]
  | true =>
    cases hfetch : program.script.statement? m.state.pc with
    | none =>
      rw [hfetch] at hs
      rw [step_of_ended hr hfetch, ← Machine.finish_relabel,
        step_of_ended (hrunning.trans hr) hs]
      rfl
    | some statement =>
      rw [hfetch] at hs
      rw [step_of_fetched hr hfetch, ← dispatch_relabel hf,
        step_of_fetched (hrunning.trans hr) hs]
      rfl

/-- A run commutes with the change of names. -/
theorem run_relabel (hf : Function.Injective f) (program : Program) (fuel : Nat)
    (m : Machine η) :
    (program.relabel f).run fuel (m.relabel f) =
      Prod.map (Option.map (Outcome.relabel f)) (Machine.relabel f) (program.run fuel m) := by
  induction fuel generalizing m with
  | zero => rfl
  | succ fuel ih =>
    have hstep := program.step_relabel hf m
    cases hs : program.step m with
    | running m' =>
      rw [hs] at hstep
      rw [run_succ_of_running hs, run_succ_of_running hstep, ih]
    | ended outcome m' =>
      rw [hs] at hstep
      rw [run_succ_of_ended hs, run_succ_of_ended hstep]
      rfl

/-- Labels are only names. Under new names, different for different labels, the run of a fresh
machine ends if and only if it does under the old ones. After any number of rounds both have the
same outcome, up to the names in an error, the same host, and the same state, up to the names in the
table of labels. -/
theorem run_under_new_names (program : Program) (hf : Function.Injective f) (host : η) :
    let start : Machine η := { host }
    ((∃ fuel outcome m, (program.relabel f).run fuel start = (some outcome, m)) ↔
      ∃ fuel outcome m, program.run fuel start = (some outcome, m)) ∧
    ∀ fuel,
      let r := program.run fuel start
      let r' := (program.relabel f).run fuel start
      r'.1 = r.1.map (Outcome.relabel f) ∧ r'.2.host = r.2.host ∧ r'.2.state.pc = r.2.state.pc ∧
        r'.2.state.stack = r.2.state.stack ∧ r'.2.state.scopes = r.2.state.scopes ∧
        r'.2.state.returns = r.2.state.returns ∧ r'.2.state.running = r.2.state.running ∧
        r'.2.state.status = r.2.state.status ∧
        ∀ label, r'.2.state.labelAddress (f label) = r.2.state.labelAddress label := by
  intro start
  have hstart : start.relabel f = start := by
    simp [start, Machine.relabel, State.relabel, LabelTable.relabel]
  have hrun (fuel : Nat) : (program.relabel f).run fuel start =
      Prod.map (Option.map (Outcome.relabel f)) (Machine.relabel f) (program.run fuel start) := by
    have hrelabel := program.run_relabel hf fuel start
    rwa [hstart] at hrelabel
  refine ⟨⟨?_, ?_⟩, fun fuel => ?_⟩
  · rintro ⟨fuel, outcome, m, h⟩
    rw [hrun] at h
    obtain ⟨outcome₁, h₁, -⟩ := Option.map_eq_some_iff.1 (congrArg Prod.fst h)
    exact ⟨fuel, outcome₁, _, Prod.ext h₁ rfl⟩
  · rintro ⟨fuel, outcome, m, h⟩
    refine ⟨fuel, outcome.relabel f, m.relabel f, ?_⟩
    rw [hrun, h]
    rfl
  · intro r r'
    have hr' : r' = Prod.map (Option.map (Outcome.relabel f)) (Machine.relabel f) r := hrun fuel
    rw [hr']
    exact ⟨rfl, rfl, rfl, rfl, rfl, rfl, rfl, rfl, LabelTable.find?_relabel hf _⟩

/-- A script that passes over a malformed declaration of a label to a well-formed one, and then
calls another label, which it never declares. -/
def passThenLost : Program where
  script := .ofRows [[11, 2, 1, 7], [2, 7, 0], [2, 7], [3, 9]]

theorem passThenLost_run_under_new_names :
    let f (label : Int64) := label + 1
    let m : Machine MemoryHost := { host := {} }
    Function.Injective f ∧
      (passThenLost.relabel f).script = .ofRows [[11, 2, 1, 8], [2, 7, 0], [2, 8], [3, 10]] ∧
      ((passThenLost.relabel f).run 2 m).1 =
        some (.failed ⟨4, [3, 10], .labelNotFound 10⟩) ∧
      ((passThenLost.relabel f).run 2 m).2.state.labelAddress 8 = some 3 := by
  intro f m
  have hf : Function.Injective f := fun _ _ h => (Int64.add_left_inj 1).1 h
  obtain ⟨houtcome, -, -, -, -, -, -, -, hlabels⟩ :=
    (run_under_new_names passThenLost hf m.host).2 2
  refine ⟨hf, by decide +kernel, ?_, ?_⟩
  · rw [houtcome]
    decide +kernel
  · exact (hlabels 7).trans (by decide +kernel)

end Program

end IntScript
