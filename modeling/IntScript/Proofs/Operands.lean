import IntScript.Proofs.Encoding
import IntScript.Proofs.Round

/-!
# Operands in slots and operands written out

An operand may stand in the statement itself or in a slot. The two forms have selectors of their own
and are evaluated apart. A statement that takes an operand from a slot nevertheless does what it
would do with the content of the slot written out, whatever its other operands are and whether it
succeeds or fails. The operand is read before anything is stored, so that this holds also if the
slot is the one that is stored to.
-/

namespace IntScript

variable {s : State} {a : Int64} {object : Object}

/-! ## Evaluation -/

namespace Operand

theorem load_slot (h : s.get a = .ok object) :
    (Operand.slot a : Operand Object).load s = (Operand.literal object).load s := h

theorem scalar_slot {value : Int64} (h : s.get a = .ok (.int value)) :
    (Operand.slot a : Operand Int64).scalar s = (Operand.literal value).scalar s := by
  simp [scalar, State.getInt, h]

theorem elements_slot {values : List Int64} (h : s.get a = .ok (.array values)) :
    (Operand.slot a : Operand (List Int64)).elements s = (Operand.literal values).elements s := by
  simp [elements, State.getArray, h]

theorem holds_slot {value : Int64} (h : s.get a = .ok (.int value)) :
    (Operand.slot a : Operand Int64).holds s = (Operand.literal value).holds s := by
  simp [holds, h, Except.map, Object.isTrue]

end Operand

/-! ## Instructions -/

variable {η : Type} [Host η]

namespace Instruction

/-- The second instruction has the object in place of an operand that the first has in slot `a`. -/
inductive Inlines (a : Int64) : Object → Instruction → Instruction → Prop where
  | declareLocal (addr : Int64) (object : Object) :
      Inlines a object (.declareLocal addr (.slot a)) (.declareLocal addr (.literal object))
  | set (addr : Int64) (object : Object) :
      Inlines a object (.set addr (.slot a)) (.set addr (.literal object))
  | print (object : Object) : Inlines a object (.print (.slot a)) (.print (.literal object))
  | printString (object : Object) :
      Inlines a object (.printString (.slot a)) (.printString (.literal object))
  | exit (status : Int64) : Inlines a (.int status) (.exit (.slot a)) (.exit (.literal status))
  | sleep (millis : Int64) : Inlines a (.int millis) (.sleep (.slot a)) (.sleep (.literal millis))
  | index (index dest : Int64) (array : Operand (List Int64)) :
      Inlines a (.int index) (.accessIndex (.slot a) dest array)
        (.accessIndex (.literal index) dest array)
  | array (index : Operand Int64) (dest : Int64) (values : List Int64) :
      Inlines a (.array values) (.accessIndex index dest (.slot a))
        (.accessIndex index dest (.literal values))
  | condition (value label : Int64) (jump : Jump) :
      Inlines a (.int value) (.ifJump (.slot a) label jump) (.ifJump (.literal value) label jump)

theorem Inlines.execute_eq {i j : Instruction} (hij : Inlines a object i j)
    (hget : s.get a = .ok object) (program : Program) (h : η) :
    i.execute program s h = j.execute program s h := by
  cases hij with
  | declareLocal | set | print | printString =>
    simp only [Instruction.execute, Operand.load_slot hget]
  | exit | sleep => simp only [Instruction.execute, Operand.scalar_slot hget]
  | index => simp only [Instruction.execute, State.accessIndex, Operand.scalar_slot hget]
  | array => simp only [Instruction.execute, State.accessIndex, Operand.elements_slot hget]
  | condition => simp only [Instruction.execute, State.ifJump, Operand.holds_slot hget]

end Instruction

/-! ## Statements -/

open Opcode (accessIndex ifJump)

/-- The second statement has the object written out where the first refers to slot `a`, and the
selector that goes with it. All other operands are the same. -/
inductive WrittenOut (a : Int64) : Object → List Int64 → List Int64 → Prop where
  | storeInt {op : Opcode} (addr v : Int64) : op = .declareLocal ∨ op = .set →
      WrittenOut a (.int v) [op.code, 2, addr, a] [op.code, 0, addr, v]
  | storeArray {op : Opcode} (addr : Int64) (vs : List Int64) : op = .declareLocal ∨ op = .set →
      WrittenOut a (.array vs) [op.code, 2, addr, a] ([op.code, 1, addr] ++ vs)
  | scalar {op : Opcode} (v : Int64) : op = .exit ∨ op = .sleep →
      WrittenOut a (.int v) [op.code, 1, a] [op.code, 0, v]
  | printInt {op : Opcode} (v : Int64) : op = .print ∨ op = .printString →
      WrittenOut a (.int v) [op.code, 2, a] [op.code, 0, v]
  | printArray {op : Opcode} (vs : List Int64) : op = .print ∨ op = .printString →
      WrittenOut a (.array vs) [op.code, 2, a] ([op.code, 1] ++ vs)
  | indexIntoArray (v dest : Int64) (values : List Int64) :
      WrittenOut a (.int v) ([accessIndex.code, 1, a, dest] ++ values)
        ([accessIndex.code, 0, v, dest] ++ values)
  | indexIntoSlot (v dest array : Int64) :
      WrittenOut a (.int v) [accessIndex.code, 3, a, dest, array]
        [accessIndex.code, 2, v, dest, array]
  | arrayAtInt (index dest : Int64) (vs : List Int64) :
      WrittenOut a (.array vs) [accessIndex.code, 2, index, dest, a]
        ([accessIndex.code, 0, index, dest] ++ vs)
  | arrayAtSlot (index dest : Int64) (vs : List Int64) :
      WrittenOut a (.array vs) [accessIndex.code, 3, index, dest, a]
        ([accessIndex.code, 1, index, dest] ++ vs)
  | goto (v label : Int64) :
      WrittenOut a (.int v) [ifJump.code, 1, a, label] [ifJump.code, 0, v, label]
  | scan (v label : Int64) :
      WrittenOut a (.int v) [ifJump.code, 3, a, label] [ifJump.code, 2, v, label]

theorem WrittenOut.decode_eq {slotForm literalForm : List Int64}
    (h : WrittenOut a object slotForm literalForm) :
    ∃ i j, Instruction.decode slotForm = .ok (some i) ∧
      Instruction.decode literalForm = .ok (some j) ∧ i.Inlines a object j := by
  cases h with
  | storeInt addr v hop =>
    obtain rfl | rfl := hop
    · exact ⟨_, _, rfl, rfl, .declareLocal addr _⟩
    · exact ⟨_, _, rfl, rfl, .set addr _⟩
  | storeArray addr vs hop =>
    obtain rfl | rfl := hop
    · exact ⟨_, _, rfl, rfl, .declareLocal addr _⟩
    · exact ⟨_, _, rfl, rfl, .set addr _⟩
  | scalar v hop =>
    obtain rfl | rfl := hop
    · exact ⟨_, _, rfl, rfl, .exit v⟩
    · exact ⟨_, _, rfl, rfl, .sleep v⟩
  | printInt v hop =>
    obtain rfl | rfl := hop
    · exact ⟨_, _, rfl, rfl, .print _⟩
    · exact ⟨_, _, rfl, rfl, .printString _⟩
  | printArray vs hop =>
    obtain rfl | rfl := hop
    · exact ⟨_, _, rfl, rfl, .print _⟩
    · exact ⟨_, _, rfl, rfl, .printString _⟩
  | indexIntoArray v dest values => exact ⟨_, _, rfl, rfl, .index v dest _⟩
  | indexIntoSlot v dest array => exact ⟨_, _, rfl, rfl, .index v dest _⟩
  | arrayAtInt index dest vs => exact ⟨_, _, rfl, rfl, .array _ dest vs⟩
  | arrayAtSlot index dest vs => exact ⟨_, _, rfl, rfl, .array _ dest vs⟩
  | goto v label => exact ⟨_, _, rfl, rfl, .condition v label _⟩
  | scan v label => exact ⟨_, _, rfl, rfl, .condition v label _⟩

theorem WrittenOut.execute_eq {slotForm literalForm : List Int64}
    (h : WrittenOut a object slotForm literalForm) (hget : s.get a = .ok object)
    (program : Program) (host : η) :
    program.execute slotForm s host = program.execute literalForm s host := by
  obtain ⟨i, j, hi, hj, hij⟩ := h.decode_eq
  simp only [Program.execute, hi, hj, hij.execute_eq hget]

/-- Two rounds come to the same state and the same host, and both succeed or both fail with the same
fault. Which statement they dispatch is left open. -/
inductive Progress.SameEffect : Progress η → Progress η → Prop where
  | running {m m' : Machine η} : m.state = m'.state → m.host = m'.host →
      SameEffect (.running m) (.running m')
  | failed {error error' : RuntimeError} {m m' : Machine η} : error.fault = error'.fault →
      m.state = m'.state → m.host = m'.host →
      SameEffect (.ended (.failed error) m) (.ended (.failed error') m')

namespace Program

theorem dispatch_sameEffect {program : Program} {m : Machine η} {statement statement' : Statement}
    (h : program.execute statement.tokens m.state m.host =
      program.execute statement'.tokens m.state m.host) :
    (program.dispatch statement m).SameEffect (program.dispatch statement' m) := by
  rw [dispatch_eq, dispatch_eq, h]
  rcases program.execute statement'.tokens m.state m.host with ⟨fault | t, host⟩
  · exact .failed rfl rfl rfl
  · exact .running rfl rfl

/-- A statement that takes an operand from a slot has the effect of the statement that has the
content of the slot written out, in every state in which the slot can be read. -/
theorem slot_operand_as_written_out (program : Program) {m : Machine η}
    {slotForm literalForm : List Int64} (hget : m.state.get a = .ok object)
    (hform : WrittenOut a object slotForm literalForm) (line : Nat) :
    (program.dispatch ⟨line, slotForm⟩ m).SameEffect (program.dispatch ⟨line, literalForm⟩ m) :=
  dispatch_sameEffect (hform.execute_eq hget program m.host)

/-- A machine with an array in its first slot and an index into it in the second. -/
def arrayAndIndex : Machine MemoryHost where
  host := {}
  state := { stack := #[.array [5, 7, 9], .int 1] }

/-- The array may be taken from the slot that the element goes to. -/
theorem arrayAndIndex_slot_operand_as_written_out :
    arrayAndIndex.state.get 0 = .ok (.array [5, 7, 9]) ∧
      WrittenOut 0 (.array [5, 7, 9]) [10, 3, 1, 0, 0] [10, 1, 1, 0, 5, 7, 9] ∧
      (dispatch ⟨{}, {}⟩ ⟨1, [10, 3, 1, 0, 0]⟩ arrayAndIndex).SameEffect
        (dispatch ⟨{}, {}⟩ ⟨1, [10, 1, 1, 0, 5, 7, 9]⟩ arrayAndIndex) ∧
      (dispatch ⟨{}, {}⟩ ⟨1, [10, 3, 1, 0, 0]⟩ arrayAndIndex).machine.state.stack =
        #[.int 7, .int 1] := by
  have hget : arrayAndIndex.state.get 0 = .ok (.array [5, 7, 9]) := rfl
  have hform : WrittenOut 0 (.array [5, 7, 9]) [10, 3, 1, 0, 0] [10, 1, 1, 0, 5, 7, 9] :=
    .arrayAtSlot 1 0 [5, 7, 9]
  exact ⟨hget, hform, slot_operand_as_written_out ⟨{}, {}⟩ hget hform 1, by decide⟩

end Program

end IntScript
