import IntScript.Instruction.Encode
import IntScript.Proofs.Action

/-!
# Statements and the instructions they spell

Decoding and encoding are inverse to each other. An instruction is read back from the statement that
spells it, and a statement that decodes to an instruction consists of the tokens that the encoder
gives for it. Each way of reading arguments is treated once, for all operations that share it.
-/

namespace IntScript.Instruction

variable {op : Opcode} {args : List Int64}

theorem decodeStore_eq_ok {addr : Int64} {source : Operand Object}
    (h : decodeStore op args = .ok (addr, source)) : args = arguments (.set addr source) := by
  unfold decodeStore at h
  grind [arguments]

theorem decodeSource_eq_ok {source : Operand Object} (h : decodeSource op args = .ok source) :
    args = arguments (.print source) := by
  unfold decodeSource at h
  grind [arguments]

theorem decodeScalar_eq_ok {operand : Operand Int64} (h : decodeScalar op args = .ok operand) :
    args = arguments (.exit operand) := by
  unfold decodeScalar at h
  grind [arguments]

theorem decodeLabel_eq_ok {label : Int64} (h : decodeLabel op args = .ok label) :
    args = [label] := by
  unfold decodeLabel at h
  grind

theorem decodeNothing_eq_ok (h : decodeNothing op args = .ok ()) : args = [] := by
  unfold decodeNothing at h
  grind

theorem decodeAccess_eq_ok {index : Operand Int64} {dest : Int64} {array : Operand (List Int64)}
    (h : decodeAccess op args = .ok (index, dest, array)) :
    args = arguments (.accessIndex index dest array) := by
  unfold decodeAccess at h
  grind [arguments]

theorem decodeJump_eq_ok {condition : Operand Int64} {label : Int64} {jump : Jump}
    (h : decodeJump op args = .ok (condition, label, jump)) :
    args = arguments (.ifJump condition label jump) := by
  unfold decodeJump at h
  grind [arguments]

theorem decodeInput_eq_ok {dest : Int64} {format : InputFormat}
    (h : decodeInput op args = .ok (dest, format)) : args = arguments (.input dest format) := by
  unfold decodeInput at h
  grind [arguments]

theorem ofArguments_eq_ok {i : Instruction} (h : ofArguments op args = .ok i) :
    i.opcode = op ∧ args = i.arguments := by
  cases op with
  | declareLocal | set =>
    obtain ⟨⟨addr, source⟩, hargs, rfl⟩ := map_eq_ok_iff.1 h
    rw [decodeStore_eq_ok hargs]
    exact ⟨rfl, by rcases source with (value | values) | slot <;> rfl⟩
  | declareLabel | gotoLabel =>
    obtain ⟨label, hargs, rfl⟩ := map_eq_ok_iff.1 h
    exact ⟨rfl, decodeLabel_eq_ok hargs⟩
  | returnFromLabel | noOp =>
    obtain ⟨_, hargs, rfl⟩ := map_eq_ok_iff.1 h
    exact ⟨rfl, decodeNothing_eq_ok hargs⟩
  | exit | sleep =>
    obtain ⟨operand, hargs, rfl⟩ := map_eq_ok_iff.1 h
    rw [decodeScalar_eq_ok hargs]
    exact ⟨rfl, by cases operand <;> rfl⟩
  | print | printString =>
    obtain ⟨source, hargs, rfl⟩ := map_eq_ok_iff.1 h
    rw [decodeSource_eq_ok hargs]
    exact ⟨rfl, by rcases source with (value | values) | addr <;> rfl⟩
  | accessIndex =>
    obtain ⟨⟨index, dest, array⟩, hargs, rfl⟩ := map_eq_ok_iff.1 h
    exact ⟨rfl, decodeAccess_eq_ok hargs⟩
  | ifJump =>
    obtain ⟨⟨condition, label, jump⟩, hargs, rfl⟩ := map_eq_ok_iff.1 h
    exact ⟨rfl, decodeJump_eq_ok hargs⟩
  | input =>
    obtain ⟨⟨dest, format⟩, hargs, rfl⟩ := map_eq_ok_iff.1 h
    exact ⟨rfl, decodeInput_eq_ok hargs⟩

/-- Decoding reads every token: only the statement that spells an instruction decodes to it. -/
theorem eq_encode_of_decode {tokens : List Int64} {i : Instruction}
    (h : decode tokens = .ok (some i)) : tokens = i.encode := by
  cases tokens with
  | nil => cases h
  | cons code args =>
    cases hop : Opcode.ofCode? code with
    | none => simp [decode, hop] at h
    | some op =>
      obtain ⟨j, hj, hi⟩ := map_eq_ok_iff.1 (show (ofArguments op args).map some = _ by
        simpa [decode, hop] using h)
      obtain rfl := Option.some.inj hi
      obtain ⟨rfl, rfl⟩ := ofArguments_eq_ok hj
      rw [encode, Opcode.ofCode?_eq_some_iff.1 hop]

theorem ofArguments_arguments (i : Instruction) : ofArguments i.opcode i.arguments = .ok i := by
  cases i with
  | declareLocal addr source | set addr source | print source | printString source =>
    rcases source with (value | values) | slot <;> rfl
  | declareLabel | gotoLabel | returnFromLabel | noOp => rfl
  | exit operand | sleep operand => cases operand <;> rfl
  | accessIndex index dest array => cases index <;> cases array <;> rfl
  | ifJump condition label jump => cases condition <;> cases jump <;> rfl
  | input dest format => cases format <;> rfl

/-- An instruction is read back from the statement that spells it. -/
theorem decode_encode (i : Instruction) : decode i.encode = .ok (some i) := by
  simp [encode, decode, ofArguments_arguments, Except.map]

theorem decode_eq_ok_none_iff {tokens : List Int64} : decode tokens = .ok none ↔ tokens = [] := by
  cases tokens with
  | nil => simp [decode]
  | cons code args =>
    cases hop : Opcode.ofCode? code with
    | none => simp [decode, hop]
    | some op => cases ho : ofArguments op args <;> simp [decode, hop, ho, Except.map]

/-- Decoding is a bijection between the statements that spell something and the instructions.

Every instruction has a statement that decodes to it, which begins with the code of its operation,
and no other statement decodes to it: no token is ignored. Only the statement without tokens spells
no instruction and is well formed all the same. -/
theorem decoding_is_bijective :
    (∀ i : Instruction, decode i.encode = .ok (some i)) ∧
      (∀ tokens i, decode tokens = .ok (some i) → tokens = i.encode) ∧
      (∀ tokens, decode tokens = .ok none ↔ tokens = []) ∧
      (∀ tokens i, decode tokens = .ok (some i) → tokens[0]? = some i.opcode.code) ∧
      ∀ tokens tokens' i, decode tokens = .ok (some i) → decode tokens' = .ok (some i) →
        tokens = tokens' := by
  refine ⟨decode_encode, fun tokens i => eq_encode_of_decode, fun tokens => decode_eq_ok_none_iff,
    fun tokens i h => ?_, fun tokens tokens' i h h' => ?_⟩
  · rw [eq_encode_of_decode h]
    rfl
  · rw [eq_encode_of_decode h, eq_encode_of_decode h']

-- An array that is written out may have no elements.
example : decode [0, 1, 4] = .ok (some (.declareLocal 4 (.literal (.array [])))) := rfl

end IntScript.Instruction

namespace IntScript

/-- A forward scan takes those statements for declarations that decode to one. -/
theorem Statement.declares_iff_decode {label : Int64} {s : Statement} :
    s.declares label = true ↔ Instruction.decode s.tokens = .ok (some (.declareLabel label)) := by
  constructor
  · intro h
    have htokens : s.tokens = [Opcode.declareLabel.code, label] := by simpa [declares] using h
    rw [htokens]
    rfl
  · intro h
    rw [declares, Instruction.eq_encode_of_decode h]
    exact beq_self_eq_true _

end IntScript
