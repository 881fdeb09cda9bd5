import IntScript.Proofs.Encoding
import IntScript.Proofs.Failure
import IntScript.Proofs.WellFormed

/-!
# Access to the elements of an array

A statement that accesses an element evaluates the index, evaluates the array, looks the element up
and looks for the slot to store it in, in this order. Each of these steps can fail, and the first
one that does is reported. All of them come before the store, so that the element may go to the very
slot that the index or the array is taken from.

What an operand stands for, when the access succeeds and what is reported otherwise are said here
without the functions that carry the access out.
-/

namespace IntScript

/-! ## Operands -/

namespace Operand

variable {α : Type}

/-- The operand is `value` written out, or a slot that holds it. -/
def Denotes (object : α → Object) (s : State) (value : α) : Operand α → Prop
  | .literal written => written = value
  | .slot addr => s.get addr = .ok (object value)

/-- What is reported of an operand in a slot that does not exist or holds an object of the wrong
kind. -/
inductive Lacks (expected : Kind) (s : State) : Operand α → Fault → Prop where
  | notFound {addr : Int64} : s.resolve addr = .error (.symbolNotFound addr) →
      Lacks expected s (.slot addr) (.symbolNotFound addr)
  | wrongKind {addr : Int64} {object : Object} : s.get addr = .ok object → object.kind ≠ expected →
      Lacks expected s (.slot addr) (.wrongKind object expected)

variable {s : State} {fault : Fault}

theorem scalar_eq_ok_iff {index : Operand Int64} {i : Int64} :
    index.scalar s = .ok i ↔ index.Denotes .int s i := by
  cases index with
  | literal value => simp [scalar, Denotes]
  | slot addr =>
    simp only [scalar, State.getInt, Denotes]
    rcases s.get addr with fault | value | values <;> simp

theorem elements_eq_ok_iff {array : Operand (List Int64)} {vs : List Int64} :
    array.elements s = .ok vs ↔ array.Denotes .array s vs := by
  cases array with
  | literal values => simp [elements, Denotes]
  | slot addr =>
    simp only [elements, State.getArray, Denotes]
    rcases s.get addr with fault | value | values <;> simp

end Operand

namespace State.FindsSlots

variable {s : State} {fault : Fault}

/-- Only an address that stands for no slot cannot be read. -/
theorem get_eq_error_iff (h : s.FindsSlots) {addr : Int64} :
    s.get addr = .error fault ↔
      s.resolve addr = .error (.symbolNotFound addr) ∧ fault = .symbolNotFound addr := by
  cases hr : s.resolve addr with
  | error fault' =>
    obtain rfl := resolve_eq_error hr
    simp [State.get, hr, eq_comm]
  | ok index =>
    obtain ⟨_, hget, -⟩ := h.slot_of_resolve hr
    simp [hget]

theorem lacks_slot_iff {α : Type} (h : s.FindsSlots) {addr : Int64} {expected : Kind} :
    (Operand.slot addr : Operand α).Lacks expected s fault ↔
      s.get addr = .error fault ∨
        ∃ object, s.get addr = .ok object ∧ object.kind ≠ expected ∧
          fault = .wrongKind object expected := by
  constructor
  · intro hlacks
    cases hlacks with
    | notFound hr => exact .inl (h.get_eq_error_iff.2 ⟨hr, rfl⟩)
    | wrongKind hget hkind => exact .inr ⟨_, hget, hkind, rfl⟩
  · rintro (hget | ⟨object, hget, hkind, rfl⟩)
    · obtain ⟨hr, rfl⟩ := h.get_eq_error_iff.1 hget
      exact .notFound hr
    · exact .wrongKind hget hkind

theorem scalar_eq_error_iff (h : s.FindsSlots) {index : Operand Int64} :
    index.scalar s = .error fault ↔ index.Lacks .int s fault := by
  cases index with
  | literal value =>
    refine iff_of_false (by simp [Operand.scalar]) ?_
    rintro ⟨⟩
  | slot addr =>
    rw [h.lacks_slot_iff]
    simp only [Operand.scalar, State.getInt]
    rcases s.get addr with fault' | value | values <;> simp [Object.kind, eq_comm]

theorem elements_eq_error_iff (h : s.FindsSlots) {array : Operand (List Int64)} :
    array.elements s = .error fault ↔ array.Lacks .array s fault := by
  cases array with
  | literal values =>
    refine iff_of_false (by simp [Operand.elements]) ?_
    rintro ⟨⟩
  | slot addr =>
    rw [h.lacks_slot_iff]
    simp only [Operand.elements, State.getArray]
    rcases s.get addr with fault' | value | values <;> simp [Object.kind, eq_comm]

end State.FindsSlots

/-! ## Elements -/

theorem elementAt_of_lt {vs : List Int64} {i : Int64} (hpos : 0 ≤ i.toInt)
    (hlt : i.toInt.toNat < vs.length) : elementAt vs i = .ok vs[i.toInt.toNat] := by
  have hposition : i.toInt.toNat? = some i.toInt.toNat := Int.mem_toNat?.2 (by omega)
  rw [elementAt, hposition, Option.bind_some, List.getElem?_eq_getElem hlt]

/-- A negative index is as much out of bounds as one that is too large. -/
theorem elementAt_of_out {vs : List Int64} {i : Int64} (h : i.toInt < 0 ∨ vs.length ≤ i.toInt) :
    elementAt vs i = .error (.indexOutOfBounds i vs.length) := by
  have hnone : (i.toInt.toNat?.bind fun k => vs[k]?) = none := by
    refine Option.eq_none_iff_forall_ne_some.2 fun element helement => ?_
    obtain ⟨k, hk, hget⟩ := Option.bind_eq_some_iff.1 helement
    have hi : i.toInt = k := Int.mem_toNat?.1 hk
    obtain ⟨hlt, -⟩ := List.getElem?_eq_some_iff.1 hget
    omega
  rw [elementAt, hnone]

/-! ## Accesses -/

namespace State

/-- An access to element `i` of `vs`, for the slot at index `slot` of the stack, that nothing stands
in the way of. -/
structure Access (s : State) (index : Operand Int64) (dest : Int64) (array : Operand (List Int64))
    (i : Int64) (vs : List Int64) (slot : Nat) : Prop where
  index : index.Denotes .int s i
  array : array.Denotes .array s vs
  nonneg : 0 ≤ i.toInt
  lt_length : i.toInt < vs.length
  dest : s.resolve dest = .ok slot

/-- What is reported of an access that fails: the index, the array, the position of the element and
the destination are looked at in this order. -/
inductive AccessFault (s : State) (index : Operand Int64) (dest : Int64)
    (array : Operand (List Int64)) : Fault → Prop where
  | index {fault : Fault} : index.Lacks .int s fault → AccessFault s index dest array fault
  | array {i : Int64} {fault : Fault} : index.Denotes .int s i → array.Lacks .array s fault →
      AccessFault s index dest array fault
  | position {i : Int64} {vs : List Int64} : index.Denotes .int s i → array.Denotes .array s vs →
      i.toInt < 0 ∨ vs.length ≤ i.toInt →
      AccessFault s index dest array (.indexOutOfBounds i vs.length)
  | dest {i : Int64} {vs : List Int64} : index.Denotes .int s i → array.Denotes .array s vs →
      0 ≤ i.toInt → i.toInt < vs.length → s.resolve dest = .error (.symbolNotFound dest) →
      AccessFault s index dest array (.symbolNotFound dest)

variable {s : State} {index : Operand Int64} {dest : Int64} {array : Operand (List Int64)}

theorem Access.toNat_lt {i : Int64} {vs : List Int64} {slot : Nat}
    (h : s.Access index dest array i vs slot) : i.toInt.toNat < vs.length := by
  have := h.nonneg
  have := h.lt_length
  omega

theorem FindsSlots.accessIndex_of_access (h : s.FindsSlots) {i : Int64} {vs : List Int64}
    {slot : Nat} (ha : s.Access index dest array i vs slot) :
    ∃ hi : i.toInt.toNat < vs.length, ∃ hslot : slot < s.stack.size,
      s.accessIndex index dest array =
        .ok { s with stack := s.stack.set slot (.int vs[i.toInt.toNat]) } := by
  obtain ⟨hslot, -, hset⟩ := h.slot_of_resolve ha.dest
  refine ⟨ha.toNat_lt, hslot, ?_⟩
  rw [accessIndex_eq, Operand.scalar_eq_ok_iff.2 ha.index, Except.bind,
    Operand.elements_eq_ok_iff.2 ha.array, Except.bind, elementAt_of_lt ha.nonneg ha.toNat_lt,
    Except.bind, hset]

theorem FindsSlots.accessIndex_of_accessFault (h : s.FindsSlots) {fault : Fault}
    (hf : s.AccessFault index dest array fault) :
    s.accessIndex index dest array = .error fault := by
  rw [accessIndex_eq]
  cases hf with
  | index hindex => rw [h.scalar_eq_error_iff.2 hindex, Except.bind]
  | array hindex harray =>
    rw [Operand.scalar_eq_ok_iff.2 hindex, Except.bind, h.elements_eq_error_iff.2 harray,
      Except.bind]
  | position hindex harray hout =>
    rw [Operand.scalar_eq_ok_iff.2 hindex, Except.bind, Operand.elements_eq_ok_iff.2 harray,
      Except.bind, elementAt_of_out hout, Except.bind]
  | @dest i vs hindex harray hpos hlt hdest =>
    rw [Operand.scalar_eq_ok_iff.2 hindex, Except.bind, Operand.elements_eq_ok_iff.2 harray,
      Except.bind, elementAt_of_lt hpos (by omega), Except.bind, State.set, hdest]

/-- Every access succeeds or has something that is reported. -/
theorem FindsSlots.access_or_accessFault (h : s.FindsSlots) (index : Operand Int64)
    (dest : Int64) (array : Operand (List Int64)) :
    (∃ i vs slot, s.Access index dest array i vs slot) ∨
      ∃ fault, s.AccessFault index dest array fault := by
  cases hindex : index.scalar s with
  | error fault => exact .inr ⟨fault, .index (h.scalar_eq_error_iff.1 hindex)⟩
  | ok i =>
    replace hindex := Operand.scalar_eq_ok_iff.1 hindex
    cases harray : array.elements s with
    | error fault => exact .inr ⟨fault, .array hindex (h.elements_eq_error_iff.1 harray)⟩
    | ok vs =>
      replace harray := Operand.elements_eq_ok_iff.1 harray
      by_cases hout : i.toInt < 0 ∨ vs.length ≤ i.toInt
      · exact .inr ⟨_, .position hindex harray hout⟩
      · obtain ⟨hpos, hlt⟩ : 0 ≤ i.toInt ∧ i.toInt < vs.length := by omega
        cases hdest : s.resolve dest with
        | error fault =>
          obtain rfl := resolve_eq_error hdest
          exact .inr ⟨_, .dest hindex harray hpos hlt hdest⟩
        | ok slot => exact .inl ⟨i, vs, slot, hindex, harray, hpos, hlt, hdest⟩

end State

/-! ## Statements -/

namespace Program

variable {η : Type} [Host η]

theorem dispatch_of_accessIndex (program : Program) (m : Machine η) {statement : Statement}
    {index : Operand Int64} {dest : Int64} {array : Operand (List Int64)}
    (h : Instruction.decode statement.tokens = .ok (some (.accessIndex index dest array))) :
    let journal := m.journal.push (.dispatch statement.line statement.tokens)
    program.dispatch statement m =
      match m.state.accessIndex index dest array with
      | .ok s => .running { m with state := s, journal }
      | .error fault =>
        .ended (.failed ⟨statement.line, statement.tokens, fault⟩) { m with journal } := by
  simp only [dispatch_eq, Program.execute, h, Instruction.execute]
  cases m.state.accessIndex index dest array <;> simp [Except.map]

theorem dispatch_of_access (program : Program) {m : Machine η} (hslots : m.state.FindsSlots)
    {statement : Statement} {index : Operand Int64} {dest : Int64} {array : Operand (List Int64)}
    (hdecode : Instruction.decode statement.tokens = .ok (some (.accessIndex index dest array)))
    {i : Int64} {vs : List Int64} {slot : Nat} (ha : m.state.Access index dest array i vs slot) :
    ∃ hi : i.toInt.toNat < vs.length, ∃ hslot : slot < m.state.stack.size,
      program.dispatch statement m = .running
        { m with
          state.stack := m.state.stack.set slot (.int vs[i.toInt.toNat])
          journal := m.journal.push (.dispatch statement.line statement.tokens) } := by
  obtain ⟨hi, hslot, haccess⟩ := hslots.accessIndex_of_access ha
  exact ⟨hi, hslot, by rw [program.dispatch_of_accessIndex m hdecode, haccess]⟩

theorem dispatch_of_accessFault (program : Program) {m : Machine η} (hslots : m.state.FindsSlots)
    {statement : Statement} {index : Operand Int64} {dest : Int64} {array : Operand (List Int64)}
    (hdecode : Instruction.decode statement.tokens = .ok (some (.accessIndex index dest array)))
    {fault : Fault} (hf : m.state.AccessFault index dest array fault) :
    program.dispatch statement m =
      .ended (.failed ⟨statement.line, statement.tokens, fault⟩)
        { m with journal := m.journal.push (.dispatch statement.line statement.tokens) } := by
  rw [program.dispatch_of_accessIndex m hdecode, hslots.accessIndex_of_accessFault hf]

end Program

namespace Machine

variable {η : Type} [Host η]

/-- The statement that accesses an element of an array, in whatever state operations have led to and
wherever the program counter stands: in a run it already points behind the statement.

The statement succeeds exactly if index and array have values of the right kind, the index is within
the array and the destination stands for a slot. It then replaces the object in this slot by the
element, and changes nothing else but the journal, whichever slots the operands are in. Otherwise it
fails and changes nothing but the journal, and what is reported is what `AccessFault` says. -/
theorem access_stores_or_reports_first_fault (program : Program) (host : η) (journal : Array Event)
    (operations : List Operation) (pc : Nat) (statement : Statement) {index : Operand Int64}
    {dest : Int64} {array : Operand (List Int64)}
    (hdecode : Instruction.decode statement.tokens = .ok (some (.accessIndex index dest array))) :
    let m : Machine η := { performAll program { host, journal } operations with state.pc := pc }
    let s := m.state
    let journal' := m.journal.push (.dispatch statement.line statement.tokens)
    statement.tokens = (Instruction.accessIndex index dest array).encode ∧
      ((∃ m', program.dispatch statement m = .running m') ↔
        ∃ i vs slot, s.Access index dest array i vs slot) ∧
      (∀ i vs slot, s.Access index dest array i vs slot →
        ∃ hi : i.toInt.toNat < vs.length, ∃ hslot : slot < s.stack.size,
          program.dispatch statement m = .running
            { m with
              state.stack := s.stack.set slot (.int vs[i.toInt.toNat])
              journal := journal' }) ∧
      ((∀ i vs slot, ¬s.Access index dest array i vs slot) →
        ∃ fault, program.dispatch statement m =
          .ended (.failed ⟨statement.line, statement.tokens, fault⟩)
            { m with journal := journal' }) ∧
      ∀ fault, program.dispatch statement m =
          .ended (.failed ⟨statement.line, statement.tokens, fault⟩)
            { m with journal := journal' } ↔
        s.AccessFault index dest array fault := by
  intro m s journal'
  have hslots : s.FindsSlots :=
    (wellFormed_performAll (State.WellFormed.empty program.script) operations).findsSlots
  have hstored (i : Int64) (vs : List Int64) (slot : Nat)
      (ha : s.Access index dest array i vs slot) :=
    program.dispatch_of_access hslots hdecode ha
  have hfailed (fault : Fault) (hf : s.AccessFault index dest array fault) :=
    program.dispatch_of_accessFault hslots hdecode hf
  -- Access and fault exhaust the cases, and a statement does not both go on and end. This gives the
  -- converse of either fact above.
  have hcases := hslots.access_or_accessFault index dest array
  refine ⟨Instruction.eq_encode_of_decode hdecode, ⟨?_, ?_⟩, hstored, ?_, ?_⟩
  · rintro ⟨m', hrunning⟩
    obtain haccess | ⟨fault, hf⟩ := hcases
    · exact haccess
    · cases (hfailed fault hf).symm.trans hrunning
  · rintro ⟨i, vs, slot, ha⟩
    obtain ⟨_, _, hrunning⟩ := hstored i vs slot ha
    exact ⟨_, hrunning⟩
  · intro hnone
    obtain ⟨i, vs, slot, ha⟩ | ⟨fault, hf⟩ := hcases
    · exact absurd ha (hnone i vs slot)
    · exact ⟨fault, hfailed fault hf⟩
  · refine fun fault => ⟨fun hended => ?_, hfailed fault⟩
    obtain ⟨i, vs, slot, ha⟩ | ⟨fault', hf⟩ := hcases
    · obtain ⟨_, _, hrunning⟩ := hstored i vs slot ha
      cases hrunning.symm.trans hended
    · cases (hfailed fault' hf).symm.trans hended
      exact hf

/-- The last element of an array takes the place of the array. A negative index is reported, and a
destination that does not exist is then not looked at. -/
theorem arrayInSlot_access_stores_or_reports :
    let program : Program := { script := {} }
    let m : Machine MemoryHost :=
      performAll program { host := {} } [.declareLocal 0 (.array [5, 7, 9])]
    let last : Statement := ⟨1, [10, 2, 2, 0, 0]⟩
    let negative : Statement := ⟨1, [10, 2, -1, 3, 0]⟩
    Instruction.decode last.tokens = .ok (some (.accessIndex (.literal 2) 0 (.slot 0))) ∧
      (program.dispatch last m).machine.state.stack = #[.int 9] ∧
      Instruction.decode negative.tokens = .ok (some (.accessIndex (.literal (-1)) 3 (.slot 0))) ∧
      program.dispatch negative m =
        .ended (.failed ⟨1, negative.tokens, .indexOutOfBounds (-1) 3⟩)
          { m with journal := m.journal.push (.dispatch 1 negative.tokens) } := by
  intro program m last negative
  have haccess (statement : Statement) {index : Operand Int64} {dest : Int64}
      {array : Operand (List Int64)}
      (h : Instruction.decode statement.tokens = .ok (some (.accessIndex index dest array))) :=
    access_stores_or_reports_first_fault program ({} : MemoryHost) #[]
      [.declareLocal 0 (.array [5, 7, 9])] 0 statement h
  refine ⟨rfl, ?_, rfl, ?_⟩
  · obtain ⟨-, -, hstored, -⟩ := haccess last rfl
    obtain ⟨_, _, hrunning⟩ := hstored 2 [5, 7, 9] 0 ⟨rfl, rfl, by decide, by decide, rfl⟩
    exact congrArg (fun p => p.machine.state.stack) hrunning
  · obtain ⟨-, -, -, -, hfault⟩ := haccess negative rfl
    exact (hfault _).2 (@State.AccessFault.position _ _ _ _ (-1) [5, 7, 9] rfl rfl
      (.inl (by decide)))

-- The index is passed on to the root scope, while the array lies in the scope inside it. The
-- element may replace either of them.
example :
    let program : Program := { script := {} }
    let m : Machine MemoryHost := performAll program { host := {} }
      [.declareLocal 0 (.int 4), .declareLocal 1 (.int 2), .enterScope,
        .declareLocal 0 (.array [5, 7, 9])]
    [0, 1].map (fun dest => (program.dispatch ⟨1, [10, 3, 1, dest, 0]⟩ m).machine.state.stack) =
      [#[.int 4, .int 2, .int 9], #[.int 4, .int 9, .array [5, 7, 9]]] := by
  decide +kernel

end Machine

end IntScript
