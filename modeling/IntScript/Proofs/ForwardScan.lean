import IntScript.Proofs.Encoding
import IntScript.Proofs.Round
import Mathlib.Order.Bounds.Basic

/-!
# Forward scans

A forward scan compares tokens and counts from the program counter, while a run decodes one
statement after the other. Still the two agree: a scan finds the next statement that decodes to a
declaration of its label, and it leaves the machine as a run does that has just dispatched that
statement.
-/

namespace IntScript

/-- Statement `i` declares `label`. -/
def Script.DeclaresAt (script : Script) (label : Int64) (i : Nat) : Prop :=
  ∃ statement, script.statement? i = some statement ∧
    Instruction.decode statement.tokens = .ok (some (.declareLabel label))

/-- The declarations of `label` that a scan from the program counter can come to. -/
def State.declarationsAhead (s : State) (script : Script) (label : Int64) : Set Nat :=
  {i | s.pc ≤ i ∧ script.DeclaresAt label i}

/-- The state after a declaration of `label` by statement `i`. -/
def State.behindDeclaration (s : State) (label : Int64) (i : Nat) : State :=
  { s with pc := i + 1, labels := s.labels.insert label (i + 1) }

namespace State

variable {script : Script} {s : State} {label : Int64} {i distance : Nat}

theorem declaresAt_pc_add_iff :
    script.DeclaresAt label (s.pc + distance) ↔
      ∃ h : distance < (script.statements.toList.drop s.pc).length,
        (script.statements.toList.drop s.pc)[distance].declares label = true := by
  have hget : script.statement? (s.pc + distance) =
      (script.statements.toList.drop s.pc)[distance]? := by
    rw [List.getElem?_drop, Array.getElem?_toList, Script.statement?]
  simp only [Script.DeclaresAt, hget, ← Statement.declares_iff_decode, List.getElem?_eq_some_iff]
  constructor
  · rintro ⟨_, ⟨h, rfl⟩, hdeclares⟩
    exact ⟨h, hdeclares⟩
  · rintro ⟨h, hdeclares⟩
    exact ⟨_, ⟨h, rfl⟩, hdeclares⟩

theorem distanceToLabel_eq_some_iff :
    s.distanceToLabel script label = some distance ↔
      IsLeast (s.declarationsAhead script label) (s.pc + distance) := by
  rw [distanceToLabel, List.findIdx?_eq_some_iff_getElem]
  constructor
  · rintro ⟨hlt, hdeclares, hbefore⟩
    refine ⟨⟨Nat.le_add_right _ _, declaresAt_pc_add_iff.2 ⟨hlt, hdeclares⟩⟩, ?_⟩
    rintro j ⟨hj, hdeclaresj⟩
    obtain ⟨k, rfl⟩ := Nat.exists_eq_add_of_le hj
    obtain ⟨hk, hdeclaresk⟩ := declaresAt_pc_add_iff.1 hdeclaresj
    by_contra hlt
    exact hbefore k (by omega) hdeclaresk
  · rintro ⟨⟨-, hdeclares⟩, hleast⟩
    obtain ⟨hlt, hdeclares⟩ := declaresAt_pc_add_iff.1 hdeclares
    refine ⟨hlt, hdeclares, fun k hk hdeclaresk => ?_⟩
    have hle := hleast ⟨Nat.le_add_right s.pc k, declaresAt_pc_add_iff.2 ⟨by omega, hdeclaresk⟩⟩
    omega

theorem distanceToLabel_eq_none_iff :
    s.distanceToLabel script label = none ↔ s.declarationsAhead script label = ∅ := by
  rw [distanceToLabel, List.findIdx?_eq_none_iff, Set.eq_empty_iff_forall_notMem]
  constructor
  · rintro h i ⟨hi, hdeclares⟩
    obtain ⟨k, rfl⟩ := Nat.exists_eq_add_of_le hi
    obtain ⟨hk, hdeclaresk⟩ := declaresAt_pc_add_iff.1 hdeclares
    exact absurd hdeclaresk (Bool.eq_false_iff.1 (h _ (List.getElem_mem hk)))
  · intro h statement hstatement
    obtain ⟨k, hk, rfl⟩ := List.getElem_of_mem hstatement
    by_contra hdeclares
    rw [Bool.not_eq_false] at hdeclares
    exact h _ ⟨Nat.le_add_right s.pc k, declaresAt_pc_add_iff.2 ⟨hk, hdeclares⟩⟩

/-- A scan goes to the next declaration of its label. -/
theorem scanForward_of_isLeast (h : IsLeast (s.declarationsAhead script label) i) :
    s.scanForward script label =
      .ok ⟨s.behindDeclaration label i, [.scanned label s.pc (i + 1)]⟩ := by
  obtain ⟨distance, rfl⟩ := Nat.exists_eq_add_of_le h.1.1
  simp [scanForward, distanceToLabel_eq_some_iff.2 h, behindDeclaration]

theorem scanForward_of_eq_empty (h : s.declarationsAhead script label = ∅) :
    s.scanForward script label = .error (.labelNotFound label) := by
  simp [scanForward, distanceToLabel_eq_none_iff.2 h]

end State

namespace Machine

variable {η : Type} [Host η] {program : Program} {m : Machine η} {label : Int64} {i : Nat}

theorem perform_scanForward_of_isLeast
    (h : IsLeast (m.state.declarationsAhead program.script label) i) :
    let scan := m.perform program (.scanForward label)
    scan.1 = .done ∧ scan.2.state = m.state.behindDeclaration label i ∧ scan.2.host = m.host := by
  simp only [perform_eq, reaction, State.scanForward_of_isLeast h, attempt, follow, and_self]

theorem perform_scanForward_of_eq_empty
    (h : m.state.declarationsAhead program.script label = ∅) :
    m.perform program (.scanForward label) = (.fault (.labelNotFound label), m) := by
  simp only [perform_eq, reaction, State.scanForward_of_eq_empty h, attempt]

/-- What the dispatch of a declaration comes to. -/
theorem dispatch_of_declaresAt (h : program.script.DeclaresAt label i) (m : Machine η) :
    ∃ statement m', program.script.statement? i = some statement ∧
      program.dispatch statement { m with state.pc := i + 1 } = .running m' ∧
      m'.state = m.state.behindDeclaration label i ∧ m'.host = m.host := by
  obtain ⟨statement, hstatement, hdecode⟩ := h
  let fetched : State := { m.state with pc := i + 1 }
  have hexecute : program.execute statement.tokens fetched m.host =
      (.ok (fetched.declareLabel label), m.host) := by
    simp only [Program.execute, hdecode, Instruction.execute]
  let journal := m.journal.push (.dispatch statement.line statement.tokens)
  exact ⟨statement,
    ⟨m.host, (fetched.declareLabel label).state, journal ++ (fetched.declareLabel label).events⟩,
    hstatement, by simp only [Program.dispatch_eq, fetched, journal, hexecute], rfl, rfl⟩

/-- A forward scan does what the next declaration of its label would do, in whatever state the
machine is.

A scan succeeds exactly if there is a declaration of its label at the program counter or behind it.
With `i` the first of them, it leaves the machine in the state in which the dispatch of statement
`i` leaves it, once the statement has been fetched: the program counter and the address of the label
are `i + 1`, and nothing else is changed. Otherwise the label is not found, and the machine stays as
it is. -/
theorem scan_agrees_with_declaration (program : Program) (m : Machine η) (label : Int64) :
    let ahead := m.state.declarationsAhead program.script label
    let reply := (m.perform program (.scanForward label)).1
    let scanned := (m.perform program (.scanForward label)).2
    (reply = .done ↔ ahead.Nonempty) ∧
    (∀ i, IsLeast ahead i →
      (∃ statement m', program.script.statement? i = some statement ∧
        program.dispatch statement { m with state.pc := i + 1 } = .running m' ∧
        (m.state.running = true → program.step { m with state.pc := i } = .running m') ∧
        scanned.state = m'.state ∧ scanned.host = m'.host) ∧
      scanned.state = { m.state with pc := i + 1, labels := scanned.state.labels } ∧
      scanned.state.labelAddress label = some (i + 1) ∧
      ∀ other, other ≠ label → scanned.state.labelAddress other = m.state.labelAddress other) ∧
    (ahead = ∅ → m.perform program (.scanForward label) = (.fault (.labelNotFound label), m)) := by
  intro ahead reply scanned
  have hlost (hnone : ahead = ∅) := perform_scanForward_of_eq_empty (m := m) hnone
  refine ⟨⟨fun hdone => ?_, fun ⟨j, hj⟩ => ?_⟩, fun i hi => ?_, hlost⟩
  · by_contra hnone
    simp only [reply, hlost (Set.not_nonempty_iff_eq_empty.1 hnone)] at hdone
    cases hdone
  · cases hdistance : m.state.distanceToLabel program.script label with
    | none => exact absurd hj (Set.eq_empty_iff_forall_notMem.1
        (State.distanceToLabel_eq_none_iff.1 hdistance) j)
    | some distance =>
      exact (perform_scanForward_of_isLeast (State.distanceToLabel_eq_some_iff.1 hdistance)).1
  · obtain ⟨-, hstate, hhost⟩ := perform_scanForward_of_isLeast hi
    obtain ⟨statement, m', hs, hdispatch, hstate', hhost'⟩ := dispatch_of_declaresAt hi.1.2 m
    refine ⟨⟨statement, m', hs, hdispatch, fun hrunning => ?_, hstate.trans hstate'.symm,
      hhost.trans hhost'.symm⟩, ?_, ?_, ?_⟩
    · rw [← hdispatch]
      exact Program.step_of_fetched hrunning hs
    · rw [hstate]
      rfl
    · rw [hstate]
      simp [State.labelAddress, State.behindDeclaration]
    · intro other hother
      rw [hstate]
      simp [State.labelAddress, State.behindDeclaration, hother]

/-- A label that is declared in front of the program counter and twice behind it, with a malformed
declaration and one of another label in between. -/
def declaredTwiceAhead : Program where
  script := .ofRows [[2, 7], [2, 7, 7], [2, 8], [2, 7], [2, 7]]

theorem declaredTwiceAhead_scan_agrees :
    let m : Machine MemoryHost := { host := {}, state := { pc := 1 } }
    let scanned := (m.perform declaredTwiceAhead (.scanForward 7)).2
    IsLeast (m.state.declarationsAhead declaredTwiceAhead.script 7) 3 ∧
      scanned.state.labelAddress 7 = some 4 ∧
      (∃ m', declaredTwiceAhead.step { m with state.pc := 3 } = .running m' ∧
        scanned.state = m'.state) ∧
      m.perform declaredTwiceAhead (.scanForward 9) = (.fault (.labelNotFound 9), m) := by
  intro m scanned
  have hdistance : m.state.distanceToLabel declaredTwiceAhead.script 7 = some 2 := by
    decide +kernel
  have hnone : m.state.distanceToLabel declaredTwiceAhead.script 9 = none := by decide +kernel
  have hleast : IsLeast (m.state.declarationsAhead declaredTwiceAhead.script 7) 3 :=
    State.distanceToLabel_eq_some_iff.1 hdistance
  obtain ⟨⟨_, m', -, -, hstep, hstate, -⟩, -, haddress, -⟩ :=
    (scan_agrees_with_declaration declaredTwiceAhead m 7).2.1 3 hleast
  exact ⟨hleast, haddress, ⟨m', hstep rfl, hstate⟩,
    (scan_agrees_with_declaration declaredTwiceAhead m 9).2.2
      (State.distanceToLabel_eq_none_iff.1 hnone)⟩

end Machine

end IntScript
