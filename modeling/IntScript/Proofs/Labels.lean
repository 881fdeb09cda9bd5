import IntScript.Proofs.CallReturn
import IntScript.Proofs.Encoding

/-!
# Where labels and returns lead

A label enters the table in one of two ways: its declaration is dispatched, or a forward scan lands
on it. Either way the table holds the address behind the declaration that came last, so that the
table can be read off the rounds made so far. A return address stands behind the statement that made
the call.
-/

namespace IntScript

/-- Statement `p` calls a label, with or without a condition. -/
def Script.CallsAt (script : Script) (p : Nat) : Prop :=
  ∃ statement, script.statement? p = some statement ∧
    ((∃ label, Instruction.decode statement.tokens = .ok (some (.gotoLabel label))) ∨
      ∃ condition label,
        Instruction.decode statement.tokens = .ok (some (.ifJump condition label .goto)))

theorem State.labels_leaveScope (s : State) : s.leaveScope.labels = s.labels := by
  rcases hs : s.scopes with _ | ⟨base, _ | ⟨enclosing, outer⟩⟩ <;>
    simp [State.leaveScope, State.exitScope, hs]

namespace Program

/-- In the next round statement `p` takes effect as a declaration of `label`: it is dispatched, or a
forward scan lands on it. -/
inductive Declares (program : Program) (s : State) (label : Int64) : Nat → Prop where
  | dispatched : program.instruction? s = some (.declareLabel label) →
      Declares program s label s.pc
  | scanned {condition : Operand Int64} {distance : Nat} :
      program.instruction? s = some (.ifJump condition label .scan) →
      condition.holds s.fetched = .ok true →
      s.fetched.distanceToLabel program.script label = some distance →
      Declares program s label (s.fetched.pc + distance)

variable {program : Program} {s : State} {t : Transition} {label : Int64} {p : Nat}

theorem Declares.unique {q : Nat} (hp : program.Declares s label p)
    (hq : program.Declares s label q) : p = q := by
  cases hp <;> cases hq <;> simp_all

/-- What takes effect as a declaration of a label is a declaration of that label. -/
theorem Declares.statement (h : program.Declares s label p) :
    ∃ statement, program.script.statement? p = some statement ∧
      statement.tokens = [Opcode.declareLabel.code, label] := by
  cases h with
  | dispatched hi =>
    obtain ⟨-, statement, hs, hd⟩ := instruction?_eq_some_iff.1 hi
    exact ⟨statement, hs, Instruction.eq_encode_of_decode hd⟩
  | @scanned _ distance _ _ hdistance =>
    obtain ⟨hlt, hdeclares, -⟩ := List.findIdx?_eq_some_iff_getElem.1 hdistance
    refine ⟨_, ?_, by simpa [Statement.declares] using hdeclares⟩
    exact Array.getElem?_eq_getElem _

/-! ## Rounds -/

/-- A round changes the table only by a declaration that takes effect. -/
theorem labels_of_round (hr : program.Round s t) :
    t.state.labels = s.labels ∨ ∃ label p, program.Declares s label p ∧
      t.state.labels = s.labels.insert label (p + 1) := by
  cases hr with
  | halted | ended | passed => exact .inl rfl
  | @executed statement i u hrunning hs hd ha =>
    have hi := instruction?_eq_some_iff.2 ⟨hrunning, statement, hs, hd⟩
    cases ha with
    | idle => exact .inl rfl
    | store _ hstore =>
      obtain ⟨index, -, rfl⟩ := State.set_eq_ok hstore
      exact .inl rfl
    | declareLocal _ hlocal =>
      obtain rfl := State.declareLocal_eq_ok hlocal
      exact .inl rfl
    | declareLabel label => exact .inr ⟨label, s.pc, .dispatched hi, rfl⟩
    | call _ hu =>
      obtain ⟨target, -, hu⟩ := State.goto_eq_ok hu
      exact .inl (by rw [hu]; rfl)
    | returnFromLabel hu =>
      obtain ⟨target, rest, -, hu⟩ := State.returnFromLabel_eq_ok hu
      refine .inl ?_
      rw [hu]
      cases program.config.scopedCalls with
      | false => rfl
      | true => exact State.labels_leaveScope s.fetched
    | @scan condition label _ hholds hu =>
      obtain ⟨distance, hdistance, hu⟩ := State.scanForward_eq_ok hu
      refine .inr ⟨label, _, .scanned hi hholds hdistance, ?_⟩
      rw [hu]
      rfl
    | halt => exact .inl rfl

/-- Every return address stands behind a statement that calls a label. -/
def ReturnsToCalls (program : Program) (s : State) : Prop :=
  ∀ address ∈ s.returns, ∃ p, address = p + 1 ∧ program.script.CallsAt p

theorem Calls.callsAt (h : program.Calls s label) : program.script.CallsAt s.pc := by
  obtain ⟨i, hi, hcalls⟩ := h
  obtain ⟨-, statement, hs, hd⟩ := instruction?_eq_some_iff.1 hi
  refine ⟨statement, hs, ?_⟩
  obtain rfl | ⟨condition, rfl, -⟩ := hcalls
  · exact .inl ⟨label, hd⟩
  · exact .inr ⟨condition, label, hd⟩

theorem ReturnsToCalls.round (h : program.ReturnsToCalls s) (hr : program.Round s t) :
    program.ReturnsToCalls t.state := by
  unfold ReturnsToCalls
  obtain ⟨hreturns, -⟩ | ⟨label, u, hcalls, hu, ht⟩ | ⟨u, -, hu, ht⟩ := control_of_round hr
  · rwa [hreturns]
  · obtain ⟨target, -, hu⟩ := State.goto_eq_ok hu
    rw [ht, hu]
    intro address ha
    obtain rfl | ha := List.mem_cons.1 ha
    · exact ⟨s.pc, rfl, hcalls.callsAt⟩
    · exact h address ha
  · obtain ⟨target, rest, hrest, hu⟩ := State.returnFromLabel_eq_ok hu
    change s.returns = target :: rest at hrest
    rw [ht, hu]
    intro address ha
    exact h address (by simp [hrest, ha])

section Machine

variable {η : Type} [Host η] {m : Machine η}

/-- A declaration that takes effect binds its label. -/
theorem labels_next_of_declares (h : program.Declares m.state label p) :
    (program.next m).state.labels = m.state.labels.insert label (p + 1) := by
  cases h with
  | dispatched hi =>
    have ht : (Instruction.declareLabel label).execute program m.state.fetched m.host =
      (.ok (m.state.fetched.declareLabel label), m.host) := rfl
    obtain ⟨m', hstep, hstate⟩ := exists_step_of_execute hi ht
    rw [next, hstep, Progress.machine, hstate]
    rfl
  | @scanned condition distance hi hholds hdistance =>
    cases ht : m.state.fetched.scanForward program.script label with
    | error fault => simp [State.scanForward, hdistance] at ht
    | ok t =>
      have hexecute : (Instruction.ifJump condition label .scan).execute program m.state.fetched
          m.host = (.ok t, m.host) := by
        simp [Instruction.execute, State.ifJump, hholds, bind, Except.bind, ht]
      obtain ⟨m', hstep, hstate⟩ := exists_step_of_execute hi hexecute
      obtain ⟨distance', hdistance', ht⟩ := State.scanForward_eq_ok ht
      obtain rfl : distance' = distance := Option.some.inj (hdistance'.symm.trans hdistance)
      rw [next, hstep, Progress.machine, hstate, ht]
      rfl

/-- A label that is in the table stays there. -/
theorem find?_next_ne_none (h : m.state.labels.find? label ≠ none) :
    (program.next m).state.labels.find? label ≠ none := by
  obtain ⟨t, hround, hstate, -⟩ := program.round_next m
  rw [hstate]
  obtain hkept | ⟨other, p, -, hinsert⟩ := labels_of_round hround
  · rwa [hkept]
  · rw [hinsert, LabelTable.find?_insert]
    split
    · simp
    · exact h

/-- A round in which no declaration of a label takes effect leaves the label as it is. -/
theorem find?_next_of_not_declares (h : ∀ p, ¬program.Declares m.state label p) :
    (program.next m).state.labels.find? label = m.state.labels.find? label := by
  obtain ⟨t, hround, hstate, -⟩ := program.round_next m
  rw [hstate]
  obtain hkept | ⟨other, p, hdeclares, hinsert⟩ := labels_of_round hround
  · rw [hkept]
  · have hne : label ≠ other := by
      rintro rfl
      exact h p hdeclares
    rw [hinsert, LabelTable.find?_insert, if_neg hne]

/-! ## Runs -/

/-- Of all declarations of `label` that take effect in the first `n` rounds, statement `p` is the
last. -/
def LastDeclared (program : Program) (m : Machine η) (n : Nat) (label : Int64) (p : Nat) : Prop :=
  ∃ j < n, program.Declares (program.next^[j] m).state label p ∧
    ∀ k, j < k → k < n → ∀ q, ¬program.Declares (program.next^[k] m).state label q

theorem LastDeclared.statement {n : Nat} (h : program.LastDeclared m n label p) :
    ∃ statement, program.script.statement? p = some statement ∧
      statement.tokens = [Opcode.declareLabel.code, label] := by
  obtain ⟨j, -, hp, -⟩ := h
  exact hp.statement

/-- The table of labels holds the address behind the last declaration of each label. -/
theorem find?_iterate_eq_some_iff (h : m.state.labels.find? label = none) (n address : Nat) :
    (program.next^[n] m).state.labels.find? label = some address ↔
      ∃ p, address = p + 1 ∧ program.LastDeclared m n label p := by
  induction n with
  | zero => simp [LastDeclared, h]
  | succ n ih =>
    rw [Function.iterate_succ_apply']
    by_cases hdeclares : ∃ p, program.Declares (program.next^[n] m).state label p
    · obtain ⟨p, hp⟩ := hdeclares
      rw [labels_next_of_declares hp, LabelTable.find?_insert, if_pos rfl, Option.some.injEq]
      constructor
      · rintro rfl
        exact ⟨p, rfl, n, Nat.lt_succ_self n, hp, fun k hnk hkn => by omega⟩
      · rintro ⟨q, rfl, j, hj, hq, hlast⟩
        obtain hlt | rfl := Nat.lt_succ_iff_lt_or_eq.1 hj
        · exact absurd hp (hlast n hlt (Nat.lt_succ_self n) p)
        · rw [hp.unique hq]
    · have hno : ∀ p, ¬program.Declares (program.next^[n] m).state label p := fun p hp =>
        hdeclares ⟨p, hp⟩
      rw [find?_next_of_not_declares hno, ih]
      refine exists_congr fun p => and_congr_right fun _ => ?_
      constructor
      · rintro ⟨j, hj, hp, hlast⟩
        refine ⟨j, Nat.lt_succ_of_lt hj, hp, fun k hjk hk => ?_⟩
        obtain hlt | rfl := Nat.lt_succ_iff_lt_or_eq.1 hk
        · exact hlast k hjk hlt
        · exact hno
      · rintro ⟨j, hj, hp, hlast⟩
        obtain hlt | rfl := Nat.lt_succ_iff_lt_or_eq.1 hj
        · exact ⟨j, hlt, hp, fun k hjk hk => hlast k hjk (Nat.lt_succ_of_lt hk)⟩
        · exact absurd hp (hno p)

/-- A label stays in the table once it is there. -/
theorem find?_iterate_ne_none {j n : Nat} (hjn : j ≤ n)
    (h : (program.next^[j] m).state.labels.find? label ≠ none) :
    (program.next^[n] m).state.labels.find? label ≠ none := by
  induction hjn with
  | refl => exact h
  | step _ ih =>
    rw [Function.iterate_succ_apply']
    exact find?_next_ne_none ih

/-- A label of which a declaration has taken effect in an earlier round is in the table. -/
theorem find?_iterate_of_declares {j n : Nat} (hjn : j < n)
    (h : program.Declares (program.next^[j] m).state label p) :
    (program.next^[n] m).state.labels.find? label ≠ none := by
  refine find?_iterate_ne_none (Nat.succ_le_of_lt hjn) ?_
  rw [Function.iterate_succ_apply', labels_next_of_declares h]
  simp

/-- A call of a label that is in the table succeeds. -/
theorem exists_step_of_find? (hcalls : program.Calls m.state label)
    (h : m.state.labels.find? label ≠ none) : ∃ m', program.step m = .running m' := by
  obtain ⟨target, htarget⟩ := Option.ne_none_iff_exists'.1 h
  cases ht : m.state.fetched.goto program.config label with
  | error fault =>
    have hfound : m.state.fetched.labelAddress label = some target := htarget
    simp [State.goto, hfound] at ht
  | ok t =>
    obtain ⟨m', hstep, -⟩ := exists_step_of_calls hcalls ht
    exact ⟨m', hstep⟩

/-- Where execution can continue, in all that runs of a fresh machine lead to.

The address of a label stands behind a statement that declares the label, namely behind the last
such statement that has been dispatched or that a forward scan has landed on. A return address
stands behind a statement that calls a label. A label stays in the table, so that a call of it
succeeds in every round after one in which a declaration of it has taken effect. -/
theorem jump_targets_genuine (program : Program) (host : η) (journal : Array Event) (n : Nat) :
    let machine (j : Nat) := program.next^[j] ({ host, journal } : Machine η)
    let labels (j : Nat) := (machine j).state.labels
    (∀ label address, (labels n).find? label = some address →
      1 ≤ address ∧ address ≤ program.script.size ∧
        (∃ statement, program.script.statement? (address - 1) = some statement ∧
          statement.tokens = [2, label]) ∧
        program.LastDeclared (machine 0) n label (address - 1)) ∧
    (∀ address ∈ (machine n).state.returns,
      1 ≤ address ∧ address ≤ program.script.size ∧ program.script.CallsAt (address - 1)) ∧
    (∀ j ≤ n, ∀ label, (labels j).find? label ≠ none → (labels n).find? label ≠ none) ∧
    ∀ j < n, ∀ label p, program.Declares (machine j).state label p →
      (labels n).find? label ≠ none ∧
        (program.Calls (machine n).state label →
          ∃ m', program.step (machine n) = .running m') := by
  intro machine labels
  refine ⟨fun label address h => ?_, fun address h => ?_, fun j hj label => ?_,
    fun j hj label p h => ?_⟩
  · obtain ⟨p, rfl, hlast⟩ := (find?_iterate_eq_some_iff rfl n address).1 h
    obtain ⟨statement, hs, htokens⟩ := hlast.statement
    exact ⟨Nat.le_add_left 1 p, Script.lt_size_of_statement? hs, ⟨statement, hs, htokens⟩, hlast⟩
  · have hreturns : program.ReturnsToCalls (machine n).state :=
      iterate_next_induction (fun _ _ => ReturnsToCalls.round) (by simp [ReturnsToCalls]) n
    obtain ⟨p, rfl, hcalls⟩ := hreturns address h
    have ⟨statement, hs, _⟩ := hcalls
    exact ⟨Nat.le_add_left 1 p, Script.lt_size_of_statement? hs, hcalls⟩
  · exact find?_iterate_ne_none hj
  · have hlabel := find?_iterate_of_declares hj h
    exact ⟨hlabel, fun hcalls => exists_step_of_find? hcalls hlabel⟩

end Machine

end Program

end IntScript
