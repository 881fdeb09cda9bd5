import IntScript.Proofs.WellFormed

/-!
# Moves

Instructions and operations change a state by the same few moves. No move starts or stops the
machine or sets its status: only an instruction that halts and the end of the script do that. What
every move and every round of a run keep holds after any sequence of operations.
-/

namespace IntScript

/-- A change of the state that an operation can bring about, or an instruction that does not
halt. -/
inductive State.Move (program : Program) (s : State) : Transition → Prop where
  | idle : Move program s (.silent s)
  | store {addr : Int64} {object : Object} {s' : State} :
      s.set addr object = .ok s' → Move program s (.silent s')
  | declareLocal {addr : Int64} {object : Object} {s' : State} :
      s.declareLocal addr object = .ok s' → Move program s (.silent s')
  | declareLabel (label : Int64) : Move program s (s.declareLabel label)
  | goto {label : Int64} {t : Transition} :
      s.goto program.config label = .ok t → Move program s t
  | returnFromLabel {t : Transition} :
      s.returnFromLabel program.config = .ok t → Move program s t
  | scanForward {label : Int64} {t : Transition} :
      s.scanForward program.script label = .ok t → Move program s t
  | enterScope : Move program s s.enterScope
  | exitScope {t : Transition} : s.exitScope = some t → Move program s t

namespace State

variable {program : Program} {s : State} {t : Transition}

theorem running_leaveScope (s : State) :
    s.leaveScope.running = s.running ∧ s.leaveScope.status = s.status := by
  rcases hs : s.scopes with _ | ⟨base, _ | ⟨enclosing, outer⟩⟩ <;> simp [leaveScope, exitScope, hs]

/-- A move neither starts nor stops the machine and does not set its status. -/
theorem Move.running (h : s.Move program t) :
    t.state.running = s.running ∧ t.state.status = s.status := by
  cases h with
  | idle | declareLabel | enterScope => exact ⟨rfl, rfl⟩
  | store hs =>
    obtain ⟨index, -, rfl⟩ := set_eq_ok hs
    exact ⟨rfl, rfl⟩
  | declareLocal hs =>
    obtain rfl := declareLocal_eq_ok hs
    exact ⟨rfl, rfl⟩
  | goto ht =>
    obtain ⟨target, -, ht⟩ := goto_eq_ok ht
    exact ⟨by rw [ht], by rw [ht]⟩
  | returnFromLabel ht =>
    obtain ⟨target, rest, -, ht⟩ := returnFromLabel_eq_ok ht
    rw [ht]
    cases program.config.scopedCalls with
    | false => exact ⟨rfl, rfl⟩
    | true => exact running_leaveScope s
  | scanForward ht =>
    obtain ⟨distance, -, ht⟩ := scanForward_eq_ok ht
    exact ⟨by rw [ht], by rw [ht]⟩
  | exitScope ht =>
    have := running_leaveScope s
    rwa [leaveScope, ht] at this

/-- An instruction that succeeds makes a move or halts the machine. -/
theorem move_or_halt_of_action {i : Instruction} (h : i.Action program s t) :
    s.Move program t ∨ ∃ status, i.MayHalt s status ∧ t = s.halt status := by
  cases h with
  | idle => exact .inl .idle
  | store _ hs => exact .inl (.store hs)
  | declareLocal _ hs => exact .inl (.declareLocal hs)
  | declareLabel label => exact .inl (.declareLabel label)
  | call _ ht => exact .inl (.goto ht)
  | returnFromLabel ht => exact .inl (.returnFromLabel ht)
  | scan _ ht => exact .inl (.scanForward ht)
  | halt hi => exact .inr ⟨_, hi, rfl⟩

end State

namespace Machine

variable {η : Type} {program : Program} {m : Machine η}

/-- An operation that fails makes the move that changes nothing. -/
theorem attempt_eq_follow {result : Except Fault Transition}
    (h : ∀ t, result = .ok t → m.state.Move program t) :
    ∃ t, m.state.Move program t ∧ (m.attempt result).2 = m.follow t := by
  cases result with
  | error fault => exact ⟨_, .idle, (m.follow_silent m.state).symm⟩
  | ok t => exact ⟨t, h t rfl, rfl⟩

variable [Host η]

/-- Every operation other than a run makes one move. -/
theorem perform_cases (program : Program) (m : Machine η) (operation : Operation) :
    (∃ fuel, operation = .run fuel) ∨
      ∃ t, m.state.Move program t ∧ (m.perform program operation).2 = m.follow t := by
  rw [perform_eq]
  cases operation with
  | run fuel => exact .inl ⟨fuel, rfl⟩
  | declareLocal addr object =>
    refine .inr (attempt_eq_follow fun t ht => ?_)
    obtain ⟨s', hs', rfl⟩ := map_eq_ok_iff.1 ht
    exact .declareLocal hs'
  | set addr object =>
    refine .inr (attempt_eq_follow fun t ht => ?_)
    obtain ⟨s', hs', rfl⟩ := map_eq_ok_iff.1 ht
    exact .store hs'
  | get | resolve => exact .inr ⟨_, .idle, (answer_eq _ _).trans (m.follow_silent m.state).symm⟩
  | enterScope => exact .inr ⟨_, .enterScope, rfl⟩
  | exitScope =>
    cases ht : m.state.exitScope with
    | none => exact .inr ⟨_, .idle, by simp [reaction, ht]⟩
    | some t => exact .inr ⟨t, .exitScope ht, by simp [reaction, ht]⟩
  | declareLabel label => exact .inr ⟨_, .declareLabel label, rfl⟩
  | labelAddress => exact .inr ⟨_, .idle, (m.follow_silent m.state).symm⟩
  | goto label => exact .inr (attempt_eq_follow fun t => .goto)
  | returnFromLabel => exact .inr (attempt_eq_follow fun t => .returnFromLabel)
  | scanForward label => exact .inr (attempt_eq_follow fun t => .scanForward)

theorem perform_run (fuel : Nat) :
    (m.perform program (.run fuel)).2 = (program.run fuel m).2 := by
  cases hr : program.run fuel m with
  | mk outcome? m' => cases outcome? <;> simp [perform, hr]

/-- What every move and every round keep holds after any sequence of operations, runs cut short
after any number of rounds included. -/
theorem performAll_induction {P : Machine η → Prop}
    (hmove : ∀ m t, P m → m.state.Move program t → P (m.follow t))
    (hround : ∀ m, P m → P (program.next m)) (h : P m) (operations : List Operation) :
    P (m.performAll program operations) := by
  induction operations generalizing m with
  | nil => exact h
  | cons operation operations ih =>
    have hperform : P (m.perform program operation).2 := by
      obtain ⟨fuel, rfl⟩ | ⟨t, ht, hm⟩ := perform_cases program m operation
      · obtain ⟨n, hn, -⟩ := program.exists_run_eq_iterate fuel m
        rw [perform_run, hn]
        exact Function.Iterate.rec P h hround n
      · rw [hm]
        exact hmove m t h ht
    exact ih hperform

end Machine

end IntScript
