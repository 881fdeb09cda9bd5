import IntScript.Proofs.WellFormed

/-!
# Calls and returns

Only calls and returns change the saved return addresses and the scopes. A call adds to them on the
inside and a return takes away what the last open call has added, so that the state of the caller
lies unchanged under everything its callee does, at any depth of nested calls. The return that ends
the call finds it there.

Under scoped calls each open call has its scope. Otherwise the root scope is the only one, and an
address is the index of its slot.
-/

namespace IntScript

namespace Program

/-- The next round calls `label`. -/
def Calls (program : Program) (s : State) (label : Int64) : Prop :=
  ∃ i, program.instruction? s = some i ∧ i.Calls s.fetched label

variable {program : Program} {s : State} {t : Transition}

theorem control_of_action {i : Instruction} (ha : i.Action program s t) :
    (t.state.returns = s.returns ∧ t.state.scopes = s.scopes ∧
        s.stack.size ≤ t.state.stack.size) ∨
      (∃ label, i.Calls s label ∧ s.goto program.config label = .ok t) ∨
      (i = .returnFromLabel ∧ s.returnFromLabel program.config = .ok t) := by
  cases ha with
  | idle => exact .inl ⟨rfl, rfl, Nat.le_refl _⟩
  | store _ hs =>
    obtain ⟨index, -, rfl⟩ := State.set_eq_ok hs
    exact .inl ⟨rfl, rfl, by simp⟩
  | declareLocal _ hs =>
    obtain rfl := State.declareLocal_eq_ok hs
    exact .inl ⟨rfl, rfl, by simp⟩
  | declareLabel => exact .inl ⟨rfl, rfl, Nat.le_refl _⟩
  | call hi ht => exact .inr (.inl ⟨_, hi, ht⟩)
  | returnFromLabel ht => exact .inr (.inr ⟨rfl, ht⟩)
  | scan _ ht =>
    obtain ⟨distance, -, ht⟩ := State.scanForward_eq_ok ht
    rw [ht]
    exact .inl ⟨rfl, rfl, Nat.le_refl _⟩
  | halt => exact .inl ⟨rfl, rfl, Nat.le_refl _⟩

/-- A round that neither calls nor returns keeps the return addresses and the scopes, and releases
no slot. -/
theorem control_of_round (hr : program.Round s t) :
    (t.state.returns = s.returns ∧ t.state.scopes = s.scopes ∧
        s.stack.size ≤ t.state.stack.size) ∨
      (∃ label u, program.Calls s label ∧ s.fetched.goto program.config label = .ok u ∧
        t.state = u.state) ∨
      (∃ u, program.instruction? s = some .returnFromLabel ∧
        s.fetched.returnFromLabel program.config = .ok u ∧ t.state = u.state) := by
  cases hr with
  | halted | ended | passed => exact .inl ⟨rfl, rfl, Nat.le_refl _⟩
  | @executed statement i u hrunning hs hd ha =>
    have hi := instruction?_eq_some_iff.2 ⟨hrunning, statement, hs, hd⟩
    obtain hkept | ⟨label, hcall, hu⟩ | ⟨rfl, hu⟩ := control_of_action ha
    · exact .inl hkept
    · exact .inr (.inl ⟨label, u, ⟨i, hi, hcall⟩, hu, rfl⟩)
    · exact .inr (.inr ⟨u, hi, hu, rfl⟩)

end Program

namespace State

variable {program : Program} {config : Config} {c s : State} {t : Transition}

/-! ## Scopes of calls -/

theorem leaveScope_of_cons {base enclosing : Nat} {outer : List Nat}
    (h : s.scopes = base :: enclosing :: outer) :
    s.leaveScope = { s with stack := s.stack.take base, scopes := enclosing :: outer } := by
  simp [leaveScope, exitScope, h]

/-- Under scoped calls every open call has one scope inside the root. -/
theorem scopeDepth_of_round (hconfig : program.config.scopedCalls = true)
    (h : s.scopeDepth = s.returnDepth + 1) (hr : program.Round s t) :
    t.state.scopeDepth = t.state.returnDepth + 1 := by
  unfold scopeDepth returnDepth at *
  obtain ⟨hreturns, hscopes, -⟩ | ⟨label, u, -, hu, ht⟩ | ⟨u, -, hu, ht⟩ :=
    Program.control_of_round hr
  · rw [hreturns, hscopes, h]
  · obtain ⟨target, -, hu⟩ := goto_eq_ok hu
    rw [ht, hu]
    simp [hconfig, fetched, h]
  · obtain ⟨target, rest, hrest, hu⟩ := returnFromLabel_eq_ok hu
    change s.returns = target :: rest at hrest
    rw [hrest] at h
    -- A call is open, so there is a scope besides the root.
    obtain ⟨base, enclosing, outer, hscopes⟩ :
        ∃ base enclosing outer, s.fetched.scopes = base :: enclosing :: outer := by
      rcases hs : s.scopes with _ | ⟨base, _ | ⟨enclosing, outer⟩⟩
      · simp [hs] at h
      · simp [hs] at h
      · exact ⟨base, enclosing, outer, hs⟩
    rw [ht, hu, hconfig, if_pos rfl, leaveScope_of_cons hscopes]
    have hlength : s.scopes.length = outer.length + 2 := congrArg List.length hscopes
    simp only [List.length_cons] at h ⊢
    omega

/-- Without scoped calls the root scope stays the only one, and no slot is released. -/
theorem scopes_of_round (hconfig : program.config.scopedCalls = false) (h : s.scopes = [0])
    (hr : program.Round s t) : t.state.scopes = [0] ∧ s.stack.size ≤ t.state.stack.size := by
  obtain ⟨-, hscopes, hsize⟩ | ⟨label, u, -, hu, ht⟩ | ⟨u, -, hu, ht⟩ :=
    Program.control_of_round hr
  · exact ⟨hscopes.trans h, hsize⟩
  · obtain ⟨target, -, hu⟩ := goto_eq_ok hu
    rw [ht, hu]
    simp [hconfig, fetched, h]
  · obtain ⟨target, rest, -, hu⟩ := returnFromLabel_eq_ok hu
    rw [ht, hu]
    simp [hconfig, fetched, h]

/-- If the root scope is the only one, an address is the index of its slot. -/
theorem resolve_of_root (h : s.scopes = [0]) (addr : Int64) :
    s.resolve addr =
      if 0 ≤ addr.toInt ∧ addr.toInt < s.stack.size then .ok addr.toInt.toNat
      else .error (.symbolNotFound addr) := by
  unfold resolve
  rw [h]
  cases hi : addr.toInt with
  | ofNat offset =>
    have hoffset : (Int.ofNat offset).toNat? = some offset := rfl
    rw [hoffset]
    by_cases hlt : offset < s.stack.size <;> simp [locate, hlt]
  | negSucc offset => simp [Int.toNat?]

/-! ## The caller under its callee -/

/-- `s` lies inside the call that was made in `c`: what the callee and the calls in it have added
stands on top of what the call itself has added to the state of the caller. -/
def InCall (config : Config) (c s : State) : Prop :=
  ∃ inner bases, s.returns = inner ++ c.pc :: c.returns ∧
    (config.scopedCalls = true →
      s.scopes = bases ++ c.stack.size :: c.scopes ∧ bases.length = inner.length)

/-- The call made in `c` is over: execution continues in `c`, and under scoped calls exactly the
slots of the callee are gone. -/
structure BackIn (config : Config) (c s : State) : Prop where
  pc : s.pc = c.pc
  returns : s.returns = c.returns
  scopes : config.scopedCalls = true → s.scopes = c.scopes
  size : config.scopedCalls = true → s.stack.size = c.stack.size

theorem inCall_of_goto {label : Int64} (ht : c.goto config label = .ok t) :
    InCall config c t.state := by
  obtain ⟨target, -, ht⟩ := goto_eq_ok ht
  refine ⟨[], [], ?_, fun hconfig => ?_⟩ <;> rw [ht]
  · rfl
  · simp [hconfig]

theorem InCall.returnDepth_lt (h : InCall config c s) : c.returnDepth < s.returnDepth := by
  obtain ⟨inner, bases, hreturns, -⟩ := h
  unfold returnDepth
  rw [hreturns, List.length_append, List.length_cons]
  omega

theorem InCall.goto (h : InCall config c s) {label : Int64} (ht : s.goto config label = .ok t) :
    InCall config c t.state := by
  obtain ⟨inner, bases, hreturns, hscopes⟩ := h
  obtain ⟨target, -, ht⟩ := goto_eq_ok ht
  refine ⟨s.pc :: inner, s.stack.size :: bases, ?_, fun hconfig => ?_⟩ <;> rw [ht]
  · simp [hreturns]
  · obtain ⟨hscopes, hlength⟩ := hscopes hconfig
    simp [hconfig, hscopes, hlength]

theorem InCall.returnFromLabel (h : InCall config c s) (hc : c.scopes ≠ [])
    (hs : ∀ base ∈ s.scopes, base ≤ s.stack.size) (ht : s.returnFromLabel config = .ok t) :
    InCall config c t.state ∨ BackIn config c t.state := by
  obtain ⟨inner, bases, hreturns, hscopes⟩ := h
  obtain ⟨target, rest, hrest, ht⟩ := returnFromLabel_eq_ok ht
  rw [hreturns] at hrest
  obtain ⟨enclosing, outer, hc⟩ := List.exists_cons_of_ne_nil hc
  cases inner with
  | nil =>
    -- The return matches the call made in `c`.
    obtain ⟨rfl, rfl⟩ : c.pc = target ∧ c.returns = rest := by simpa using hrest
    refine .inr ?_
    cases hconfig : config.scopedCalls with
    | false => constructor <;> simp [ht, hconfig]
    | true =>
      obtain ⟨hscopes, hlength⟩ := hscopes hconfig
      obtain rfl := List.eq_nil_of_length_eq_zero hlength
      rw [List.nil_append, hc] at hscopes
      have hsize : c.stack.size ≤ s.stack.size := hs _ (by simp [hscopes])
      rw [hconfig, if_pos rfl, leaveScope_of_cons hscopes] at ht
      constructor <;> simp [ht, hc, hsize]
  | cons address inner =>
    -- The return matches a call made by the callee.
    obtain ⟨rfl, rfl⟩ : address = target ∧ inner ++ c.pc :: c.returns = rest := by
      simpa using hrest
    refine .inl ?_
    cases hconfig : config.scopedCalls with
    | false => exact ⟨inner, [], by rw [ht], by simp [hconfig]⟩
    | true =>
      obtain ⟨hscopes, hlength⟩ := hscopes hconfig
      obtain ⟨base, bases, rfl⟩ := List.exists_cons_of_length_eq_add_one hlength
      rw [hconfig, if_pos rfl] at ht
      refine ⟨inner, bases, by rw [ht], fun _ => ⟨?_, by simpa using hlength⟩⟩
      cases bases <;> rw [ht, leaveScope_of_cons hscopes] <;> rfl

/-- A round inside a call stays inside it, or is the return that ends it. -/
theorem InCall.round (h : InCall program.config c s) (hc : c.scopes ≠ [])
    (hs : s.WellFormed program.script) (hr : program.Round s t) :
    InCall program.config c t.state ∨
      (program.instruction? s = some .returnFromLabel ∧ BackIn program.config c t.state) := by
  have hfetched : InCall program.config c s.fetched := h
  obtain ⟨hreturns, hscopes, -⟩ | ⟨label, u, -, hu, ht⟩ | ⟨u, hi, hu, ht⟩ :=
    Program.control_of_round hr
  · refine .inl ?_
    unfold InCall
    rw [hreturns, hscopes]
    exact h
  · rw [ht]
    exact .inl (hfetched.goto hu)
  · rw [ht]
    exact (hfetched.returnFromLabel hc (fun _ => hs.base_le) hu).imp_right fun hback => ⟨hi, hback⟩

end State

namespace Program

variable {η : Type} [Host η] {program : Program}

/-- A call of a label that is in the table does not end the run. -/
theorem exists_step_of_calls {m : Machine η} {label : Int64} {t : Transition}
    (h : program.Calls m.state label) (ht : m.state.fetched.goto program.config label = .ok t) :
    ∃ m', program.step m = .running m' ∧ m'.state = t.state := by
  obtain ⟨i, hi, hcalls⟩ := h
  have hexecute : i.execute program m.state.fetched m.host = (.ok t, m.host) := by
    obtain rfl | ⟨condition, rfl, hholds⟩ := hcalls
    · simp [Instruction.execute, ht]
    · simp [Instruction.execute, State.ifJump, hholds, bind, Except.bind, ht]
  exact exists_step_of_execute hi hexecute

theorem next_of_calls {m : Machine η} {label : Int64} {t : Transition}
    (h : program.Calls m.state label) (ht : m.state.fetched.goto program.config label = .ok t) :
    (program.next m).state = t.state := by
  obtain ⟨m', hstep, hstate⟩ := exists_step_of_calls h ht
  rw [next, hstep, Progress.machine, hstate]

theorem wellFormed_iterate (program : Program) (host : η) (journal : Array Event) (n : Nat) :
    (program.next^[n] { host, journal }).state.WellFormed program.script :=
  iterate_next_induction (fun _ _ hs ht => hs.round ht) (State.WellFormed.empty program.script) n

/-- As long as the number of open calls stays above that of the caller, the run is in the call. -/
theorem inCall_iterate {c : State} {m : Machine η} (hc : c.scopes ≠ [])
    (h : State.InCall program.config c m.state)
    (hwf : ∀ j, (program.next^[j] m).state.WellFormed program.script) (k : Nat)
    (hdepth : ∀ j ≤ k, c.returnDepth < (program.next^[j] m).state.returnDepth) :
    State.InCall program.config c (program.next^[k] m).state := by
  induction k with
  | zero => exact h
  | succ k ih =>
    have hk := ih fun j hj => hdepth j (by omega)
    have habove := hdepth (k + 1) (Nat.le_refl _)
    obtain ⟨t, hround, hstate⟩ := program.exists_round_iterate m k
    rw [hstate] at habove ⊢
    obtain hin | ⟨-, hback⟩ := hk.round hc (hwf k) hround
    · exact hin
    · exact absurd habove (by simp [State.returnDepth, hback.returns])

/-- The first round after a call in which no more calls are open than before it is the return from
that call. -/
theorem backIn_of_calls {m : Machine η} {label : Int64} {t : Transition} {k : Nat}
    (hwf : ∀ j, (program.next^[j] m).state.WellFormed program.script)
    (hcalls : program.Calls m.state label)
    (ht : m.state.fetched.goto program.config label = .ok t)
    (hdepth : ∀ j ≤ k, m.state.fetched.returnDepth < (program.next^[j + 1] m).state.returnDepth)
    (hend : (program.next^[k + 2] m).state.returnDepth ≤ m.state.fetched.returnDepth) :
    program.instruction? (program.next^[k + 1] m).state = some .returnFromLabel ∧
      State.BackIn program.config m.state.fetched (program.next^[k + 2] m).state := by
  have hc : m.state.fetched.scopes ≠ [] := (hwf 0).scopes_ne_nil
  have hstart : State.InCall program.config m.state.fetched (program.next m).state := by
    rw [next_of_calls hcalls ht]
    exact State.inCall_of_goto ht
  have hinside : State.InCall program.config m.state.fetched (program.next^[k + 1] m).state :=
    inCall_iterate hc hstart (fun j => hwf (j + 1)) k hdepth
  obtain ⟨u, hround, hlast⟩ := program.exists_round_iterate m (k + 1)
  rw [hlast] at hend ⊢
  obtain hin | hback := hinside.round hc (hwf (k + 1)) hround
  · exact absurd hin.returnDepth_lt (by omega)
  · exact hback

/-- The discipline of calls and returns, over all that runs of a fresh machine lead to.

Let a round call a label, `s` being the state right before the jump. However the run goes on, the
round after which no more calls are open than in `s` is a return, and it leads back to `s`: to its
program counter and return addresses and, under scoped calls, to its scopes and to the height of its
stack. Under scoped calls there is one scope for each open call, besides the root. Without them the
root scope is the only one, no slot is ever released, and an address is the index of its slot. -/
theorem return_restores_caller (program : Program) (host : η) (journal : Array Event) :
    (∀ n k label t,
      let m := program.next^[n] { host, journal }
      let s := m.state.fetched
      let inside (j : Nat) := (program.next^[j + 1] m).state
      program.Calls m.state label → s.goto program.config label = .ok t →
      (∀ j ≤ k, s.returnDepth < (inside j).returnDepth) →
      (inside (k + 1)).returnDepth ≤ s.returnDepth →
      program.instruction? (inside k) = some .returnFromLabel ∧
        State.BackIn program.config s (inside (k + 1))) ∧
    (program.config.scopedCalls = true → ∀ n,
      let s := (program.next^[n] { host, journal }).state
      s.scopeDepth = s.returnDepth + 1) ∧
    (program.config.scopedCalls = false → ∀ n,
      let s := (program.next^[n] { host, journal }).state
      s.scopes = [0] ∧
        s.stack.size ≤ (program.next^[n + 1] { host, journal }).state.stack.size ∧
        ∀ addr, s.resolve addr =
          if 0 ≤ addr.toInt ∧ addr.toInt < s.stack.size then .ok addr.toInt.toNat
          else .error (.symbolNotFound addr)) := by
  refine ⟨fun n k label t hcalls ht hdepth hend => ?_, fun hconfig n => ?_, fun hconfig n => ?_⟩
  · refine backIn_of_calls (fun j => ?_) hcalls ht hdepth hend
    rw [← Function.iterate_add_apply]
    exact wellFormed_iterate program host journal (j + n)
  · exact iterate_next_induction (fun _ _ => State.scopeDepth_of_round hconfig) rfl n
  · have hroot (j : Nat) : (program.next^[j] { host, journal }).state.scopes = [0] :=
      iterate_next_induction (fun _ _ hs hr => (State.scopes_of_round hconfig hs hr).1) rfl j
    refine ⟨hroot n, ?_, State.resolve_of_root (hroot n)⟩
    obtain ⟨t, hround, hstate⟩ := program.exists_round_iterate { host, journal } n
    rw [hstate]
    exact (State.scopes_of_round hconfig (hroot n) hround).2

/-- A script whose last but one statement calls label 1. The callee declares a local and calls label
1 once more. -/
def nestedCalls : Program where
  script := .ofRows
    [[0, 0, 0, 1], [0, 0, 1, 1], [2, 1], [11, 3, 0, 9], [11, 3, 1, 8], [4], [2, 8], [1, 0, 1, 0],
      [0, 0, 0, 0], [3, 1], [4], [2, 9], [1, 0, 0, 0], [3, 1], [5, 0, 0]]
  config := { scopedCalls := true }

theorem nestedCalls_return_restores_caller :
    let m := nestedCalls.next^[5] ({ host := {} } : Machine MemoryHost)
    nestedCalls.Calls m.state 1 ∧
      (∀ j ≤ 8, m.state.fetched.returnDepth < (nestedCalls.next^[j + 1] m).state.returnDepth) ∧
      State.BackIn nestedCalls.config m.state.fetched (nestedCalls.next^[10] m).state := by
  intro m
  have hcalls : nestedCalls.Calls m.state 1 := ⟨.gotoLabel 1, by decide +kernel, .inl rfl⟩
  have hlabel : (m.state.fetched.goto nestedCalls.config 1).toBool = true := by decide +kernel
  have hdepth : ∀ j ≤ 8,
      m.state.fetched.returnDepth < (nestedCalls.next^[j + 1] m).state.returnDepth := by
    decide +kernel
  have hend : (nestedCalls.next^[10] m).state.returnDepth ≤ m.state.fetched.returnDepth := by
    decide +kernel
  cases ht : m.state.fetched.goto nestedCalls.config 1 with
  | error fault => simp [ht, Except.toBool] at hlabel
  | ok t =>
    have hback := (return_restores_caller nestedCalls ({} : MemoryHost) #[]).1 5 8 1 t hcalls ht
      hdepth hend
    exact ⟨hcalls, hdepth, hback.2⟩

end Program

end IntScript
