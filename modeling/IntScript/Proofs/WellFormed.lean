import IntScript.Proofs.Round

/-!
# Well-formed states

In a well-formed state the scopes lie inside one another on the stack, the root scope at the bottom,
and every address that execution can continue at lies in the script or right behind it. The empty
state is well formed, and every operation and every round of a run keep it so.

In a well-formed state no search for an address leaves the stack: the subtractions the search
computes do not go below zero, and the index it finds is the index of a slot.
-/

namespace IntScript

namespace State

structure WellFormed (script : Script) (s : State) : Prop where
  /-- The root scope is open and begins at zero. -/
  root : s.scopes.getLast? = some 0
  /-- No scope begins above the top of the stack or above a scope inside it. -/
  nested : (s.stack.size :: s.scopes).Pairwise (· ≥ ·)
  pc_le : s.pc ≤ script.size
  label_le : ∀ label address, s.labels.find? label = some address → address ≤ script.size
  return_le : ∀ address ∈ s.returns, address ≤ script.size

/-- The limit and the base of each scope, in the order in which a search for an address visits the
scopes. -/
def spans (s : State) : List (Nat × Nat) := (s.stack.size :: s.scopes).zip s.scopes

/-! ## Searching for an address -/

/-- A search goes through the spans until one is large enough. -/
theorem locate_eq_findSome? (offset limit : Nat) (bases : List Nat) :
    locate offset limit bases = ((limit :: bases).zip bases).findSome? fun (limit, base) =>
      if offset < limit - base then some (base + offset) else none := by
  induction bases generalizing limit with
  | nil => rfl
  | cons base outer ih =>
    rw [locate, List.zip_cons_cons, List.findSome?_cons]
    by_cases hspan : offset < limit - base
    · simp [hspan]
    · simp only [hspan, if_false]
      exact ih base

theorem base_le_limit {limit : Nat} {bases : List Nat}
    (h : (limit :: bases).Pairwise (· ≥ ·)) :
    ∀ span ∈ (limit :: bases).zip bases, span.2 ≤ span.1 := by
  induction bases generalizing limit with
  | nil => simp
  | cons base outer ih =>
    obtain ⟨hlimit, hbases⟩ := List.pairwise_cons.1 h
    intro span hspan
    rw [List.zip_cons_cons, List.mem_cons] at hspan
    obtain rfl | hspan := hspan
    · exact hlimit base List.mem_cons_self
    · exact ih hbases span hspan

theorem resolve_eq_ok_iff {s : State} {addr : Int64} {index : Nat} :
    s.resolve addr = .ok index ↔
      ∃ offset, addr.toInt.toNat? = some offset ∧
        locate offset s.stack.size s.scopes = some index := by
  cases ho : addr.toInt.toNat? with
  | none => simp [resolve, ho]
  | some offset => cases hl : locate offset s.stack.size s.scopes <;> simp [resolve, ho, hl]

/-- Every index that the search for an address can find is that of a slot. -/
def FindsSlots (s : State) : Prop := ∀ addr index, s.resolve addr = .ok index → index < s.stack.size

theorem FindsSlots.slot_of_resolve {s : State} (h : s.FindsSlots) {addr : Int64} {index : Nat}
    (hr : s.resolve addr = .ok index) :
    ∃ hi : index < s.stack.size, s.get addr = .ok s.stack[index] ∧
      ∀ object, s.set addr object = .ok { s with stack := s.stack.set index object } := by
  have hi := h addr index hr
  refine ⟨hi, ?_, fun object => ?_⟩
  · simp [State.get, hr, hi]
  · simp [State.set, hr, Array.setIfInBounds, hi]

theorem scan_target_le {script : Script} {s : State} {label : Int64} {distance : Nat}
    (hd : s.distanceToLabel script label = some distance) :
    s.pc + distance + 1 ≤ script.size := by
  have hlt := (List.findIdx?_eq_some_iff_findIdx_eq.1 hd).1
  rw [List.length_drop, Array.length_toList] at hlt
  unfold Script.size
  omega

namespace WellFormed

variable {script : Script} {program : Program} {s s' : State} {t : Transition}

theorem base_le (h : s.WellFormed script) {base : Nat} (hb : base ∈ s.scopes) :
    base ≤ s.stack.size :=
  (List.pairwise_cons.1 h.nested).1 base hb

theorem scopes_ne_nil (h : s.WellFormed script) : s.scopes ≠ [] := by
  intro hs
  simpa [hs] using h.root

/-- The innermost scope begins within the stack. -/
theorem head_le (h : s.WellFormed script) : s.scopes.headD 0 ≤ s.stack.size := by
  cases hs : s.scopes with
  | nil => exact absurd hs h.scopes_ne_nil
  | cons base outer => exact h.base_le (by simp [hs])

/-- No subtraction in a search for an address goes below zero. -/
theorem span_le (h : s.WellFormed script) : ∀ span ∈ s.spans, span.2 ≤ span.1 :=
  base_le_limit h.nested

theorem resolve_lt (h : s.WellFormed script) {addr : Int64} {index : Nat}
    (hr : s.resolve addr = .ok index) : index < s.stack.size := by
  obtain ⟨offset, -, hi⟩ := resolve_eq_ok_iff.1 hr
  rw [locate_eq_findSome?] at hi
  obtain ⟨⟨limit, base⟩, hspan, hfound⟩ := List.exists_of_findSome?_eq_some hi
  have hlimit : limit ≤ s.stack.size := by
    obtain hlimit | hlimit := List.mem_cons.1 (List.of_mem_zip hspan).1
    · exact Nat.le_of_eq hlimit
    · exact h.base_le hlimit
  dsimp only at hfound
  split at hfound
  · obtain rfl := Option.some.inj hfound
    omega
  · cases hfound

theorem findsSlots (h : s.WellFormed script) : s.FindsSlots := fun _ _ => h.resolve_lt

theorem slot_of_resolve (h : s.WellFormed script) {addr : Int64} {index : Nat}
    (hr : s.resolve addr = .ok index) :
    ∃ hi : index < s.stack.size, s.get addr = .ok s.stack[index] ∧
      ∀ object, s.set addr object = .ok { s with stack := s.stack.set index object } :=
  h.findsSlots.slot_of_resolve hr

/-! ## Operations -/

theorem empty (script : Script) : WellFormed script {} where
  root := rfl
  nested := by simp
  pc_le := Nat.zero_le _
  label_le := by simp
  return_le := by simp

theorem set (h : s.WellFormed script) {addr : Int64} {object : Object}
    (hs : s.set addr object = .ok s') : s'.WellFormed script := by
  obtain ⟨index, -, rfl⟩ := set_eq_ok hs
  exact { h with nested := by simpa using h.nested }

theorem declareLocal (h : s.WellFormed script) {addr : Int64} {object : Object}
    (hs : s.declareLocal addr object = .ok s') : s'.WellFormed script := by
  obtain rfl := declareLocal_eq_ok hs
  obtain ⟨htop, hscopes⟩ := List.pairwise_cons.1 h.nested
  refine { h with nested := List.pairwise_cons.2 ⟨fun base hb => ?_, hscopes⟩ }
  have := htop base hb
  simp only [Array.size_push]
  omega

theorem enterScope (h : s.WellFormed script) : s.enterScope.state.WellFormed script where
  root := by
    have := h.root
    cases hs : s.scopes <;> simp_all [State.enterScope]
  nested := by
    refine List.pairwise_cons.2 ⟨fun base hb => ?_, h.nested⟩
    obtain rfl | hb := List.mem_cons.1 hb
    · exact Nat.le_refl _
    · exact h.base_le hb
  pc_le := h.pc_le
  label_le := h.label_le
  return_le := h.return_le

theorem exitScope (h : s.WellFormed script) (ht : s.exitScope = some t) :
    t.state.WellFormed script := by
  unfold State.exitScope at ht
  split at ht
  next base enclosing outer hs =>
    obtain rfl := Option.some.inj ht
    have hnested := h.nested
    have hbase : base ≤ s.stack.size := h.base_le (by simp [hs])
    rw [hs] at hnested
    refine { h with root := ?_, nested := ?_ }
    · simpa [hs] using h.root
    · -- The released stack ends at the base of the closed scope.
      have hsize : (s.stack.take base).size = base := by simp [Nat.min_eq_left hbase]
      simpa [hsize] using (List.pairwise_cons.1 hnested).2
  next => cases ht

theorem leaveScope (h : s.WellFormed script) : s.leaveScope.WellFormed script := by
  unfold State.leaveScope
  cases ht : s.exitScope with
  | none => simpa using h
  | some t => simpa using h.exitScope ht

theorem declareLabel (h : s.WellFormed script) (label : Int64) :
    (s.declareLabel label).state.WellFormed script := by
  refine { h with label_le := ?_ }
  intro other address ha
  have hp := h.pc_le
  have hl := h.label_le other address
  simp only [State.declareLabel, LabelTable.find?_insert] at ha
  split at ha
  · obtain rfl := Option.some.inj ha
    exact hp
  · exact hl ha

theorem goto (h : s.WellFormed script) {config : Config} {label : Int64}
    (ht : s.goto config label = .ok t) : t.state.WellFormed script := by
  obtain ⟨target, hl, ht⟩ := goto_eq_ok ht
  have hreturns : ∀ address ∈ s.pc :: s.returns, address ≤ script.size := by
    simpa using ⟨h.pc_le, h.return_le⟩
  rw [ht]
  cases config.scopedCalls with
  | false => exact { h with pc_le := h.label_le label target hl, return_le := hreturns }
  | true => exact { h.enterScope with pc_le := h.label_le label target hl, return_le := hreturns }

theorem returnFromLabel (h : s.WellFormed script) {config : Config}
    (ht : s.returnFromLabel config = .ok t) : t.state.WellFormed script := by
  obtain ⟨target, rest, hr, ht⟩ := returnFromLabel_eq_ok ht
  have htarget : target ≤ script.size := h.return_le target (by simp [hr])
  have hrest : ∀ address ∈ rest, address ≤ script.size := fun address ha =>
    h.return_le address (by simp [hr, ha])
  rw [ht]
  cases config.scopedCalls with
  | false => exact { h with pc_le := htarget, return_le := hrest }
  | true => exact { h.leaveScope with pc_le := htarget, return_le := hrest }

theorem scanForward (h : s.WellFormed script) {label : Int64}
    (ht : s.scanForward script label = .ok t) : t.state.WellFormed script := by
  obtain ⟨distance, hd, ht⟩ := scanForward_eq_ok ht
  have htarget := scan_target_le hd
  rw [ht]
  refine { h with pc_le := htarget, label_le := ?_ }
  intro other address ha
  rw [LabelTable.find?_insert] at ha
  split at ha
  · obtain rfl := Option.some.inj ha
    exact htarget
  · exact h.label_le other address ha

theorem halt (h : s.WellFormed script) (status : Int64) :
    (s.halt status).state.WellFormed script := { h with }

theorem fetched (h : s.WellFormed script) {statement : Statement}
    (hs : script.statement? s.pc = some statement) : s.fetched.WellFormed script :=
  { h with pc_le := Script.lt_size_of_statement? hs }

/-! ## Runs -/

theorem action (h : s.WellFormed program.script) {i : Instruction} (ht : i.Action program s t) :
    t.state.WellFormed program.script := by
  cases ht with
  | idle => exact h
  | store _ hs => exact h.set hs
  | declareLocal _ hs => exact h.declareLocal hs
  | declareLabel label => exact h.declareLabel label
  | call _ ht => exact h.goto ht
  | returnFromLabel ht => exact h.returnFromLabel ht
  | scan _ ht => exact h.scanForward ht
  | halt => exact h.halt _

theorem round (h : s.WellFormed program.script) (ht : program.Round s t) :
    t.state.WellFormed program.script := by
  cases ht with
  | halted => exact h
  | ended => exact { h with }
  | passed _ hs => exact h.fetched hs
  | executed _ hs _ ha =>
    have hstate := (h.fetched hs).action ha
    exact hstate

end WellFormed

end State

namespace Machine

section Replies

variable {η : Type} {m : Machine η}

/-- A failed attempt leaves the state as it was. What holds of the state and of all it may change to
therefore holds after an attempt. -/
theorem attempt_induction {P : State → Prop} {result : Except Fault Transition} (h : P m.state)
    (hresult : ∀ t, result = .ok t → P t.state) : P (m.attempt result).2.state := by
  cases result with
  | error fault => exact h
  | ok t => exact hresult t rfl

theorem attempt_silent_induction {P : State → Prop} {result : Except Fault State} (h : P m.state)
    (hresult : ∀ s', result = .ok s' → P s') : P (m.attempt (result.map .silent)).2.state := by
  refine attempt_induction h fun t ht => ?_
  obtain ⟨s', hs', rfl⟩ := map_eq_ok_iff.1 ht
  exact hresult s' hs'

theorem answer_eq {α : Type} (reply : α → Reply) (result : Except Fault α) :
    (m.answer reply result).2 = m := by
  cases result <;> rfl

end Replies

variable {η : Type} [Host η]

/-- The machine after a sequence of operations. -/
def performAll (program : Program) (m : Machine η) (operations : List Operation) : Machine η :=
  operations.foldl (fun m operation => (m.perform program operation).2) m

theorem wellFormed_run {program : Program} {m : Machine η}
    (h : m.state.WellFormed program.script) (fuel : Nat) :
    (program.run fuel m).2.state.WellFormed program.script := by
  obtain ⟨n, hn, -⟩ := program.exists_run_eq_iterate fuel m
  rw [hn]
  exact Program.iterate_next_induction (fun _ _ hs ht => hs.round ht) h n

theorem wellFormed_perform {program : Program} {m : Machine η}
    (h : m.state.WellFormed program.script) (operation : Operation) :
    (m.perform program operation).2.state.WellFormed program.script := by
  rw [perform_eq]
  cases operation with
  | declareLocal addr object => exact attempt_silent_induction h fun s' hs' => h.declareLocal hs'
  | set addr object => exact attempt_silent_induction h fun s' hs' => h.set hs'
  | get | resolve => simpa [reaction, answer_eq] using h
  | enterScope => exact h.enterScope
  | exitScope =>
    cases ht : m.state.exitScope with
    | none => simpa [reaction, ht] using h
    | some t => simpa [reaction, ht, follow] using h.exitScope ht
  | declareLabel label => exact h.declareLabel label
  | labelAddress => exact h
  | goto label => exact attempt_induction h fun t ht => h.goto ht
  | returnFromLabel => exact attempt_induction h fun t ht => h.returnFromLabel ht
  | scanForward label => exact attempt_induction h fun t ht => h.scanForward ht
  | run fuel =>
    have hrun := wellFormed_run h fuel
    cases hr : program.run fuel m with
    | mk outcome? m' => cases outcome? <;> simpa [reaction, perform, hr] using hrun

theorem wellFormed_performAll {program : Program} {m : Machine η}
    (h : m.state.WellFormed program.script) (operations : List Operation) :
    (m.performAll program operations).state.WellFormed program.script := by
  induction operations generalizing m with
  | nil => exact h
  | cons operation operations ih => exact ih (wellFormed_perform h operation)

/-- Whatever operations a fresh machine has been asked for, failed ones and runs cut short after any
number of rounds included, its state is well formed. Hence a search for an address never subtracts
below zero and finds only slots, and neither a fetch nor a scan leaves the script. -/
theorem performAll_wellFormed (program : Program) (host : η) (journal : Array Event)
    (operations : List Operation) :
    let s := (performAll program { host, journal } operations).state
    s.WellFormed program.script ∧
      (∀ span ∈ s.spans, span.2 ≤ span.1) ∧
      s.scopes.headD 0 ≤ s.stack.size ∧
      (∀ addr index, s.resolve addr = .ok index → ∃ hi : index < s.stack.size,
        s.get addr = .ok s.stack[index] ∧
          ∀ object, s.set addr object = .ok { s with stack := s.stack.set index object }) ∧
      (∀ statement, program.script.statement? s.pc = some statement →
        s.pc + 1 ≤ program.script.size) ∧
      ∀ label distance, s.distanceToLabel program.script label = some distance →
        s.pc + distance + 1 ≤ program.script.size := by
  intro s
  have h : s.WellFormed program.script :=
    wellFormed_performAll (State.WellFormed.empty program.script) operations
  exact ⟨h, h.span_le, h.head_le, fun addr index => h.slot_of_resolve,
    fun statement => Script.lt_size_of_statement?,
    fun label distance => State.scan_target_le⟩

end Machine

end IntScript
