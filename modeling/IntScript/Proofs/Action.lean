import IntScript.Machine.Operation

/-!
# Actions on a state

What each operation on a state comes to when it succeeds, and what an instruction that succeeds can
do: it acts in one of the eight ways of `Instruction.Action`. A property that all of them keep is
kept by every instruction, so that no later proof looks at the instructions one by one.
-/

namespace IntScript

section Except

variable {ε α β : Type}

theorem bind_eq_ok_iff {x : Except ε α} {f : α → Except ε β} {b : β} :
    x.bind f = .ok b ↔ ∃ a, x = .ok a ∧ f a = .ok b := by
  cases x <;> simp [Except.bind]

theorem map_eq_ok_iff {x : Except ε α} {f : α → β} {b : β} :
    x.map f = .ok b ↔ ∃ a, x = .ok a ∧ f a = b := by
  cases x <;> simp [Except.map]

end Except

/-! ## Operations -/

namespace State

variable {s s' : State} {t : Transition} {config : Config} {script : Script} {addr label : Int64}
  {object : Object}

/-- The state after the innermost scope is closed, or the same state if only the root is open. -/
def leaveScope (s : State) : State := (s.exitScope.map Transition.state).getD s

theorem set_eq_ok (h : s.set addr object = .ok s') :
    ∃ index, s.resolve addr = .ok index ∧
      s' = { s with stack := s.stack.setIfInBounds index object } := by
  cases hr : s.resolve addr with
  | error fault => simp [State.set, hr] at h
  | ok index =>
    simp only [State.set, hr, Except.ok.injEq] at h
    exact ⟨index, rfl, h.symm⟩

theorem declareLocal_eq_ok (h : s.declareLocal addr object = .ok s') :
    s' = { s with stack := s.stack.push object } := by
  unfold State.declareLocal at h
  split at h
  · split at h
    · exact (Except.ok.inj h).symm
    · cases h
  · cases h

theorem goto_eq_ok (h : s.goto config label = .ok t) :
    ∃ target, s.labels.find? label = some target ∧
      t.state = { s with
        pc := target
        returns := s.pc :: s.returns
        scopes := if config.scopedCalls then s.stack.size :: s.scopes else s.scopes } := by
  cases hl : s.labelAddress label with
  | none => simp [State.goto, hl] at h
  | some target =>
    refine ⟨target, hl, ?_⟩
    cases hc : config.scopedCalls <;>
      simp only [State.goto, hl, hc, Except.ok.injEq] at h <;> subst h <;> rfl

theorem returnFromLabel_eq_ok (h : s.returnFromLabel config = .ok t) :
    ∃ target rest, s.returns = target :: rest ∧
      t.state = { (if config.scopedCalls then s.leaveScope else s) with
        pc := target
        returns := rest } := by
  cases hr : s.returns with
  | nil => simp [State.returnFromLabel, hr] at h
  | cons target rest =>
    refine ⟨target, rest, rfl, ?_⟩
    simp only [State.returnFromLabel, hr, Except.ok.injEq] at h
    subst h
    cases config.scopedCalls with
    | false => rfl
    | true =>
      rcases hs : s.scopes with _ | ⟨base, _ | ⟨enclosing, outer⟩⟩ <;>
        simp [leaveScope, exitScope, hs]

theorem scanForward_eq_ok (h : s.scanForward script label = .ok t) :
    ∃ distance, s.distanceToLabel script label = some distance ∧
      t.state = { s with
        pc := s.pc + distance + 1
        labels := s.labels.insert label (s.pc + distance + 1) } := by
  cases hd : s.distanceToLabel script label with
  | none => simp [State.scanForward, hd] at h
  | some distance =>
    simp only [State.scanForward, hd, Except.ok.injEq] at h
    subst h
    exact ⟨distance, rfl, rfl⟩

end State

/-! ## Instructions -/

namespace Instruction

/-- Whether an instruction calls `label`, given that its condition, if it has one, is met. -/
def Calls (s : State) (label : Int64) (i : Instruction) : Prop :=
  i = .gotoLabel label ∨
    ∃ condition, i = .ifJump condition label .goto ∧ condition.holds s = .ok true

/-- Whether an instruction can halt the machine with `status`: an exit does so with the value of its
operand, and an input may. -/
def MayHalt (s : State) (status : Int64) (i : Instruction) : Prop :=
  (∃ operand, i = .exit operand ∧ operand.scalar s = .ok status) ∨
    ∃ dest format, i = .input dest format

/-- What an instruction that succeeds can do to a state. -/
inductive Action (program : Program) (s : State) : Instruction → Transition → Prop where
  | idle (i : Instruction) : Action program s i (.silent s)
  | store (i : Instruction) {addr : Int64} {object : Object} {s' : State} :
      s.set addr object = .ok s' → Action program s i (.silent s')
  | declareLocal (source : Operand Object) {addr : Int64} {object : Object} {s' : State} :
      s.declareLocal addr object = .ok s' →
      Action program s (.declareLocal addr source) (.silent s')
  | declareLabel (label : Int64) : Action program s (.declareLabel label) (s.declareLabel label)
  | call {i : Instruction} {label : Int64} {t : Transition} :
      i.Calls s label → s.goto program.config label = .ok t → Action program s i t
  | returnFromLabel {t : Transition} :
      s.returnFromLabel program.config = .ok t → Action program s .returnFromLabel t
  | scan {condition : Operand Int64} {label : Int64} {t : Transition} :
      condition.holds s = .ok true → s.scanForward program.script label = .ok t →
      Action program s (.ifJump condition label .scan) t
  | halt {i : Instruction} {status : Int64} :
      i.MayHalt s status → Action program s i (s.halt status)

variable {η : Type} [Host η] {program : Program} {s : State} {h h' : η} {t : Transition}

theorem action_of_ifJump {condition : Operand Int64} {label : Int64} {jump : Jump}
    (ht : s.ifJump program condition label jump = .ok t) :
    (ifJump condition label jump).Action program s t := by
  obtain ⟨met, hmet, ht⟩ := bind_eq_ok_iff.1 ht
  cases met with
  | false =>
    obtain rfl : Transition.silent s = t := by simpa [pure, Except.pure] using ht
    exact .idle _
  | true =>
    cases jump with
    | goto => exact .call (.inr ⟨condition, rfl, hmet⟩) (by simpa using ht)
    | scan => exact .scan hmet (by simpa using ht)

theorem action_of_receive {dest : Int64} {format : InputFormat} {line : Option ByteArray}
    (ht : s.receive dest format line = .ok t) : (input dest format).Action program s t := by
  cases line with
  | none =>
    obtain rfl := Except.ok.inj ht
    exact .halt (.inr ⟨dest, format, rfl⟩)
  | some bytes =>
    cases hr : format.read? bytes with
    | none =>
      obtain rfl : s.halt Status.invalidInput = t := by simpa [State.receive, hr] using ht
      exact .halt (.inr ⟨dest, format, rfl⟩)
    | some object =>
      obtain ⟨s', hs', rfl⟩ : ∃ s', s.set dest object = .ok s' ∧ .silent s' = t := by
        simpa [State.receive, hr, map_eq_ok_iff] using ht
      exact .store _ hs'

theorem state_eq_of_print {line : Except Fault String} (ht : s.print line h = (.ok t, h')) :
    t = .silent s := by
  cases line with
  | error fault => simp [State.print] at ht
  | ok line =>
    cases hw : Host.writeLine line h with
    | mk result h'' => cases result <;> simp_all [State.print]

/-- Every instruction that succeeds acts in one of the ways of `Action`. -/
theorem action_of_execute {i : Instruction} (ht : i.execute program s h = (.ok t, h')) :
    i.Action program s t := by
  cases i with
  | declareLocal addr source =>
    obtain ⟨object, -, ht⟩ := bind_eq_ok_iff.1 (congrArg Prod.fst ht)
    obtain ⟨s', hs', rfl⟩ := map_eq_ok_iff.1 ht
    exact .declareLocal source hs'
  | set addr source =>
    obtain ⟨object, -, ht⟩ := bind_eq_ok_iff.1 (congrArg Prod.fst ht)
    obtain ⟨s', hs', rfl⟩ := map_eq_ok_iff.1 ht
    exact .store _ hs'
  | declareLabel label =>
    obtain rfl := Except.ok.inj (congrArg Prod.fst ht)
    exact .declareLabel label
  | gotoLabel label => exact .call (.inl rfl) (congrArg Prod.fst ht)
  | returnFromLabel => exact .returnFromLabel (congrArg Prod.fst ht)
  | exit status =>
    obtain ⟨code, hcode, rfl⟩ := map_eq_ok_iff.1 (congrArg Prod.fst ht)
    exact .halt (.inl ⟨status, rfl, hcode⟩)
  | noOp =>
    obtain rfl := Except.ok.inj (congrArg Prod.fst ht)
    exact .idle _
  | sleep millis =>
    cases hm : millis.scalar s with
    | error fault => simp [execute, hm] at ht
    | ok n =>
      obtain ⟨rfl, -⟩ : Transition.silent s = t ∧ Host.sleep n.toInt.toNat h = h' := by
        simpa [execute, hm] using ht
      exact .idle _
  | print source | printString source =>
    rw [state_eq_of_print ht]
    exact .idle _
  | accessIndex index dest array =>
    obtain ⟨s', hs', rfl⟩ := map_eq_ok_iff.1 (congrArg Prod.fst ht)
    obtain ⟨i, -, hs'⟩ := bind_eq_ok_iff.1 hs'
    obtain ⟨values, -, hs'⟩ := bind_eq_ok_iff.1 hs'
    obtain ⟨element, -, hs'⟩ := bind_eq_ok_iff.1 hs'
    exact .store _ hs'
  | ifJump condition label jump => exact action_of_ifJump (congrArg Prod.fst ht)
  | input dest format =>
    cases hr : Host.readLine h with
    | mk result h'' =>
      cases result with
      | error reason => simp [execute, hr] at ht
      | ok line =>
        have hreceive : s.receive dest format line = .ok t := by
          simpa [execute, hr] using congrArg Prod.fst ht
        exact action_of_receive hreceive

end Instruction

end IntScript
