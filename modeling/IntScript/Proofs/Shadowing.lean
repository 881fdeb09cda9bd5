import IntScript.Proofs.Address
import Mathlib.Logic.Relation

/-!
# Shadowed slots

A step is an operation other than a run, or one round of a run. It leaves the slots and the scopes
as they are, stores into the slot of an address, adds a slot, opens a scope or closes one. While a
scope stays open, it therefore never shrinks, and the scopes around it keep their places. An address
it is large enough for is not looked up in the scopes around it, so that the slots they have at such
addresses cannot be written.
-/

namespace IntScript

namespace State

/-- What a step can do to the slots and the scopes. -/
inductive SlotEffect (s s' : State) : Prop where
  | unchanged : s'.stack = s.stack → s'.scopes = s.scopes → SlotEffect s s'
  | stored (addr : Int64) (object : Object) {index : Nat} :
      s.resolve addr = .ok index → s'.stack = s.stack.setIfInBounds index object →
      s'.scopes = s.scopes → SlotEffect s s'
  | declared (object : Object) :
      s'.stack = s.stack.push object → s'.scopes = s.scopes → SlotEffect s s'
  | entered : s'.stack = s.stack → s'.scopes = s.stack.size :: s.scopes → SlotEffect s s'
  | left {base : Nat} :
      s.scopes = base :: s'.scopes → s'.stack = s.stack.take base → SlotEffect s s'

section SlotEffect

variable {program : Program} {s s' : State} {t : Transition}

/-- The effect is on the stack and the scopes; the other fields are free. -/
theorem SlotEffect.congr {r r' : State} (h : s.SlotEffect s') (hstack : r.stack = s.stack)
    (hscopes : r.scopes = s.scopes) (hstack' : r'.stack = s'.stack)
    (hscopes' : r'.scopes = s'.scopes) : r.SlotEffect r' := by
  have hresolve (addr : Int64) : r.resolve addr = s.resolve addr :=
    resolve_congr (by rw [hstack]) hscopes addr
  cases h with
  | unchanged h₁ h₂ =>
    exact .unchanged (by rw [hstack', h₁, hstack]) (by rw [hscopes', h₂, hscopes])
  | stored addr object hr h₁ h₂ =>
    refine .stored addr object (by rw [hresolve, hr]) ?_ ?_
    · rw [hstack', h₁, hstack]
    · rw [hscopes', h₂, hscopes]
  | declared object h₁ h₂ =>
    exact .declared object (by rw [hstack', h₁, hstack]) (by rw [hscopes', h₂, hscopes])
  | entered h₁ h₂ =>
    exact .entered (by rw [hstack', h₁, hstack]) (by rw [hscopes', h₂, hscopes, hstack])
  | left h₁ h₂ => exact .left (by rw [hscopes, h₁, hscopes']) (by rw [hstack', h₂, hstack])

theorem slotEffect_of_set {addr : Int64} {object : Object} (h : s.set addr object = .ok s') :
    s.SlotEffect s' := by
  obtain ⟨index, hr, rfl⟩ := set_eq_ok h
  exact .stored addr object hr rfl rfl

theorem slotEffect_of_declareLocal {addr : Int64} {object : Object}
    (h : s.declareLocal addr object = .ok s') : s.SlotEffect s' := by
  obtain rfl := declareLocal_eq_ok h
  exact .declared object rfl rfl

theorem slotEffect_of_exitScope (h : s.exitScope = some t) : s.SlotEffect t.state := by
  unfold exitScope at h
  split at h
  next base enclosing outer hs =>
    obtain rfl := Option.some.inj h
    exact .left hs rfl
  next => cases h

theorem slotEffect_leaveScope (s : State) : s.SlotEffect s.leaveScope := by
  unfold leaveScope
  cases h : s.exitScope with
  | none => exact .unchanged rfl rfl
  | some t => exact slotEffect_of_exitScope h

theorem slotEffect_of_goto {config : Config} {label : Int64} (h : s.goto config label = .ok t) :
    s.SlotEffect t.state := by
  obtain ⟨target, -, h⟩ := goto_eq_ok h
  rw [h]
  cases config.scopedCalls with
  | false => exact .unchanged rfl rfl
  | true => exact .entered rfl rfl

theorem slotEffect_of_returnFromLabel {config : Config} (h : s.returnFromLabel config = .ok t) :
    s.SlotEffect t.state := by
  obtain ⟨target, rest, -, h⟩ := returnFromLabel_eq_ok h
  rw [h]
  cases config.scopedCalls with
  | false => exact .unchanged rfl rfl
  | true => exact (slotEffect_leaveScope s).congr rfl rfl rfl rfl

theorem slotEffect_of_scanForward {script : Script} {label : Int64}
    (h : s.scanForward script label = .ok t) : s.SlotEffect t.state := by
  obtain ⟨distance, -, h⟩ := scanForward_eq_ok h
  rw [h]
  exact .unchanged rfl rfl

theorem slotEffect_of_action {i : Instruction} (h : i.Action program s t) :
    s.SlotEffect t.state := by
  cases h with
  | idle => exact .unchanged rfl rfl
  | store _ hs => exact slotEffect_of_set hs
  | declareLocal _ hs => exact slotEffect_of_declareLocal hs
  | declareLabel => exact .unchanged rfl rfl
  | call _ ht => exact slotEffect_of_goto ht
  | returnFromLabel ht => exact slotEffect_of_returnFromLabel ht
  | scan _ ht => exact slotEffect_of_scanForward ht
  | halt => exact .unchanged rfl rfl

theorem slotEffect_of_round (h : program.Round s t) : s.SlotEffect t.state := by
  cases h with
  | halted | ended | passed => exact .unchanged rfl rfl
  | executed _ _ _ ha => exact (slotEffect_of_action ha).congr rfl rfl rfl rfl

end SlotEffect

/-! ## Scopes that stay open -/

variable {program : Program} {script : Script} {s s' : State} {i j : Nat}

theorem lt_scopeDepth_of_base? {k base : Nat} (h : s.base? k = some base) : k < s.scopeDepth := by
  simpa [scopeDepth] using (List.getElem?_eq_some_iff.1 h).1

theorem WellFormed.base?_le_size (h : s.WellFormed script) {k base : Nat}
    (hk : s.base? k = some base) : base ≤ s.stack.size :=
  h.base_le (List.mem_reverse.1 (List.mem_of_getElem? hk))

/-- A scope that is open before and after a step keeps its base and does not shrink. -/
theorem SlotEffect.scope (h : s.SlotEffect s') (hwf : s.WellFormed script) {k : Nat}
    (hk : k < s.scopeDepth) (hk' : k < s'.scopeDepth) :
    s'.base? k = s.base? k ∧ s.limit k ≤ s'.limit k := by
  unfold scopeDepth at hk hk'
  cases h with
  | unchanged hstack hscopes => simp [limit, base?, hstack, hscopes]
  | stored _ _ _ hstack hscopes => simp [limit, base?, hstack, hscopes]
  | declared object hstack hscopes =>
    refine ⟨by simp [base?, hscopes], ?_⟩
    simp only [limit, base?, hstack, hscopes, Array.size_push]
    cases s.scopes.reverse[k + 1]? <;> simp
  | entered hstack hscopes =>
    obtain ⟨hbase, hlimit⟩ := getElem?_reverse_cons s.stack.size s.stack.size hk
    refine ⟨by rw [base?, hscopes, hbase, base?], Nat.le_of_eq ?_⟩
    rw [limit, limit, base?, base?, hscopes, hstack, hlimit]
  | @left base hscopes hstack =>
    obtain ⟨hbase, hlimit⟩ := getElem?_reverse_cons base s.stack.size hk'
    have hsize : s'.stack.size = base := by
      have := hwf.base_le (show base ∈ s.scopes by simp [hscopes])
      simp [hstack, Nat.min_eq_left this]
    refine ⟨by rw [base?, base?, hscopes, hbase], Nat.le_of_eq ?_⟩
    rw [limit, limit, base?, base?, hscopes, hlimit, hsize]

/-- Slot `j` lies outside scope `i`, at an address that scope `i` is large enough for. -/
def Shadowed (s : State) (i j : Nat) : Prop :=
  ∃ base k outer, s.base? i = some base ∧ j < base ∧ s.base? k = some outer ∧ outer ≤ j ∧
    j < s.limit k ∧ j - outer < s.limit i - base

/-- No address stands for a slot that is shadowed. -/
theorem Shadowed.ne_of_resolve (h : s.Shadowed i j) (hwf : s.WellFormed script) {addr : Int64}
    {index : Nat} (hr : s.resolve addr = .ok index) : index ≠ j := by
  rintro rfl
  obtain ⟨base, k, outer, hi, hbase, hk, houter, hlimit, hsize⟩ := h
  obtain ⟨offset, k', outer', -, hk', hoffset, hinner, rfl⟩ := resolve_eq_ok_iff_scope.1 hr
  -- The slot lies in one scope only, which is therefore the one where the search ends.
  obtain rfl : k' = k := hwf.scope_unique hk' (by omega) hk ⟨houter, hlimit⟩
  obtain rfl : outer' = outer := Option.some.inj (hk'.symm.trans hk)
  -- Scope `i` is inside that scope and would have been found before it.
  have hik : k' < i := by
    obtain hlt | rfl | hlt := Nat.lt_trichotomy k' i
    · exact hlt
    · obtain rfl : outer' = base := Option.some.inj (hk.symm.trans hi)
      omega
    · have := hwf.limit_le_base hlt hk
      omega
  have := hinner i base hik hi
  omega

/-- A step after which scope `i` is still open does not change a slot that scope `i` shadows, and
leaves it shadowed. -/
theorem Shadowed.slotEffect (h : s.Shadowed i j) (hwf : s.WellFormed script)
    (he : s.SlotEffect s') (hopen : i < s'.scopeDepth) :
    s'.Shadowed i j ∧ s'.stack[j]? = s.stack[j]? := by
  have ⟨base, k, outer, hi, hbase, hk, houter, hlimit, hsize⟩ := h
  have hik : k ≤ i := by
    by_contra hlt
    have := hwf.limit_le_base (Nat.lt_of_not_le hlt) hk
    omega
  have hscope := he.scope hwf (lt_scopeDepth_of_base? hi) hopen
  have hscope' := he.scope hwf (lt_scopeDepth_of_base? hk) (by omega)
  refine ⟨⟨base, k, outer, hscope.1.trans hi, hbase, hscope'.1.trans hk, houter, by omega,
    by omega⟩, ?_⟩
  cases he with
  | unchanged hstack | entered hstack => rw [hstack]
  | stored addr object hr hstack =>
    rw [hstack, Array.getElem?_setIfInBounds_ne (h.ne_of_resolve hwf hr)]
  | declared object hstack =>
    have := hwf.base?_le_size hi
    rw [hstack, Array.getElem?_push, if_neg (by omega)]
  | @left released hscopes hstack =>
    -- The scope that is closed lies inside scope `i`.
    have hreleased : s.base? s'.scopeDepth = some released := by
      simp [State.base?, hscopes, scopeDepth]
    have := hwf.limit_le_base hopen hreleased
    have := hwf.base?_le_size hreleased
    rw [hstack, Array.take_eq_extract, Array.getElem?_extract, if_pos (by omega), Nat.zero_add]

end State

/-! ## Steps of a machine -/

namespace Machine

variable {η : Type} [Host η] {program : Program} {m m' : Machine η} {i j : Nat}

/-- One step of a machine: an operation other than a run, or one round of a run. A run amounts to a
number of rounds (`Program.exists_run_eq_iterate`). -/
inductive Step (program : Program) (m : Machine η) : Machine η → Prop where
  | operation (operation : Operation) : (∀ fuel, operation ≠ .run fuel) →
      Step program m (m.perform program operation).2
  | round : Step program m (program.next m)

theorem slotEffect_perform (operation : Operation) (hrun : ∀ fuel, operation ≠ .run fuel) :
    m.state.SlotEffect (m.perform program operation).2.state := by
  have hsame : m.state.SlotEffect m.state := .unchanged rfl rfl
  rw [perform_eq]
  cases operation with
  | declareLocal addr object =>
    exact attempt_silent_induction hsame fun s' => State.slotEffect_of_declareLocal
  | set addr object => exact attempt_silent_induction hsame fun s' => State.slotEffect_of_set
  | get | resolve => simpa [reaction, answer_eq] using hsame
  | enterScope => exact .entered rfl rfl
  | exitScope =>
    cases ht : m.state.exitScope with
    | none => simpa [reaction, ht] using hsame
    | some t => simpa [reaction, ht, follow] using State.slotEffect_of_exitScope ht
  | declareLabel => exact .unchanged rfl rfl
  | labelAddress => exact hsame
  | goto label => exact attempt_induction hsame fun t => State.slotEffect_of_goto
  | returnFromLabel => exact attempt_induction hsame fun t => State.slotEffect_of_returnFromLabel
  | scanForward label => exact attempt_induction hsame fun t => State.slotEffect_of_scanForward
  | run fuel => exact absurd rfl (hrun fuel)

theorem Step.slotEffect (h : m.Step program m') : m.state.SlotEffect m'.state := by
  cases h with
  | operation o ho => exact slotEffect_perform o ho
  | round =>
    obtain ⟨t, hround, hstate, -⟩ := program.round_next m
    rw [hstate]
    exact State.slotEffect_of_round hround

theorem Step.wellFormed (h : m.Step program m') (hwf : m.state.WellFormed program.script) :
    m'.state.WellFormed program.script := by
  cases h with
  | operation o _ => exact wellFormed_perform hwf o
  | round =>
    obtain ⟨t, hround, hstate, -⟩ := program.round_next m
    rw [hstate]
    exact hwf.round hround

/-- A sequence of steps throughout which scope `i` is open. -/
def StepsInside (program : Program) (i : Nat) : Machine η → Machine η → Prop :=
  Relation.ReflTransGen fun m m' => m.Step program m' ∧ i < m'.state.scopeDepth

theorem StepsInside.shadowed (h : StepsInside program i m m')
    (hwf : m.state.WellFormed program.script) (hj : m.state.Shadowed i j) :
    m'.state.WellFormed program.script ∧ m'.state.Shadowed i j ∧
      m'.state.stack[j]? = m.state.stack[j]? := by
  induction h with
  | refl => exact ⟨hwf, hj, rfl⟩
  | tail _ hstep ih =>
    obtain ⟨hstep, hopen⟩ := hstep
    obtain ⟨hwf₁, hj₁, hslot₁⟩ := ih
    obtain ⟨hj₂, hslot₂⟩ := hj₁.slotEffect hwf₁ hstep.slotEffect hopen
    exact ⟨hstep.wellFormed hwf₁, hj₂, hslot₂.trans hslot₁⟩

/-- Whatever operations have led to the state of a machine, a slot that an open scope shadows holds
its object for as long as the scope stays open: no sequence of operations and rounds of runs changes
it. -/
theorem shadowed_slot_frozen (program : Program) (host : η) (journal : Array Event)
    (operations : List Operation) {i j : Nat} {m' : Machine η} :
    let m := performAll program { host, journal } operations
    m.state.Shadowed i j → StepsInside program i m m' →
      ∃ object, m.state.stack[j]? = some object ∧ m'.state.stack[j]? = some object := by
  intro m hj hsteps
  have hwf : m.state.WellFormed program.script :=
    wellFormed_performAll (State.WellFormed.empty program.script) operations
  obtain ⟨-, -, hslot⟩ := hsteps.shadowed hwf hj
  obtain ⟨base, -, -, hi, hbase, -⟩ := hj
  have hlt : j < m.state.stack.size := Nat.lt_of_lt_of_le hbase (hwf.base?_le_size hi)
  rw [hslot]
  exact ⟨m.state.stack[j], by simp [hlt], by simp [hlt]⟩

/-- A script that sets addresses 0 and 1. -/
def setsTwo : Program where
  script := .ofRows [[1, 0, 0, 9], [1, 0, 1, 8]]

/-- A machine with two slots in the root scope, the first of which is shadowed. -/
def halfShadowed : Machine MemoryHost :=
  performAll setsTwo { host := {} }
    [.declareLocal 0 (.int 1), .declareLocal 1 (.int 2), .enterScope, .declareLocal 0 (.int 3)]

theorem halfShadowed_slot_frozen :
    halfShadowed.state.Shadowed 1 0 ∧ ∃ m', StepsInside setsTwo 1 halfShadowed m' ∧
      m'.state.stack[0]? = some (.int 1) ∧ m'.state.stack[1]? = some (.int 8) := by
  have hj : halfShadowed.state.Shadowed 1 0 := ⟨2, 0, 0, by decide⟩
  have hsteps : StepsInside setsTwo 1 halfShadowed _ :=
    ((((Relation.ReflTransGen.refl.tail
      ⟨.operation (.set 0 (.array [7])) (by simp), by decide⟩).tail
      ⟨.round, by decide +kernel⟩).tail
      ⟨.operation .enterScope (by simp), by decide +kernel⟩).tail
      ⟨.round, by decide +kernel⟩).tail
      ⟨.operation .exitScope (by simp), by decide +kernel⟩
  refine ⟨hj, _, hsteps, ?_, by decide +kernel⟩
  obtain ⟨object, hbefore, hafter⟩ :=
    shadowed_slot_frozen setsTwo ({} : MemoryHost) #[] _ hj hsteps
  rw [hafter, ← hbefore]
  decide +kernel

end Machine

end IntScript
