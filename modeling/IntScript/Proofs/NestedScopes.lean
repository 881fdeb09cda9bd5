import IntScript.Proofs.Address

/-!
# Nested scopes

An empty scope contains no address, so that opening one leaves every address where it was. A
declaration gives a new meaning to one address, the size of the innermost scope, whichever address
it names.

Between the opening and the closing of a scope, declarations, stores and the scopes opened and
closed in turn leave the bases of the scopes as they are and only add slots. Closing the scope takes
these slots away again, and with them every change of what an address stands for.
-/

namespace IntScript

/-- Declarations, stores, and scopes that are opened and closed around such operations. -/
inductive Operation.Balanced : List Operation → Prop where
  | nil : Balanced []
  | declareLocal (addr : Int64) (object : Object) {rest : List Operation} :
      Balanced rest → Balanced (.declareLocal addr object :: rest)
  | set (addr : Int64) (object : Object) {rest : List Operation} :
      Balanced rest → Balanced (.set addr object :: rest)
  | scope {inner rest : List Operation} :
      Balanced inner → Balanced rest → Balanced (.enterScope :: (inner ++ .exitScope :: rest))

namespace State

variable {script : Script} {s s' s'' : State}

/-! ## Opening a scope and declaring -/

theorem resolve_enterScope (s : State) (addr : Int64) :
    s.enterScope.state.resolve addr = s.resolve addr := by
  simp [resolve, enterScope, locate]

/-- A declaration changes what one address stands for. That address exists among the 64-bit integers
because the one that the declaration names is at least as large. -/
theorem WellFormed.exists_slot_push (h : s.WellFormed script) {addr : Int64}
    (haddr : (s.scopeSize : Int) ≤ addr.toInt) (object : Object) :
    ∃ slot : Int64, slot.toInt = s.scopeSize ∧
      resolve { s with stack := s.stack.push object } slot = .ok s.stack.size ∧
      State.get { s with stack := s.stack.push object } slot = .ok object ∧
      ∀ a, resolve { s with stack := s.stack.push object } a ≠ s.resolve a ↔ a = slot := by
  have hslot : (Int64.ofNat s.scopeSize).toInt = s.scopeSize := by
    have := addr.toInt_lt
    exact Int64.toInt_ofNat_of_lt (by omega)
  refine ⟨Int64.ofNat s.scopeSize, hslot, ?_, ?_, fun a => ?_⟩
  · rw [h.resolve_push, if_pos hslot]
  · rw [h.get_push, if_pos hslot]
  · rw [h.resolve_push]
    constructor
    · intro hchanged
      by_contra ha
      have hne : a.toInt ≠ s.scopeSize := fun heq => ha (Int64.toInt_inj.1 (heq.trans hslot.symm))
      exact hchanged (if_neg hne)
    · rintro rfl hsame
      rw [if_pos hslot] at hsame
      exact Nat.lt_irrefl _ (h.resolve_lt hsame.symm)

/-! ## Scopes that are closed again -/

/-- `s'` has the scopes of `s` and at least as many slots. -/
structure ExtendedBy (s s' : State) : Prop where
  scopes : s'.scopes = s.scopes
  size : s.stack.size ≤ s'.stack.size

theorem ExtendedBy.refl (s : State) : s.ExtendedBy s := ⟨rfl, Nat.le_refl _⟩

theorem ExtendedBy.trans (h : s.ExtendedBy s') (h' : s'.ExtendedBy s'') : s.ExtendedBy s'' :=
  ⟨h'.scopes.trans h.scopes, Nat.le_trans h.size h'.size⟩

theorem extendedBy_of_set {addr : Int64} {object : Object} (h : s.set addr object = .ok s') :
    s.ExtendedBy s' := by
  obtain ⟨index, -, rfl⟩ := set_eq_ok h
  exact ⟨rfl, by simp⟩

theorem extendedBy_of_declareLocal {addr : Int64} {object : Object}
    (h : s.declareLocal addr object = .ok s') : s.ExtendedBy s' := by
  obtain rfl := declareLocal_eq_ok h
  exact ⟨rfl, by simp⟩

/-- A scope that has only been extended since it was opened can be closed, which restores the scopes
and the height of the stack. -/
theorem ExtendedBy.exitScope (h : s.enterScope.state.ExtendedBy s') (hs : s.scopes ≠ []) :
    ∃ t, s'.exitScope = some t ∧ t.state.scopes = s.scopes ∧
      t.state.stack.size = s.stack.size := by
  obtain ⟨enclosing, outer, hs⟩ := List.exists_cons_of_ne_nil hs
  have hscopes : s'.scopes = s.stack.size :: enclosing :: outer := by
    rw [h.scopes, ← hs]
    rfl
  have hsize : s.stack.size ≤ s'.stack.size := h.size
  refine ⟨_, by rw [State.exitScope, hscopes], hs.symm, ?_⟩
  simp [hsize]

end State

namespace Machine

variable {η : Type} [Host η] {m m' : Machine η}

theorem performAll_append (program : Program) (m : Machine η) (first second : List Operation) :
    m.performAll program (first ++ second) =
      (m.performAll program first).performAll program second :=
  List.foldl_append

theorem perform_exitScope_of_extendedBy (program : Program)
    (h : m.state.enterScope.state.ExtendedBy m'.state) (hm : m.state.scopes ≠ []) :
    let r := m'.perform program .exitScope
    r.1 = .closed true ∧ r.2.state.scopes = m.state.scopes ∧
      r.2.state.stack.size = m.state.stack.size := by
  obtain ⟨t, ht, hscopes, hsize⟩ := h.exitScope hm
  simp [perform_eq, reaction, ht, follow, hscopes, hsize]

/-- Balanced operations keep the scopes and release no slot that was there before them. -/
theorem extendedBy_of_balanced (program : Program) {operations : List Operation}
    (h : Operation.Balanced operations) (hm : m.state.scopes ≠ []) :
    m.state.ExtendedBy (m.performAll program operations).state := by
  induction h generalizing m with
  | nil => exact .refl m.state
  | declareLocal addr object _ ih =>
    have hstep : m.state.ExtendedBy (m.perform program (.declareLocal addr object)).2.state := by
      rw [perform_eq]
      exact attempt_silent_induction (.refl m.state) fun s' => State.extendedBy_of_declareLocal
    exact hstep.trans (ih (by rwa [hstep.scopes]))
  | set addr object _ ih =>
    have hstep : m.state.ExtendedBy (m.perform program (.set addr object)).2.state := by
      rw [perform_eq]
      exact attempt_silent_induction (.refl m.state) fun s' => State.extendedBy_of_set
    exact hstep.trans (ih (by rwa [hstep.scopes]))
  | @scope inner rest _ _ ihInner ihRest =>
    let opened := (m.perform program .enterScope).2
    let before := opened.performAll program inner
    let closed := (before.perform program .exitScope).2
    have hopened : opened.state.scopes ≠ [] := List.cons_ne_nil _ _
    have hinner : m.state.enterScope.state.ExtendedBy before.state := ihInner hopened
    obtain ⟨-, hscopes, hsize⟩ := perform_exitScope_of_extendedBy program hinner hm
    have hclosed : m.state.ExtendedBy closed.state := ⟨hscopes, Nat.le_of_eq hsize.symm⟩
    have hall : m.performAll program (.enterScope :: (inner ++ .exitScope :: rest)) =
        closed.performAll program rest := performAll_append program opened inner _
    rw [hall]
    exact hclosed.trans (ihRest (by rwa [hscopes]))

/-- What the scope operations do to addresses, whatever operations have led to the state of a
machine.

Opening a scope changes the meaning of no address. A declaration succeeds exactly if the address it
names is at least the size of the innermost scope. It then adds its object on top of the stack and
changes the meaning of exactly one address, the size of the scope before it, at which the object is
found. Whatever balanced operations take place in a scope, closing it brings back the scopes, the
height of the stack and the meaning of every address from before it was opened. -/
theorem scope_operations_on_addresses (program : Program) (host : η) (journal : Array Event)
    (operations : List Operation) :
    let m := performAll program { host, journal } operations
    let s := m.state
    (∀ addr, (m.perform program .enterScope).2.state.resolve addr = s.resolve addr) ∧
      (∀ addr object,
        let r := m.perform program (.declareLocal addr object)
        (r.1 = .done ↔ (s.scopeSize : Int) ≤ addr.toInt) ∧
          (r.1 = .done → r.2.state = { s with stack := s.stack.push object } ∧
            ∃ slot : Int64, slot.toInt = s.scopeSize ∧ r.2.state.resolve slot = .ok s.stack.size ∧
              r.2.state.get slot = .ok object ∧
              ∀ a, r.2.state.resolve a ≠ s.resolve a ↔ a = slot)) ∧
      (∀ block, Operation.Balanced block →
        let r := (m.performAll program (.enterScope :: block)).perform program .exitScope
        r.1 = .closed true ∧ r.2.state.scopes = s.scopes ∧ r.2.state.stack.size = s.stack.size ∧
          ∀ addr, r.2.state.resolve addr = s.resolve addr) := by
  intro m s
  have hwf : s.WellFormed program.script :=
    wellFormed_performAll (State.WellFormed.empty program.script) operations
  refine ⟨s.resolve_enterScope, fun addr object => ?_, fun block hblock => ?_⟩
  · rw [perform_declareLocal]
    by_cases haddr : (s.scopeSize : Int) ≤ addr.toInt
    · rw [if_pos haddr]
      exact ⟨by simp [haddr], fun _ => ⟨rfl, hwf.exists_slot_push haddr object⟩⟩
    · rw [if_neg haddr]
      simp [haddr]
  · let opened := (m.perform program .enterScope).2
    have hopened : opened.state.scopes ≠ [] := List.cons_ne_nil _ _
    have hinside : s.enterScope.state.ExtendedBy (opened.performAll program block).state :=
      extendedBy_of_balanced program hblock hopened
    obtain ⟨hreply, hscopes, hsize⟩ :=
      perform_exitScope_of_extendedBy program hinside hwf.scopes_ne_nil
    exact ⟨hreply, hscopes, hsize, State.resolve_congr hsize hscopes⟩

/-- A machine with two slots in the root scope. -/
def twoSlots : Machine MemoryHost :=
  performAll { script := {} } { host := {} } [.declareLocal 0 (.int 1), .declareLocal 1 (.int 2)]

/-- Operations in a scope, which declare two slots and set the slot at address 1 of the scope around
it from an inner scope. -/
def innerStore : List Operation :=
  [.declareLocal 0 (.int 3), .enterScope, .declareLocal 7 (.int 4), .set 1 (.int 5), .exitScope,
    .declareLocal 1 (.int 6)]

theorem innerStore_scope_operations_on_addresses :
    let inside := twoSlots.performAll { script := {} } (.enterScope :: innerStore)
    let after := inside.perform { script := {} } .exitScope
    Operation.Balanced innerStore ∧
      (inside.perform { script := {} } (.resolve 1)).1 = .index 3 ∧
      ∀ addr, after.2.state.resolve addr = twoSlots.state.resolve addr := by
  have hbalanced : Operation.Balanced innerStore :=
    .declareLocal 0 (.int 3) (.scope (.declareLocal 7 (.int 4) (.set 1 (.int 5) .nil))
      (.declareLocal 1 (.int 6) .nil))
  have hrestored := (scope_operations_on_addresses { script := {} } ({} : MemoryHost) #[]
    [.declareLocal 0 (.int 1), .declareLocal 1 (.int 2)]).2.2 innerStore hbalanced
  exact ⟨hbalanced, by decide +kernel, hrestored.2.2.2⟩

end Machine

end IntScript
