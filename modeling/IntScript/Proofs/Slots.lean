import IntScript.Proofs.Resolution

/-!
# Slots and their addresses

The scopes do not overlap on the stack. Two addresses that stand for one slot are therefore found in
the same scope, at the same distance from its base, and are equal. A store is then seen under its
own address and under no other: stores and reads obey the laws of independent cells, however many
scopes the addresses have been passed through.
-/

namespace IntScript

namespace State

variable {script : Script} {s s' s₁ s₂ : State} {a b addr : Int64} {o p object : Object}

/-- Different addresses stand for different slots. -/
theorem WellFormed.eq_of_resolve (h : s.WellFormed script) {index : Nat}
    (ha : s.resolve a = .ok index) (hb : s.resolve b = .ok index) : a = b := by
  obtain ⟨k, base, hk, hindex, hscope⟩ := exists_scope_of_resolve ha
  obtain ⟨k', base', hk', hindex', hscope'⟩ := exists_scope_of_resolve hb
  obtain rfl : k = k' := h.scope_unique hk.isOpen hscope hk'.isOpen hscope'
  obtain rfl : base = base' := Option.some.inj (hk.isOpen.symm.trans hk'.isOpen)
  apply Int64.toInt_inj.1
  omega

/-! ## Stores -/

theorem set_of_resolve {index : Nat} (hr : s.resolve addr = .ok index) (object : Object) :
    s.set addr object = .ok { s with stack := s.stack.setIfInBounds index object } := by
  simp [State.set, hr]

theorem resolve_of_set (hs : s.set a o = .ok s') (addr : Int64) :
    s'.resolve addr = s.resolve addr := by
  obtain ⟨index, -, rfl⟩ := set_eq_ok hs
  apply resolve_congr
  · simp
  · rfl

/-- A store succeeds where a read does. -/
theorem WellFormed.exists_set_iff (h : s.WellFormed script) (addr : Int64) (object : Object) :
    (∃ s', s.set addr object = .ok s') ↔ ∃ found, s.get addr = .ok found := by
  cases hr : s.resolve addr with
  | error fault => simp [State.set, State.get, hr]
  | ok index =>
    obtain ⟨_, hget, hset⟩ := h.slot_of_resolve hr
    exact iff_of_true ⟨_, hset object⟩ ⟨_, hget⟩

/-- What a store leaves to be read: its object at its own address, and what was there before at all
others. -/
theorem WellFormed.get_of_set (h : s.WellFormed script) (hs : s.set a o = .ok s') (b : Int64) :
    s'.get b = if b = a then .ok o else s.get b := by
  have hresolve := resolve_of_set hs b
  obtain ⟨index, ha, rfl⟩ := set_eq_ok hs
  unfold State.get
  rw [hresolve]
  cases hb : s.resolve b with
  | error fault =>
    have hne : b ≠ a := by
      rintro rfl
      cases ha.symm.trans hb
    simp [hne]
  | ok index' =>
    by_cases heq : b = a
    · obtain rfl : index' = index := by
        rw [heq, ha] at hb
        exact (Except.ok.inj hb).symm
      simp [heq, h.resolve_lt ha]
    · have hne : index ≠ index' := by
        rintro rfl
        exact heq (h.eq_of_resolve hb ha)
      simp [heq, Array.getElem?_setIfInBounds_ne hne]

/-- Of two stores at one address the second counts. -/
theorem set_set (s : State) (addr : Int64) (o p : Object) :
    ((s.set addr o).bind fun s' => s'.set addr p) = s.set addr p := by
  cases hr : s.resolve addr with
  | error fault => simp [State.set, hr, Except.bind]
  | ok index =>
    have hs := set_of_resolve hr o
    have hr' := (resolve_of_set hs addr).trans hr
    rw [hs, set_of_resolve hr p, Except.bind, set_of_resolve hr' p]
    simp

/-- Storing what is there changes nothing. -/
theorem set_of_get (hg : s.get addr = .ok object) : s.set addr object = .ok s := by
  cases hr : s.resolve addr with
  | error fault => simp [State.get, hr] at hg
  | ok index =>
    have hslot : s.stack[index]? = some object := by
      cases hi : s.stack[index]? <;> simp_all [State.get]
    have hstack : s.stack.setIfInBounds index object = s.stack := by
      obtain ⟨hlt, rfl⟩ := Array.getElem?_eq_some_iff.1 hslot
      simp [Array.setIfInBounds, hlt]
    rw [set_of_resolve hr, hstack]

/-- Stores at different addresses commute. -/
theorem WellFormed.set_comm (h : s.WellFormed script) (hne : a ≠ b) (ha : s.set a o = .ok s₁)
    (hb : s.set b p = .ok s₂) : ∃ s', s₁.set b p = .ok s' ∧ s₂.set a o = .ok s' := by
  have hra := resolve_of_set hb a
  have hrb := resolve_of_set ha b
  obtain ⟨i, hi, rfl⟩ := set_eq_ok ha
  obtain ⟨j, hj, rfl⟩ := set_eq_ok hb
  have hij : i ≠ j := by
    rintro rfl
    exact hne (h.eq_of_resolve hi hj)
  refine ⟨_, set_of_resolve (hrb.trans hj) p, ?_⟩
  rw [set_of_resolve (hra.trans hi) o, Array.setIfInBounds_comm _ _ hij]

end State

namespace Machine

variable {η : Type} [Host η]

theorem perform_set_of_ok (program : Program) {m : Machine η} {addr : Int64} {object : Object}
    {s' : State} (hs : m.state.set addr object = .ok s') :
    m.perform program (.set addr object) = (.done, { m with state := s' }) := by
  simp [perform_eq, reaction, hs, Except.map, attempt]

/-- Slots do not alias, whatever operations have led to the state of a machine.

An address that stands for a slot is the only one that does. A store succeeds where a read does, and
replaces the object in one slot and nothing else of the machine. The object is read back at the
address of the store, and no read at another address can tell that the store took place. A second
store at the address takes the place of the first, storing what is read changes nothing, and stores
at different addresses commute. -/
theorem slots_do_not_alias (program : Program) (host : η) (journal : Array Event)
    (operations : List Operation) :
    let m := performAll program { host, journal } operations
    let s := m.state
    (∀ a b i j, a ≠ b → s.resolve a = .ok i → s.resolve b = .ok j → i ≠ j) ∧
      (∀ a o, (∃ s', s.set a o = .ok s') ↔ ∃ found, s.get a = .ok found) ∧
      (∀ a o s', s.set a o = .ok s' →
        m.perform program (.set a o) = (.done, { m with state := s' }) ∧
        (∃ i, ∃ hi : i < s.stack.size, s.resolve a = .ok i ∧
          s' = { s with stack := s.stack.set i o }) ∧
        s'.get a = .ok o ∧ ∀ b, b ≠ a → s'.get b = s.get b) ∧
      (∀ a o p, ((s.set a o).bind fun s' => s'.set a p) = s.set a p) ∧
      (∀ a o, s.get a = .ok o → s.set a o = .ok s) ∧
      (∀ a b o p s₁ s₂, a ≠ b → s.set a o = .ok s₁ → s.set b p = .ok s₂ →
        ∃ s', s₁.set b p = .ok s' ∧ s₂.set a o = .ok s') := by
  intro m s
  have hwf : s.WellFormed program.script :=
    wellFormed_performAll (State.WellFormed.empty program.script) operations
  refine ⟨?_, hwf.exists_set_iff, ?_, s.set_set, fun a o => State.set_of_get,
    fun a b o p s₁ s₂ => hwf.set_comm⟩
  · rintro a b i _ hne ha hb rfl
    exact hne (hwf.eq_of_resolve ha hb)
  · intro a o s' hs
    refine ⟨perform_set_of_ok program hs, ?_, ?_, fun b hb => ?_⟩
    · obtain ⟨i, hi, -⟩ := State.set_eq_ok hs
      obtain ⟨hlt, -, hset⟩ := hwf.slot_of_resolve hi
      exact ⟨i, hlt, hi, Except.ok.inj (hs.symm.trans (hset o))⟩
    · rw [hwf.get_of_set hs, if_pos rfl]
    · rw [hwf.get_of_set hs, if_neg hb]

end Machine

end IntScript
