import IntScript.Proofs.Address

/-!
# Resolution of addresses

The search for an address visits the scopes from the innermost outwards, with the address unchanged.
It ends in the first scope that has more slots than the address counts. Such a scope is found exactly
if there is one at all, and the slot found lies in it.

The number of slots of a scope is the distance from its base to its limit. Distances are taken
between integers here, where nothing is cut off below zero.
-/

namespace IntScript

namespace State

/-- Scope `k` begins at `base`. It has more than `addr` slots, which no scope inside it has. -/
structure Innermost (s : State) (addr : Int64) (k base : Nat) : Prop where
  isOpen : s.base? k = some base
  large : addr.toInt < (s.limit k : Int) - base
  small : ∀ j inner, k < j → s.base? j = some inner → (s.limit j : Int) - inner ≤ addr.toInt

/-- Each base paired with the limit above it is a scope, counted from the root. -/
theorem mem_zip_bases_iff {top limit base : Nat} {bases : List Nat} :
    (limit, base) ∈ (top :: bases).zip bases ↔
      ∃ k, bases.reverse[k]? = some base ∧ bases.reverse[k + 1]?.getD top = limit := by
  induction bases generalizing top with
  | nil => simp
  | cons inner outer ih =>
    have hlast : (inner :: outer).reverse[outer.length]? = some inner := by simp
    have htop : (inner :: outer).reverse[outer.length + 1]?.getD top = top := by simp
    rw [List.zip_cons_cons, List.mem_cons, ih, Prod.mk.injEq]
    constructor
    · rintro (⟨rfl, rfl⟩ | ⟨k, hk, hlimit⟩)
      · exact ⟨outer.length, hlast, htop⟩
      · have hlt : k < outer.length := by simpa using (List.getElem?_eq_some_iff.1 hk).1
        obtain ⟨hbase, hnext⟩ := getElem?_reverse_cons inner top hlt
        exact ⟨k, hbase.trans hk, hnext.trans hlimit⟩
    · rintro ⟨k, hk, hlimit⟩
      have hle : k < outer.length + 1 := by simpa using (List.getElem?_eq_some_iff.1 hk).1
      obtain hlt | rfl := Nat.lt_succ_iff_lt_or_eq.1 hle
      · obtain ⟨hbase, hnext⟩ := getElem?_reverse_cons inner top hlt
        exact .inr ⟨k, hbase.symm.trans hk, hnext.symm.trans hlimit⟩
      · exact .inl ⟨hlimit.symm.trans htop, Option.some.inj (hk.symm.trans hlast)⟩

theorem mem_spans_iff {s : State} {limit base : Nat} :
    (limit, base) ∈ s.spans ↔ ∃ k, s.base? k = some base ∧ s.limit k = limit :=
  mem_zip_bases_iff

/-- The search fails exactly if no scope is large enough. -/
theorem locate_eq_none_iff {s : State} {offset : Nat} :
    locate offset s.stack.size s.scopes = none ↔
      ∀ k base, s.base? k = some base → s.limit k - base ≤ offset := by
  have hspans : locate offset s.stack.size s.scopes = none ↔
      ∀ span ∈ s.spans, span.1 - span.2 ≤ offset := by
    simp [locate_eq_findSome?, List.findSome?_eq_none_iff, spans]
  rw [hspans]
  constructor
  · intro h k base hk
    exact h (s.limit k, base) (mem_spans_iff.2 ⟨k, hk, rfl⟩)
  · rintro h ⟨limit, base⟩ hspan
    obtain ⟨k, hk, rfl⟩ := mem_spans_iff.1 hspan
    exact h k base hk

variable {s : State} {addr : Int64} {k base : Nat}

/-- The innermost scope that is large enough is determined by the address. -/
theorem Innermost.unique {k' base' : Nat} (h : s.Innermost addr k base)
    (h' : s.Innermost addr k' base') : k = k' ∧ base = base' := by
  have hk : k = k' := by
    obtain hlt | heq | hlt := Nat.lt_trichotomy k k'
    · have := h.small k' base' hlt h'.isOpen
      have := h'.large
      omega
    · exact heq
    · have := h'.small k base hlt h.isOpen
      have := h.large
      omega
  subst hk
  exact ⟨rfl, Option.some.inj (h.isOpen.symm.trans h'.isOpen)⟩

theorem resolve_of_neg (h : addr.toInt < 0) : s.resolve addr = .error (.symbolNotFound addr) := by
  have hnone : addr.toInt.toNat? = none := by
    refine Option.eq_none_iff_forall_ne_some.2 fun offset hoffset => ?_
    have := Int.mem_toNat?.1 hoffset
    omega
  simp [resolve, hnone]

/-- The search for an address finds the slot at its distance from the base of the innermost scope
that is large enough. -/
theorem resolve_eq_ok_iff_innermost {index : Nat} :
    s.resolve addr = .ok index ↔
      0 ≤ addr.toInt ∧ ∃ k base, s.Innermost addr k base ∧ (index : Int) = base + addr.toInt := by
  rw [resolve_eq_ok_iff_scope]
  constructor
  · rintro ⟨offset, k, base, hoffset, hk, hlarge, hsmall, rfl⟩
    have haddr : addr.toInt = offset := Int.mem_toNat?.1 hoffset
    refine ⟨by omega, k, base, ⟨hk, by omega, fun j inner hj hinner => ?_⟩, by omega⟩
    have := hsmall j inner hj hinner
    omega
  · rintro ⟨hpos, k, base, ⟨hk, hlarge, hsmall⟩, hindex⟩
    obtain ⟨offset, haddr⟩ := Int.eq_ofNat_of_zero_le hpos
    refine ⟨offset, k, base, Int.mem_toNat?.2 haddr, hk, by omega, fun j inner hj hinner => ?_,
      by omega⟩
    have := hsmall j inner hj hinner
    omega

/-- The slot found lies in the innermost scope that is large enough. -/
theorem exists_scope_of_resolve {index : Nat} (h : s.resolve addr = .ok index) :
    ∃ k base, s.Innermost addr k base ∧ (index : Int) = base + addr.toInt ∧
      base ≤ index ∧ index < s.limit k := by
  obtain ⟨hpos, k, base, hk, hindex⟩ := resolve_eq_ok_iff_innermost.1 h
  have hlarge := hk.large
  exact ⟨k, base, hk, hindex, by omega, by omega⟩

/-- The search for an address fails exactly if the address is negative or every scope is too
small. -/
theorem resolve_eq_error_iff :
    s.resolve addr = .error (.symbolNotFound addr) ↔
      addr.toInt < 0 ∨ ∀ k base, s.base? k = some base → (s.limit k : Int) - base ≤ addr.toInt := by
  obtain hneg | hpos := Int.lt_or_le addr.toInt 0
  · simp [resolve_of_neg hneg, hneg]
  · obtain ⟨offset, haddr⟩ := Int.eq_ofNat_of_zero_le hpos
    have hnone : s.resolve addr = .error (.symbolNotFound addr) ↔
        locate offset s.stack.size s.scopes = none := by
      have hoffset : addr.toInt.toNat? = some offset := Int.mem_toNat?.2 haddr
      cases hl : locate offset s.stack.size s.scopes <;> simp [resolve, hoffset, hl]
    rw [hnone, locate_eq_none_iff]
    constructor
    · intro h
      refine .inr fun k base hk => ?_
      have := h k base hk
      omega
    · rintro (hneg | h) k base hk
      · omega
      · have := h k base hk
        omega

theorem WellFormed.base_le_limit {script : Script} (h : s.WellFormed script)
    (hk : s.base? k = some base) : base ≤ s.limit k :=
  h.span_le (s.limit k, base) (mem_spans_iff.2 ⟨k, hk, rfl⟩)

end State

namespace Machine

variable {η : Type} [Host η]

/-- The search for an address, whatever operations have led to the state of a machine.

No scope ends below its base. The search succeeds exactly if the address is not negative and there
is an innermost scope that is large enough for it. There is at most one such scope, and the slot
lies in it, as far from its base as the address says. The search fails exactly if the address is
negative or every scope is too small. -/
theorem resolve_finds_innermost (program : Program) (host : η) (journal : Array Event)
    (operations : List Operation) (addr : Int64) :
    let s := (performAll program { host, journal } operations).state
    (∀ k base, s.base? k = some base → base ≤ s.limit k) ∧
      (∀ index, s.resolve addr = .ok index ↔
        0 ≤ addr.toInt ∧ ∃ k base, s.Innermost addr k base ∧ (index : Int) = base + addr.toInt) ∧
      (∀ k base k' base', s.Innermost addr k base → s.Innermost addr k' base' →
        k = k' ∧ base = base') ∧
      (∀ index k base, s.resolve addr = .ok index → s.Innermost addr k base →
        base ≤ index ∧ index < s.limit k) ∧
      (s.resolve addr = .error (.symbolNotFound addr) ↔
        addr.toInt < 0 ∨
          ∀ k base, s.base? k = some base → (s.limit k : Int) - base ≤ addr.toInt) := by
  intro s
  have hwf : s.WellFormed program.script :=
    wellFormed_performAll (State.WellFormed.empty program.script) operations
  refine ⟨fun k base => hwf.base_le_limit, fun index => State.resolve_eq_ok_iff_innermost,
    fun k base k' base' => State.Innermost.unique, fun index k base hr hk => ?_,
    State.resolve_eq_error_iff⟩
  obtain ⟨k', base', hk', -, hscope⟩ := State.exists_scope_of_resolve hr
  obtain ⟨rfl, rfl⟩ := hk'.unique hk
  exact hscope

-- The root scope has two slots, the scope inside it none and the innermost one. Address 1 is passed
-- on twice, and address 2 is too large for all three.
example :
    let m : Machine MemoryHost := performAll { script := {} } { host := {} }
      [.declareLocal 0 (.int 1), .declareLocal 1 (.int 2), .enterScope, .enterScope,
        .declareLocal 0 (.int 3)]
    [0, 1, 2].map (fun addr => (m.perform { script := {} } (.resolve addr)).1) =
      [.index 2, .index 1, .fault (.symbolNotFound 2)] := by
  decide

end Machine

end IntScript
