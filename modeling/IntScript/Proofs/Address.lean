import IntScript.Proofs.WellFormed

/-!
# Addresses

The scopes are numbered from the root, which has number zero. Scope `k` reaches from its base up to
its limit, which is the base of scope `k + 1` or the top of the stack. An address stands for a slot
of the innermost scope that is large enough for it.

A declaration adds a slot to the innermost scope, at the address that is the size of the scope so
far. It may name any larger address instead. It then succeeds all the same, although the object is
not found at the address it names, and it can be repeated.
-/

namespace IntScript

namespace State

/-- The base of scope `k`. -/
def base? (s : State) (k : Nat) : Option Nat := s.scopes.reverse[k]?

/-- Where scope `k` ends. -/
def limit (s : State) (k : Nat) : Nat := (s.base? (k + 1)).getD s.stack.size

/-! ## Searching for an address -/

/-- Seen from the root, a further base on the inside is the limit of the scope around it and changes
nothing else. -/
theorem getElem?_reverse_cons {k : Nat} {outer : List Nat} (base top : Nat)
    (hk : k < outer.length) :
    (base :: outer).reverse[k]? = outer.reverse[k]? ∧
      (base :: outer).reverse[k + 1]?.getD top = outer.reverse[k + 1]?.getD base := by
  rw [List.reverse_cons]
  refine ⟨List.getElem?_append_left (by simpa using hk), ?_⟩
  by_cases hlast : k + 1 < outer.length
  · rw [List.getElem?_append_left (by simpa using hlast)]
    simp [hlast]
  · have hlength : outer.length = k + 1 := by omega
    simp [hlength]

/-- Scope `k`, of those with the given bases, begins at `base` and is the innermost that contains
`offset`. -/
def InnermostFor (offset top : Nat) (bases : List Nat) (k base : Nat) : Prop :=
  bases.reverse[k]? = some base ∧ offset < bases.reverse[k + 1]?.getD top - base ∧
    ∀ j inner, k < j → bases.reverse[j]? = some inner →
      bases.reverse[j + 1]?.getD top - inner ≤ offset

/-- The innermost of all scopes is the one sought if it is large enough. Otherwise the one sought is
among the scopes around it. -/
theorem innermostFor_cons {offset top base k b : Nat} {outer : List Nat} :
    InnermostFor offset top (base :: outer) k b ↔
      if offset < top - base then k = outer.length ∧ b = base
      else InnermostFor offset base outer k b := by
  have hlast : (base :: outer).reverse[outer.length]? = some base := by simp
  have htop : (base :: outer).reverse[outer.length + 1]?.getD top = top := by simp
  have hle {j inner : Nat} (h : (base :: outer).reverse[j]? = some inner) : j ≤ outer.length := by
    simpa [Nat.lt_succ_iff] using (List.getElem?_eq_some_iff.1 h).1
  have hlt {j inner : Nat} (h : outer.reverse[j]? = some inner) : j < outer.length := by
    simpa using (List.getElem?_eq_some_iff.1 h).1
  split
  next hspan =>
    constructor
    · rintro ⟨hk, -, hinner⟩
      obtain hk' | rfl := Nat.lt_or_eq_of_le (hle hk)
      · have := hinner outer.length base hk' hlast
        omega
      · exact ⟨rfl, Option.some.inj (hk.symm.trans hlast)⟩
    · rintro ⟨rfl, rfl⟩
      refine ⟨hlast, by rwa [htop], fun j inner hj hinner => ?_⟩
      have := hle hinner
      omega
  next hspan =>
    constructor
    · rintro ⟨hk, hoffset, hinner⟩
      obtain hk' | rfl := Nat.lt_or_eq_of_le (hle hk)
      · obtain ⟨hbase, hlimit⟩ := getElem?_reverse_cons base top hk'
        refine ⟨by rwa [← hbase], by rwa [← hlimit], fun j inner hj hj' => ?_⟩
        obtain ⟨hbase', hlimit'⟩ := getElem?_reverse_cons base top (hlt hj')
        rw [← hlimit']
        exact hinner j inner hj (by rwa [hbase'])
      · rw [htop, Option.some.inj (hk.symm.trans hlast)] at hoffset
        exact absurd hoffset hspan
    · rintro ⟨hk, hoffset, hinner⟩
      obtain ⟨hbase, hlimit⟩ := getElem?_reverse_cons base top (hlt hk)
      refine ⟨by rwa [hbase], by rwa [hlimit], fun j inner hj hj' => ?_⟩
      obtain hj'' | rfl := Nat.lt_or_eq_of_le (hle hj')
      · obtain ⟨hbase', hlimit'⟩ := getElem?_reverse_cons base top hj''
        rw [hlimit']
        exact hinner j inner hj (by rwa [← hbase'])
      · rw [htop, Option.some.inj (hj'.symm.trans hlast)]
        omega

/-- The search finds the innermost scope that contains `offset`. -/
theorem locate_eq_some_iff {offset top index : Nat} {bases : List Nat} :
    locate offset top bases = some index ↔
      ∃ k base, InnermostFor offset top bases k base ∧ index = base + offset := by
  induction bases generalizing top with
  | nil => simp [locate, InnermostFor]
  | cons base outer ih =>
    simp only [locate, innermostFor_cons]
    split
    next =>
      rw [Option.some.injEq]
      constructor
      · rintro rfl
        exact ⟨outer.length, base, ⟨rfl, rfl⟩, rfl⟩
      · rintro ⟨_, _, ⟨rfl, rfl⟩, rfl⟩
        rfl
    next => exact ih

/-- An address stands for a slot of the innermost scope that is large enough for it. -/
theorem resolve_eq_ok_iff_scope {s : State} {addr : Int64} {index : Nat} :
    s.resolve addr = .ok index ↔
      ∃ offset k base, addr.toInt.toNat? = some offset ∧ s.base? k = some base ∧
        offset < s.limit k - base ∧
        (∀ j inner, k < j → s.base? j = some inner → s.limit j - inner ≤ offset) ∧
        index = base + offset := by
  rw [resolve_eq_ok_iff]
  constructor
  · rintro ⟨offset, ho, hl⟩
    obtain ⟨k, base, ⟨hk, hoffset, hinner⟩, hindex⟩ := locate_eq_some_iff.1 hl
    exact ⟨offset, k, base, ho, hk, hoffset, hinner, hindex⟩
  · rintro ⟨offset, k, base, ho, hk, hoffset, hinner, hindex⟩
    exact ⟨offset, ho, locate_eq_some_iff.2 ⟨k, base, ⟨hk, hoffset, hinner⟩, hindex⟩⟩

/-- The slot an address stands for depends only on the scopes and on the height of the stack. -/
theorem resolve_congr {s s' : State} (hsize : s'.stack.size = s.stack.size)
    (hscopes : s'.scopes = s.scopes) (addr : Int64) : s'.resolve addr = s.resolve addr := by
  unfold resolve
  rw [hsize, hscopes]

/-- A scope ends where the scopes inside it begin, or before. -/
theorem WellFormed.limit_le_base {script : Script} {s : State} (h : s.WellFormed script)
    {j k base : Nat} (hjk : j < k) (hk : s.base? k = some base) : s.limit j ≤ base := by
  have hbases : s.scopes.reverse.Pairwise (· ≤ ·) :=
    List.pairwise_reverse.2 (List.pairwise_cons.1 h.nested).2
  obtain ⟨hlt, rfl⟩ := List.getElem?_eq_some_iff.1 hk
  have hj : j + 1 < s.scopes.reverse.length := Nat.lt_of_le_of_lt hjk hlt
  have hlimit : s.limit j = s.scopes.reverse[j + 1] := by
    rw [limit, base?, List.getElem?_eq_getElem hj, Option.getD_some]
  rw [hlimit]
  obtain hjk | rfl := Nat.lt_or_eq_of_le (Nat.succ_le_of_lt hjk)
  · exact List.pairwise_iff_getElem.1 hbases _ _ _ hlt hjk
  · exact Nat.le_refl _

/-- A slot lies in one scope only. -/
theorem WellFormed.scope_unique {script : Script} {s : State} (h : s.WellFormed script)
    {k k' base base' index : Nat} (hk : s.base? k = some base)
    (hin : base ≤ index ∧ index < s.limit k) (hk' : s.base? k' = some base')
    (hin' : base' ≤ index ∧ index < s.limit k') : k = k' := by
  obtain hlt | heq | hlt := Nat.lt_trichotomy k k'
  · have := h.limit_le_base hlt hk'
    omega
  · exact heq
  · have := h.limit_le_base hlt hk
    omega

/-! ## Declarations -/

theorem declareLocal_eq_ite (s : State) (addr : Int64) (object : Object) :
    s.declareLocal addr object =
      if (s.scopeSize : Int) ≤ addr.toInt then .ok { s with stack := s.stack.push object }
      else .error (.symbolRedeclared addr) := by
  unfold State.declareLocal
  cases addr.toInt with
  | ofNat offset => simp [Int.toNat?]
  | negSucc offset =>
    have hneg : ¬(s.scopeSize : Int) ≤ Int.negSucc offset := by omega
    simp [Int.toNat?, hneg]

variable {script : Script} {s : State}

theorem WellFormed.scopeSize_push (h : s.WellFormed script) (object : Object) :
    scopeSize { s with stack := s.stack.push object } = s.scopeSize + 1 := by
  have hhead := h.head_le
  simp only [scopeSize, Array.size_push]
  omega

theorem locate_succ {offset top base : Nat} (outer : List Nat) (h : base ≤ top) :
    locate offset (top + 1) (base :: outer) =
      if offset = top - base then some top else locate offset top (base :: outer) := by
  simp only [locate]
  grind

/-- A new slot changes what one address stands for, the size of the innermost scope. -/
theorem WellFormed.resolve_push (h : s.WellFormed script) (object : Object) (addr : Int64) :
    resolve { s with stack := s.stack.push object } addr =
      if addr.toInt = s.scopeSize then .ok s.stack.size else s.resolve addr := by
  obtain ⟨base, outer, hscopes⟩ := List.exists_cons_of_ne_nil h.scopes_ne_nil
  have hbase : base ≤ s.stack.size := h.base_le (by simp [hscopes])
  have hsize : s.scopeSize = s.stack.size - base := by simp [scopeSize, hscopes]
  unfold resolve
  rw [hsize, hscopes]
  cases addr.toInt with
  | ofNat offset =>
    have hoffset : (Int.ofNat offset).toNat? = some offset := rfl
    rw [hoffset]
    simp only [Option.bind_some, Array.size_push, locate_succ outer hbase,
      Int.ofNat_eq_natCast, Int.natCast_inj]
    by_cases htop : offset = s.stack.size - base <;> simp [htop]
  | negSucc offset =>
    have hneg : ¬Int.negSucc offset = ((s.stack.size - base : Nat) : Int) := by omega
    simp [Int.toNat?, hneg]

/-- The object of a declaration is found at the address that was the size of the scope, and nothing
else is found anywhere it was not before. -/
theorem WellFormed.get_push (h : s.WellFormed script) (object : Object) (addr : Int64) :
    State.get { s with stack := s.stack.push object } addr =
      if addr.toInt = s.scopeSize then .ok object else s.get addr := by
  unfold State.get
  rw [h.resolve_push]
  by_cases htop : addr.toInt = s.scopeSize
  · simp [htop]
  · simp only [if_neg htop]
    cases hr : s.resolve addr with
    | error fault => rfl
    | ok index =>
      have hlt := h.resolve_lt hr
      simp [Array.getElem?_push, Nat.ne_of_lt hlt]

end State

namespace Machine

variable {η : Type} [Host η]

theorem perform_declareLocal (program : Program) (m : Machine η) (addr : Int64) (object : Object) :
    m.perform program (.declareLocal addr object) =
      if (m.state.scopeSize : Int) ≤ addr.toInt then
        (.done, { m with state := { m.state with stack := m.state.stack.push object } })
      else (.fault (.symbolRedeclared addr), m) := by
  rw [perform_eq, reaction, State.declareLocal_eq_ite]
  by_cases h : (m.state.scopeSize : Int) ≤ addr.toInt
  · simp [h, Except.map, attempt]
  · simp [h, Except.map, attempt]

theorem perform_get (program : Program) (m : Machine η) (addr : Int64) :
    m.perform program (.get addr) = m.answer .object (m.state.get addr) := m.perform_eq _ _

/-- A declared address is usable and taken exactly if it does not lie beyond the size of the scope.

The left side of the equivalence is what a declaration promises: if it succeeds, the object is found
at the address, and a second declaration of the address fails and leaves the machine as it is. A
declaration beyond the size of the scope succeeds and breaks both parts of the promise: at its
address is found what was found there before, and a second declaration succeeds. -/
theorem declared_address_usable_iff (program : Program) (host : η) (journal : Array Event)
    (operations : List Operation) (addr : Int64) (a b : Object) :
    let m := performAll program { host, journal } operations
    let r := m.perform program (.declareLocal addr a)
    (r.1 = .done ↔ (m.state.scopeSize : Int) ≤ addr.toInt) ∧
      ((r.1 = .done →
          r.2.perform program (.get addr) = (.object a, r.2) ∧
          r.2.perform program (.declareLocal addr b) = (.fault (.symbolRedeclared addr), r.2)) ↔
        addr.toInt ≤ m.state.scopeSize) ∧
      ((m.state.scopeSize : Int) < addr.toInt →
        r.2.state.get addr = m.state.get addr ∧
        (r.2.perform program (.declareLocal addr b)).1 = .done) := by
  intro m r
  have h : m.state.WellFormed program.script :=
    wellFormed_performAll (State.WellFormed.empty program.script) operations
  by_cases hle : (m.state.scopeSize : Int) ≤ addr.toInt
  · let m' : Machine η := { m with state := { m.state with stack := m.state.stack.push a } }
    have hr : r = (.done, m') := (perform_declareLocal program m addr a).trans (if_pos hle)
    have hget := h.get_push a addr
    have hsecond := perform_declareLocal program m' addr b
    rw [h.scopeSize_push] at hsecond
    rw [hr]
    by_cases heq : addr.toInt = m.state.scopeSize
    · rw [if_pos heq] at hget
      rw [if_neg (by omega)] at hsecond
      have hget' : m'.perform program (.get addr) = (.object a, m') := by
        rw [perform_get, hget, answer]
      exact ⟨by simp [hle], by simp [heq, hget', hsecond], fun hlt => by omega⟩
    · rw [if_neg heq] at hget
      rw [if_pos (by omega)] at hsecond
      refine ⟨by simp [hle], ?_, fun _ => ⟨hget, by rw [hsecond]⟩⟩
      have hgt : ¬addr.toInt ≤ m.state.scopeSize := by omega
      simp [hsecond, hgt]
  · have hr : r = (.fault (.symbolRedeclared addr), m) :=
      (perform_declareLocal program m addr a).trans (if_neg hle)
    rw [hr]
    exact ⟨by simp [hle], by simp; omega, fun hlt => by omega⟩

/-- In an empty scope a declaration at address 5 succeeds. There is no object at that address
afterwards, and the same declaration succeeds once more. -/
theorem declared_address_not_usable :
    let m : Machine MemoryHost := { host := {} }
    let r := m.perform { script := {} } (.declareLocal 5 (.int 1))
    r.1 = .done ∧
      (r.2.perform { script := {} } (.get 5)).1 = .fault (.symbolNotFound 5) ∧
      (r.2.perform { script := {} } (.declareLocal 5 (.int 2))).1 = .done := by
  decide

end Machine

end IntScript
