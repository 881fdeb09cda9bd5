import IntScript.Proofs.Mirror

/-!
# Blank statements and statements without effect

A script may be rid of its blank statements and of its statements without operation. The statements
that stay keep their lines but move towards the front, so that every address in play is renumbered:
the program counter, the addresses of labels and the saved return addresses. A run of the shorter
script is a run of the longer one without the rounds of the statements left out.
-/

namespace IntScript

/-- Whether a statement is blank or asks for nothing. -/
def Statement.isIdle (s : Statement) : Bool :=
  s.tokens == [] || s.tokens == [Opcode.noOp.code]

namespace Script

/-- The script without its idle statements. -/
def compact (script : Script) : Script :=
  ⟨script.statements.filter fun s => !s.isIdle⟩

/-- Where a program counter stands in the compact script: behind the statements that stay. -/
def renumber (script : Script) (pc : Nat) : Nat :=
  (script.statements.toList.take pc).countP fun s => !s.isIdle

end Script

/-- The program without its idle statements. -/
def Program.compact (program : Program) : Program :=
  { program with script := program.script.compact }

/-! ## Lists with elements left out -/

section List

variable {α : Type} {p q : α → Bool}

theorem drop_countP_filter (l : List α) (n : Nat) :
    (l.filter p).drop ((l.take n).countP p) = (l.drop n).filter p := by
  have hsplit : l.filter p = (l.take n).filter p ++ (l.drop n).filter p := by
    rw [← List.filter_append, List.take_append_drop]
  rw [hsplit, List.countP_eq_length_filter, List.drop_left]

theorem findIdx?_filter (l : List α) (h : ∀ a, q a → p a) :
    (l.filter p).findIdx? q = (l.findIdx? q).map fun d => (l.take d).countP p := by
  induction l with
  | nil => rfl
  | cons a l ih =>
    by_cases hq : q a
    · simp [h a hq, List.findIdx?_cons, hq]
    · by_cases hp : p a
      · simp [hp, List.findIdx?_cons, hq, ih, Function.comp_def]
      · simp [hp, List.findIdx?_cons, hq, ih, Function.comp_def]

end List

/-! ## Statements of the compact script -/

theorem Statement.not_isIdle_of_declares {label : Int64} {s : Statement}
    (h : s.declares label = true) : s.isIdle = false := by
  have htokens : s.tokens = [Opcode.declareLabel.code, label] := by simpa [declares] using h
  simp [isIdle, htokens, Opcode.code]

namespace Script

variable {script : Script} {pc : Nat} {statement : Statement}

theorem toList_compact (script : Script) :
    script.compact.statements.toList = script.statements.toList.filter fun s => !s.isIdle := by
  simp [compact]

theorem statement?_eq_head? (script : Script) (pc : Nat) :
    script.statement? pc = (script.statements.toList.drop pc).head? := by
  simp [statement?, List.head?_drop]

theorem drop_renumber (script : Script) (pc : Nat) :
    script.compact.statements.toList.drop (script.renumber pc) =
      (script.statements.toList.drop pc).filter fun s => !s.isIdle := by
  rw [toList_compact, renumber, drop_countP_filter]

theorem statement?_compact_of_none (h : script.statement? pc = none) :
    script.compact.statement? (script.renumber pc) = none := by
  rw [statement?_eq_head?, List.head?_eq_none_iff] at h
  rw [statement?_eq_head?, drop_renumber, h]
  rfl

theorem statement?_compact_of_some (h : script.statement? pc = some statement)
    (hidle : statement.isIdle = false) :
    script.compact.statement? (script.renumber pc) = some statement := by
  rw [statement?_eq_head?] at h
  obtain ⟨rest, hrest⟩ := List.head?_eq_some_iff.1 h
  rw [statement?_eq_head?, drop_renumber, hrest]
  simp [hidle]

theorem renumber_succ (h : script.statement? pc = some statement) :
    script.renumber (pc + 1) = script.renumber pc + if statement.isIdle then 0 else 1 := by
  have hget : script.statements.toList[pc]? = some statement := by simpa [statement?] using h
  rw [renumber, List.take_add_one, hget, List.countP_append, renumber]
  cases hidle : statement.isIdle <;> simp [hidle]

theorem renumber_add (script : Script) (pc distance : Nat) :
    script.renumber (pc + distance) = script.renumber pc +
      ((script.statements.toList.drop pc).take distance).countP fun s => !s.isIdle := by
  rw [renumber, List.take_add, List.countP_append, renumber]

/-- A scan of the compact script finds the same declaration. -/
theorem distanceToLabel_compact (script : Script) (s t : State) (label : Int64)
    (hpc : t.pc = script.renumber s.pc) :
    t.distanceToLabel script.compact label =
      (s.distanceToLabel script label).map fun distance =>
        script.renumber (s.pc + distance) - script.renumber s.pc := by
  have hidle : ∀ a : Statement, a.declares label = true → (!a.isIdle) = true := fun a ha => by
    simp [Statement.not_isIdle_of_declares ha]
  rw [State.distanceToLabel, hpc, drop_renumber, findIdx?_filter _ hidle]
  simp only [renumber_add, Nat.add_sub_cancel_left]
  rfl

/-- Behind a declaration that a scan finds, the renumbering goes on without a gap. -/
theorem renumber_scan_target {s : State} {label : Int64} {distance : Nat}
    (h : s.distanceToLabel script label = some distance) :
    script.renumber (s.pc + distance + 1) = script.renumber (s.pc + distance) + 1 := by
  obtain ⟨hlt, hdeclares, -⟩ := List.findIdx?_eq_some_iff_getElem.1 h
  have hget : script.statement? (s.pc + distance) =
      some ((script.statements.toList.drop s.pc)[distance]) := by
    rw [statement?, ← Array.getElem?_toList, ← List.getElem?_drop]
    exact List.getElem?_eq_getElem hlt
  rw [renumber_succ hget, Statement.not_isIdle_of_declares hdeclares]
  rfl

end Script

/-! ## Renumbered states -/

namespace LabelTable

/-- The table with every address mapped. -/
def map (f : Nat → Nat) (t : LabelTable) : LabelTable :=
  ⟨t.entries.map fun entry => (entry.1, f entry.2)⟩

theorem find?_map (f : Nat → Nat) (t : LabelTable) (label : Int64) :
    (t.map f).find? label = (t.find? label).map f := by
  unfold find? map
  induction t.entries with
  | nil => rfl
  | cons entry rest ih =>
    obtain ⟨key, address⟩ := entry
    rw [List.map_cons, List.lookup_cons, List.lookup_cons, ih]
    cases label == key <;> rfl

theorem map_insert (f : Nat → Nat) (t : LabelTable) (label : Int64) (address : Nat) :
    (t.insert label address).map f = (t.map f).insert label (f address) := by
  unfold insert map
  congr 1
  induction t.entries with
  | nil => rfl
  | cons entry rest ih =>
    simp only [insertEntry, List.map_cons]
    split <;> simp_all

end LabelTable

namespace State

/-- The state with every address in the script mapped. -/
def renumber (f : Nat → Nat) (s : State) : State :=
  { s with pc := f s.pc, labels := s.labels.map f, returns := s.returns.map f }

variable {script : Script} {config : Config} (s : State)

theorem set_renumber (f : Nat → Nat) (addr : Int64) (object : Object) :
    (s.renumber f).set addr object = (s.set addr object).map (renumber f) := by
  have hr : (s.renumber f).resolve addr = s.resolve addr := rfl
  unfold State.set
  rw [hr]
  cases s.resolve addr <;> rfl

theorem declareLocal_renumber (f : Nat → Nat) (addr : Int64) (object : Object) :
    (s.renumber f).declareLocal addr object = (s.declareLocal addr object).map (renumber f) := by
  have hsize : (s.renumber f).scopeSize = s.scopeSize := rfl
  unfold State.declareLocal
  rw [hsize]
  cases addr.toInt.toNat? with
  | none => rfl
  | some offset => dsimp only; split <;> rfl

theorem goto_renumber (f : Nat → Nat) (label : Int64) :
    ((s.renumber f).goto config label).map Transition.state =
      ((s.goto config label).map Transition.state).map (renumber f) := by
  have hl : (s.renumber f).labelAddress label = (s.labelAddress label).map f :=
    LabelTable.find?_map f s.labels label
  unfold State.goto
  rw [hl]
  cases s.labelAddress label with
  | none => rfl
  | some target => cases config.scopedCalls <;> rfl

theorem returnFromLabel_renumber (f : Nat → Nat) :
    ((s.renumber f).returnFromLabel config).map Transition.state =
      ((s.returnFromLabel config).map Transition.state).map (renumber f) := by
  have hr : (s.renumber f).returns = s.returns.map f := rfl
  unfold State.returnFromLabel
  rw [hr]
  cases s.returns with
  | nil => rfl
  | cons target rest =>
    cases config.scopedCalls with
    | false => rfl
    | true =>
      rcases hs : s.scopes with _ | ⟨base, _ | ⟨enclosing, outer⟩⟩ <;>
        simp [exitScope, hs, renumber, Except.map]

theorem scanForward_renumber (label : Int64) :
    ((s.renumber script.renumber).scanForward script.compact label).map Transition.state =
      ((s.scanForward script label).map Transition.state).map (renumber script.renumber) := by
  have hd := script.distanceToLabel_compact s (s.renumber script.renumber) label rfl
  unfold State.scanForward
  rw [hd]
  cases hs : s.distanceToLabel script label with
  | none => rfl
  | some distance =>
    have htarget := Script.renumber_scan_target hs
    have hadd := script.renumber_add s.pc distance
    have hpc : (s.renumber script.renumber).pc +
        (script.renumber (s.pc + distance) - script.renumber s.pc) + 1 =
          script.renumber (s.pc + distance + 1) := by
      change script.renumber s.pc + _ + 1 = _
      omega
    simp only [Option.map_some, Except.map, hpc]
    simp [renumber, LabelTable.map_insert]

/-- Renumbering mirrors every state of a program in its compact form. -/
theorem mirrors_renumber (program : Program) :
    s.Mirrors program program.compact (renumber program.script.renumber) where
  get _ := rfl
  set := s.set_renumber _
  declareLabel label := by simp [declareLabel, renumber, LabelTable.map_insert]
  goto := s.goto_renumber _
  returnFromLabel := s.returnFromLabel_renumber _
  scanForward := s.scanForward_renumber
  halt _ := rfl

end State

/-! ## Runs of the compact script -/

namespace Program

variable {η : Type} [Host η]

/-- The next round dispatches an idle statement. -/
def AtIdle (program : Program) (s : State) : Prop :=
  s.running = true ∧
    ∃ statement, program.script.statement? s.pc = some statement ∧ statement.isIdle = true

theorem execute_of_isIdle (program : Program) {statement : Statement}
    (h : statement.isIdle = true) (s : State) (host : η) :
    program.execute statement.tokens s host = (.ok (.silent s), host) := by
  have htokens : statement.tokens = [] ∨ statement.tokens = [Opcode.noOp.code] := by
    simpa [Statement.isIdle] using h
  obtain htokens | htokens := htokens <;> rw [htokens] <;> rfl

/-- The second machine stands in the compact script where the first stands in the script. -/
abbrev CompactsTo (program : Program) (m₁ m₂ : Machine η) : Prop :=
  m₁.Mirrored (.renumber program.script.renumber) m₂

variable {program : Program} {m₁ m₂ : Machine η}

/-- The round of an idle statement is not seen in the compact script. -/
theorem step_of_atIdle (h : program.AtIdle m₁.state) :
    ∃ m, program.step m₁ = .running m ∧ m.state.pc = m₁.state.pc + 1 ∧
      ∀ m₂, program.CompactsTo m₁ m₂ → program.CompactsTo m m₂ := by
  obtain ⟨hrunning, statement, hs, hidle⟩ := h
  have hpc : program.script.renumber (m₁.state.pc + 1) = program.script.renumber m₁.state.pc := by
    simp [Script.renumber_succ hs, hidle]
  rw [step_of_fetched hrunning hs, dispatch_eq, execute_of_isIdle program hidle]
  refine ⟨_, rfl, rfl, fun m₂ hm => ⟨?_, hm.host⟩⟩
  rw [hm.state]
  simp [State.renumber, State.fetched, hpc]

theorem aligned_compact {s : State} (h : ¬ program.AtIdle s) :
    s.Aligned program program.compact (.renumber program.script.renumber) where
  running := rfl
  status := rfl
  stop := rfl
  statement hr := by
    cases hs : program.script.statement? s.pc with
    | none => exact Script.statement?_compact_of_none hs
    | some statement =>
      have hidle : statement.isIdle = false := by
        simpa using fun hidle => h ⟨hr, statement, hs, hidle⟩
      exact Script.statement?_compact_of_some hs hidle
  fetched hr statement hs := by
    have hidle : statement.isIdle = false := by
      simpa using fun hidle => h ⟨hr, statement, hs, hidle⟩
    simp [State.renumber, State.fetched, Script.renumber_succ hs, hidle]

/-- All other rounds are mirrored one by one. -/
theorem step_mirrored_compact (h : ¬ program.AtIdle m₁.state) (hm : program.CompactsTo m₁ m₂) :
    (program.step m₁).Mirrored (.renumber program.script.renumber) (program.compact.step m₂) :=
  hm.step (aligned_compact h) (State.mirrors_renumber _ program)
    fun _ _ addr _ _ => State.declareLocal_renumber _ _ addr

/-- Each outcome of the program is an outcome of its compact form. -/
theorem Ends.compact {m' : Machine η} {outcome : Outcome} (h : program.Ends m₁ outcome m')
    (hm : program.CompactsTo m₁ m₂) :
    ∃ m₂', program.compact.Ends m₂ outcome m₂' ∧ program.CompactsTo m' m₂' := by
  induction h generalizing m₂ with
  | @now m₁ m' outcome hs =>
    have hidle : ¬ program.AtIdle m₁.state := fun hidle => by
      obtain ⟨m, hstep, -⟩ := step_of_atIdle hidle
      cases hs.symm.trans hstep
    have hstep := step_mirrored_compact hidle hm
    rw [hs] at hstep
    generalize hc : program.compact.step m₂ = progress at hstep
    cases hstep with
    | ended _ hm' => exact ⟨_, .now hc, hm'⟩
  | @later m₁ m m' outcome hs _ ih =>
    by_cases hidle : program.AtIdle m₁.state
    · obtain ⟨m'', hstep, -, hm'⟩ := step_of_atIdle hidle
      cases hs.symm.trans hstep
      exact ih (hm' m₂ hm)
    · have hstep := step_mirrored_compact hidle hm
      rw [hs] at hstep
      generalize hc : program.compact.step m₂ = progress at hstep
      cases hstep with
      | running hm' =>
        obtain ⟨m₂', hends, hm'⟩ := ih hm'
        exact ⟨m₂', .later hc hends, hm'⟩

/-- A run leaves the idle statements in front of it behind after finitely many rounds. -/
theorem exists_awake (program : Program) (m₁ : Machine η) :
    ∃ m, ¬ program.AtIdle m.state ∧
      (∀ m₂, program.CompactsTo m₁ m₂ → program.CompactsTo m m₂) ∧
      ∀ outcome m', program.Ends m outcome m' → program.Ends m₁ outcome m' := by
  -- Each idle statement brings the program counter closer to the end of the script.
  induction hn : program.script.size - m₁.state.pc using Nat.strongRecOn generalizing m₁ with
  | ind n ih =>
    by_cases hidle : program.AtIdle m₁.state
    · obtain ⟨m, hstep, hpc, hmirror⟩ := step_of_atIdle hidle
      obtain ⟨-, statement, hs, -⟩ := hidle
      have hlt := Script.lt_size_of_statement? hs
      obtain ⟨m', hawake, hmirror', hends⟩ := ih _ (by omega) m rfl
      exact ⟨m', hawake, fun m₂ h => hmirror' m₂ (hmirror m₂ h),
        fun outcome m'' h => .later hstep (hends outcome m'' h)⟩
    · exact ⟨m₁, hidle, fun _ h => h, fun _ _ h => h⟩

/-- Each outcome of the compact form is an outcome of the program. -/
theorem Ends.of_compact {m' : Machine η} {outcome : Outcome}
    (h : program.compact.Ends m₂ outcome m')
    (hm : program.CompactsTo m₁ m₂) :
    ∃ m₁', program.Ends m₁ outcome m₁' := by
  induction h generalizing m₁ with
  | @now m₂ m' outcome hs =>
    obtain ⟨m, hawake, hmirror, hends⟩ := program.exists_awake m₁
    have hstep := step_mirrored_compact hawake (hmirror _ hm)
    rw [hs] at hstep
    generalize hc : program.step m = progress at hstep
    cases hstep with
    | ended => exact ⟨_, hends _ _ (.now hc)⟩
  | @later m₂ m₃ m' outcome hs _ ih =>
    obtain ⟨m, hawake, hmirror, hends⟩ := program.exists_awake m₁
    have hstep := step_mirrored_compact hawake (hmirror _ hm)
    rw [hs] at hstep
    generalize hc : program.step m = progress at hstep
    cases hstep with
    | running hm' =>
      obtain ⟨m₁', hends'⟩ := ih hm'
      exact ⟨m₁', hends _ _ (.later hc hends')⟩

/-- Idle statements are transparent. A run of a script from a fresh machine ends if and only if the
run of the compact script does, and then both have the same outcome, with the same line and tokens
if it is a fault, and leave the same host, slots, scopes and status. -/
theorem run_compact (program : Program) (host : η) (journal : Array Event) :
    ((∃ fuel outcome m, program.run fuel { host, journal } = (some outcome, m)) ↔
      ∃ fuel outcome m, program.compact.run fuel { host, journal } = (some outcome, m)) ∧
    ∀ fuel₁ fuel₂ outcome₁ outcome₂ m₁ m₂,
      program.run fuel₁ { host, journal } = (some outcome₁, m₁) →
      program.compact.run fuel₂ { host, journal } = (some outcome₂, m₂) →
      outcome₂ = outcome₁ ∧ m₂.host = m₁.host ∧ m₂.state.stack = m₁.state.stack ∧
        m₂.state.scopes = m₁.state.scopes ∧ m₂.state.running = m₁.state.running ∧
        m₂.state.status = m₁.state.status := by
  have hfresh : program.CompactsTo ({ host, journal } : Machine η) { host, journal } := ⟨rfl, rfl⟩
  refine ⟨⟨?_, ?_⟩, ?_⟩
  · rintro ⟨fuel, outcome, m, hrun⟩
    obtain ⟨m₂, hends, -⟩ := (ends_iff_exists_run.2 ⟨fuel, hrun⟩).compact hfresh
    obtain ⟨fuel₂, hrun₂⟩ := ends_iff_exists_run.1 hends
    exact ⟨fuel₂, outcome, m₂, hrun₂⟩
  · rintro ⟨fuel, outcome, m, hrun⟩
    obtain ⟨m₁, hends⟩ := (ends_iff_exists_run.2 ⟨fuel, hrun⟩).of_compact hfresh
    obtain ⟨fuel₁, hrun₁⟩ := ends_iff_exists_run.1 hends
    exact ⟨fuel₁, outcome, m₁, hrun₁⟩
  · intro fuel₁ fuel₂ outcome₁ outcome₂ m₁ m₂ hrun₁ hrun₂
    obtain ⟨m, hends, hm⟩ := (ends_iff_exists_run.2 ⟨fuel₁, hrun₁⟩).compact hfresh
    obtain ⟨rfl, rfl⟩ := hends.unique (ends_iff_exists_run.2 ⟨fuel₂, hrun₂⟩)
    rw [hm.state]
    exact ⟨rfl, hm.host, rfl, rfl, rfl, rfl⟩

end Program

end IntScript
