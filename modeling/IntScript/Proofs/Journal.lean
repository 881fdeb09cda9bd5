import IntScript.Proofs.Failure
import IntScript.Proofs.Move

/-!
# The journal as a record of control

The journal of a machine tells its control state: the labels, the return addresses and the scopes.
Replaying the events one after another, with the control state of an empty machine at the start,
leads to the control state the machine is in. The replay also compares what an event says with what
it finds, and no event of a journal is ever refused.

The status of a machine is the one of the last event of halting, and an event of a finished run
tells that the machine has halted.
-/

namespace IntScript

/-- What a machine knows about where execution goes. -/
structure Control where
  labels : LabelTable := {}
  returns : List Nat := []
  scopes : List Nat := [0]
  deriving DecidableEq, Repr

def State.control (s : State) : Control := ⟨s.labels, s.returns, s.scopes⟩

/-- The control state after an event. The event is refused if it returns to another address than the
one saved last, closes a scope with another base than the innermost one, or gives a depth that
differs from the number of scopes open after it. -/
def Control.replay (c : Control) : Event → Option Control
  | .labelDeclared label address | .labelRedeclared label _ address | .scanned label _ address =>
    some { c with labels := c.labels.insert label address }
  | .goto _ source _ => some { c with returns := source :: c.returns }
  | .returned _ target =>
    match c.returns with
    | [] => none
    | saved :: rest => if saved = target then some { c with returns := rest } else none
  | .enterScope depth base =>
    let scopes := base :: c.scopes
    if depth = scopes.length then some { c with scopes } else none
  | .exitScope depth base =>
    match c.scopes with
    | [] => none
    | innermost :: scopes =>
      if innermost = base ∧ depth = scopes.length then some { c with scopes } else none
  | .parsed .. | .dispatch .. | .halting .. | .finished .. => some c

/-- The status an event of halting gives. -/
def Event.haltingStatus? : Event → Option Int64
  | .halting status _ => some status
  | _ => none

/-! ## Events that record a change -/

/-- The events tell the change from `s` to `s'`. -/
structure State.Records (s : State) (events : List Event) (s' : State) : Prop where
  control : events.foldlM Control.replay s.control = some s'.control
  status : (events.filterMap Event.haltingStatus?).getLast?.getD s.status = s'.status
  finished : ∀ status, .finished status ∈ events → s'.running = false
  halted : s.running = false → s'.running = false

namespace State

variable {program : Program} {s s' s'' : State} {t : Transition}

/-- The change of the scopes that a return brings about. -/
def released (s : State) (config : Config) : Transition :=
  if config.scopedCalls then s.exitScope.getD (.silent s) else .silent s

theorem returns_released (s : State) (config : Config) :
    (s.released config).state.returns = s.returns := by
  cases hc : config.scopedCalls with
  | false => simp [released, hc]
  | true =>
    rcases hs : s.scopes with _ | ⟨base, _ | ⟨enclosing, outer⟩⟩ <;>
      simp [released, hc, exitScope, hs]

/-- Whether a return first closes the scope or first takes the address off makes no difference. -/
theorem returnFromLabel_eq_andThen {config : Config} (h : s.returnFromLabel config = .ok t) :
    ∃ target rest, s.returns = target :: rest ∧
      t = (s.released config).andThen fun u =>
        ⟨{ u with pc := target, returns := rest }, [.returned u.pc target]⟩ := by
  cases hr : s.returns with
  | nil => simp [State.returnFromLabel, hr] at h
  | cons target rest =>
    simp only [State.returnFromLabel, hr, Except.ok.injEq] at h
    refine ⟨target, rest, rfl, h.symm.trans ?_⟩
    cases hc : config.scopedCalls with
    | false => simp [released, hc, Transition.andThen]
    | true =>
      rcases hs : s.scopes with _ | ⟨base, _ | ⟨enclosing, outer⟩⟩ <;>
        simp [released, hc, exitScope, hs, Transition.andThen]

namespace Records

/-- Nothing is recorded of a change outside the control state. -/
theorem silent (hcontrol : s'.control = s.control) (hstatus : s'.status = s.status)
    (hrunning : s'.running = s.running) : s.Records [] s' where
  control := by simp [hcontrol]
  status := by simp [hstatus]
  finished := by simp
  halted := by simp [hrunning]

theorem append {events more : List Event} (h : s.Records events s') (h' : s'.Records more s'') :
    s.Records (events ++ more) s'' where
  control := by simp [List.foldlM_append, h.control, h'.control]
  status := by
    rw [← h'.status, ← h.status, List.filterMap_append, List.getLast?_append]
    cases (more.filterMap Event.haltingStatus?).getLast? <;> simp
  finished := by
    intro status hmem
    obtain hmem | hmem := List.mem_append.1 hmem
    · exact h'.halted (h.finished status hmem)
    · exact h'.finished status hmem
  halted hs := h'.halted (h.halted hs)

/-- One event that neither halts the machine nor ends a run. -/
theorem single {event : Event} (hcontrol : s.control.replay event = some s'.control)
    (hevent : event.haltingStatus? = none ∧ ∀ status, event ≠ .finished status)
    (hstatus : s'.status = s.status) (hrunning : s'.running = s.running) :
    s.Records [event] s' where
  control := by simp [hcontrol]
  status := by simp [hevent.1, hstatus]
  finished := by
    intro status hmem
    exact (hevent.2 status (List.mem_singleton.1 hmem).symm).elim
  halted := by simp [hrunning]

theorem andThen {next : State → Transition} (h : s.Records t.events t.state)
    (hnext : t.state.Records (next t.state).events (next t.state).state) :
    s.Records (t.andThen next).events (t.andThen next).state :=
  h.append hnext

/-! ## Moves -/

theorem declareLabel (s : State) (label : Int64) :
    s.Records (s.declareLabel label).events (s.declareLabel label).state := by
  cases hl : s.labelAddress label with
  | none =>
    simp only [State.declareLabel, hl]
    exact single rfl (by simp [Event.haltingStatus?]) rfl rfl
  | some previous =>
    by_cases hp : previous = s.pc
    · -- The label keeps its address, so that there is nothing to record.
      subst hp
      simp only [State.declareLabel, hl, if_true]
      exact silent (by simp [State.control, LabelTable.insert_of_find? hl]) rfl rfl
    · simp only [State.declareLabel, hl, hp, if_false]
      exact single rfl (by simp [Event.haltingStatus?]) rfl rfl

theorem enterScope (s : State) : s.Records s.enterScope.events s.enterScope.state :=
  single (by simp [Control.replay, State.enterScope, State.control])
    (by simp [Event.haltingStatus?]) rfl rfl

theorem exitScope (h : s.exitScope = some t) : s.Records t.events t.state := by
  unfold State.exitScope at h
  split at h
  next base enclosing outer hs =>
    obtain rfl := Option.some.inj h
    exact single (by simp [Control.replay, State.control, hs]) (by simp [Event.haltingStatus?])
      rfl rfl
  next => cases h

theorem released (s : State) (config : Config) :
    s.Records (s.released config).events (s.released config).state := by
  unfold State.released
  split
  · cases h : s.exitScope with
    | none => exact silent rfl rfl rfl
    | some t => exact exitScope h
  · exact silent rfl rfl rfl

theorem goto {config : Config} {label : Int64} (h : s.goto config label = .ok t) :
    s.Records t.events t.state := by
  cases hl : s.labelAddress label with
  | none => simp [State.goto, hl] at h
  | some target =>
    simp only [State.goto, hl, Except.ok.injEq] at h
    have hjump : s.Records [.goto label s.pc target]
        { s with pc := target, returns := s.pc :: s.returns } :=
      single rfl (by simp [Event.haltingStatus?]) rfl rfl
    subst h
    cases config.scopedCalls with
    | false => exact hjump
    | true => exact andThen hjump (enterScope _)

theorem returnFromLabel {config : Config} (h : s.returnFromLabel config = .ok t) :
    s.Records t.events t.state := by
  obtain ⟨target, rest, hr, rfl⟩ := returnFromLabel_eq_andThen h
  refine andThen (released s config) (single ?_ (by simp [Event.haltingStatus?]) rfl rfl)
  simp [Control.replay, State.control, returns_released, hr]

theorem scanForward {script : Script} {label : Int64} (h : s.scanForward script label = .ok t) :
    s.Records t.events t.state := by
  cases hd : s.distanceToLabel script label with
  | none => simp [State.scanForward, hd] at h
  | some distance =>
    simp only [State.scanForward, hd, Except.ok.injEq] at h
    subst h
    exact single rfl (by simp [Event.haltingStatus?]) rfl rfl

theorem halt (s : State) (status : Int64) :
    s.Records (s.halt status).events (s.halt status).state where
  control := rfl
  status := rfl
  finished := by simp [State.halt]
  halted _ := rfl

theorem move (h : s.Move program t) : s.Records t.events t.state := by
  cases h with
  | idle => exact silent rfl rfl rfl
  | store hs =>
    obtain ⟨index, -, rfl⟩ := set_eq_ok hs
    exact silent rfl rfl rfl
  | declareLocal hs =>
    obtain rfl := declareLocal_eq_ok hs
    exact silent rfl rfl rfl
  | declareLabel label => exact declareLabel s label
  | goto ht => exact goto ht
  | returnFromLabel ht => exact returnFromLabel ht
  | scanForward ht => exact scanForward ht
  | enterScope => exact enterScope s
  | exitScope ht => exact exitScope ht

/-! ## Rounds -/

theorem fetched (s : State) (statement : Statement) :
    s.Records [.dispatch statement.line statement.tokens] s.fetched :=
  single rfl (by simp [Event.haltingStatus?]) rfl rfl

/-- The last round of a run that finishes is recorded by its status. -/
theorem finish (s : State) : s.Records [.finished s.status] { s with running := false } where
  control := rfl
  status := rfl
  finished _ _ := rfl
  halted _ := rfl

theorem round (h : program.Round s t) : s.Records t.events t.state := by
  cases h with
  | halted hr =>
    have hfinish := finish s
    rwa [← hr] at hfinish
  | ended => exact finish s
  | passed => exact fetched s _
  | executed _ _ _ ha =>
    refine (fetched s _).append ?_
    obtain hmove | ⟨status, -, rfl⟩ := move_or_halt_of_action ha
    · exact move hmove
    · exact halt s.fetched status

end Records

end State

namespace Machine

variable {η : Type} [Host η] {program : Program} {m : Machine η}

/-- The journal tells how the empty state has become the state of the machine. -/
theorem records_performAll (host : η) (operations : List Operation) :
    let m := performAll program { host } operations
    State.Records {} m.journal.toList m.state := by
  refine performAll_induction (P := fun m => State.Records {} m.journal.toList m.state)
    (fun m t h ht => ?_) (fun m h => ?_) (.silent rfl rfl rfl) operations
  · simpa [follow] using h.append (.move ht)
  · obtain ⟨t, hround, hstate, hjournal⟩ := program.round_next m
    rw [hstate, hjournal]
    simpa using h.append (.round hround)

/-! ## Runs that have ended -/

/-- Every run among the operations ends within its fuel. -/
def RunsEnd (program : Program) : Machine η → List Operation → Prop
  | _, [] => True
  | m, operation :: operations =>
    (m.perform program operation).1 ≠ .unfinished ∧
      RunsEnd program (m.perform program operation).2 operations

/-- If the machine has halted, its journal tells of a run that has finished. -/
def TellsEnd (m : Machine η) : Prop :=
  m.state.running = false → ∃ status, .finished status ∈ m.journal

theorem tellsEnd_of_ends {m' : Machine η} {outcome : Outcome}
    (h : program.Ends m outcome m') : m'.TellsEnd := by
  induction h with
  | later _ _ ih => exact ih
  | @now m m' outcome hs =>
    cases outcome with
    | finished status =>
      obtain ⟨-, rfl, -⟩ := Program.step_eq_finished hs
      exact fun _ => ⟨status, by simp⟩
    | failed error =>
      -- A machine that has failed is still running.
      obtain ⟨statement, hfails, -⟩ := Program.failsAt_of_step hs
      intro hr
      rw [hfails.unchanged.1] at hr
      exact absurd hfails.running (by simpa [State.fetched] using hr)

theorem TellsEnd.perform (h : m.TellsEnd) {operation : Operation}
    (hends : (m.perform program operation).1 ≠ .unfinished) :
    (m.perform program operation).2.TellsEnd := by
  obtain ⟨fuel, rfl⟩ | ⟨t, ht, hm⟩ := perform_cases program m operation
  · cases hr : program.run fuel m with
    | mk outcome? m' =>
      cases outcome? with
      | none => simp [Machine.perform, hr] at hends
      | some outcome =>
        rw [perform_run, hr]
        exact tellsEnd_of_ends (Program.ends_iff_exists_run.2 ⟨fuel, hr⟩)
  · rw [hm]
    intro hr
    obtain ⟨status, hstatus⟩ := h (ht.running.1.symm.trans hr)
    exact ⟨status, Array.mem_toList_iff.1 (by simp [follow, hstatus])⟩

theorem TellsEnd.performAll {operations : List Operation} (h : m.TellsEnd)
    (hends : m.RunsEnd program operations) : (m.performAll program operations).TellsEnd := by
  induction operations generalizing m with
  | nil => exact h
  | cons operation operations ih => exact ih (h.perform hends.1) hends.2

/-- Whatever operations a fresh machine has been asked for, failed ones and runs cut short after any
number of rounds included, a replay of its journal refuses no event and leads to the control state
of the machine, and the status is the one of the last event of halting. If no run is cut short, the
machine has halted exactly if its journal tells of a run that has finished. -/
theorem journal_faithful (program : Program) (host : η) (operations : List Operation) :
    let m := performAll program { host } operations
    m.journal.toList.foldlM Control.replay {} =
        some { labels := m.state.labels, returns := m.state.returns, scopes := m.state.scopes } ∧
      m.state.status = (m.journal.toList.filterMap Event.haltingStatus?).getLast?.getD 0 ∧
      (RunsEnd program { host } operations →
        (m.state.running = false ↔ ∃ status, .finished status ∈ m.journal)) := by
  intro m
  have hrecords : State.Records {} m.journal.toList m.state := records_performAll host operations
  refine ⟨hrecords.control, hrecords.status.symm, fun hends => ⟨?_, ?_⟩⟩
  · have hfresh : TellsEnd ({ host } : Machine η) := by simp [TellsEnd]
    exact hfresh.performAll hends
  · rintro ⟨status, hstatus⟩
    exact hrecords.finished status (Array.mem_toList_iff.2 hstatus)

/-- A script that declares a label and exits. -/
def labelThenExit : Program where
  script := .ofRows [[2, 1], [5, 0, 3]]
  config := { scopedCalls := true }

/-- The label of a finished run can still be called and returned from. -/
theorem labelThenExit_journal_faithful :
    let operations := [.run 3, .goto 1, .goto 1, .returnFromLabel]
    let m := performAll labelThenExit { host := ({} : MemoryHost) } operations
    RunsEnd labelThenExit { host := ({} : MemoryHost) } operations ∧
      m.journal.toList.foldlM Control.replay {} =
        some { labels := m.state.labels, returns := [2], scopes := [0, 0] } ∧
      (m.journal.toList.filterMap Event.haltingStatus?).getLast?.getD 0 = 3 ∧
      ∃ status, .finished status ∈ m.journal := by
  intro operations m
  have hends : RunsEnd labelThenExit { host := ({} : MemoryHost) } operations :=
    ⟨by decide +kernel, by decide +kernel, by decide +kernel, by decide +kernel, trivial⟩
  obtain ⟨hcontrol, hstatus, hfinished⟩ :=
    journal_faithful labelThenExit ({} : MemoryHost) operations
  exact ⟨hends, hcontrol, hstatus.symm, (hfinished hends).1 rfl⟩

end Machine

end IntScript
