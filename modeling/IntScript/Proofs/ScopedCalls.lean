import IntScript.Proofs.CallReturn
import IntScript.Proofs.Mirror

/-!
# Scoped calls that declare no locals

A scope that is empty is passed over by every search for an address and releases nothing when it is
closed. If no local is declared while a call is open, the scopes of all open calls are empty, and
the setting for scoped calls makes no difference: with and without it a script runs in lockstep, the
states apart from their scopes being the same.
-/

namespace IntScript

/-- The script as a program with or without scoped calls. -/
def Script.withScopedCalls (script : Script) (scopedCalls : Bool) : Program :=
  { script, config := { scopedCalls } }

namespace State

/-- The state with an empty scope for each open call. -/
def withCallScopes (s : State) : State :=
  { s with scopes := List.replicate s.returnDepth s.stack.size ++ [0] }

variable {script : Script} {s : State}

theorem locate_replicate (offset limit depth : Nat) :
    locate offset limit (List.replicate depth limit ++ [0]) = locate offset limit [0] := by
  induction depth with
  | zero => rfl
  | succ depth ih => simpa [List.replicate_succ, locate] using ih

theorem resolve_withCallScopes (h : s.scopes = [0]) (addr : Int64) :
    s.withCallScopes.resolve addr = s.resolve addr := by
  unfold resolve
  rw [h]
  simp only [withCallScopes, locate_replicate]

theorem get_withCallScopes (h : s.scopes = [0]) (addr : Int64) :
    s.withCallScopes.get addr = s.get addr := by
  unfold State.get
  rw [resolve_withCallScopes h]
  rfl

theorem set_withCallScopes (h : s.scopes = [0]) (addr : Int64) (object : Object) :
    s.withCallScopes.set addr object = (s.set addr object).map withCallScopes := by
  unfold State.set
  rw [resolve_withCallScopes h]
  cases s.resolve addr with
  | error fault => rfl
  | ok index => simp [Except.map, withCallScopes, returnDepth]

theorem declareLocal_withCallScopes (h : s.scopes = [0]) (hreturns : s.returns = [])
    (addr : Int64) (object : Object) :
    s.withCallScopes.declareLocal addr object =
      (s.declareLocal addr object).map withCallScopes := by
  have hs : s.withCallScopes = s := by
    cases s
    simp_all [withCallScopes, returnDepth]
  rw [hs]
  cases hd : s.declareLocal addr object with
  | error fault => rfl
  | ok s' =>
    obtain rfl := declareLocal_eq_ok hd
    simp [Except.map, withCallScopes, returnDepth, h, hreturns]

theorem goto_withCallScopes (label : Int64) :
    (s.withCallScopes.goto { scopedCalls := true } label).map Transition.state =
      ((s.goto { scopedCalls := false } label).map Transition.state).map withCallScopes := by
  have hl : s.withCallScopes.labelAddress label = s.labelAddress label := rfl
  unfold State.goto
  rw [hl]
  cases s.labelAddress label with
  | none => rfl
  | some target =>
    simp [Except.map, Transition.andThen, enterScope, withCallScopes, returnDepth,
      List.replicate_succ]

theorem returnFromLabel_withCallScopes :
    (s.withCallScopes.returnFromLabel { scopedCalls := true }).map Transition.state =
      ((s.returnFromLabel { scopedCalls := false }).map Transition.state).map withCallScopes := by
  have hr : s.withCallScopes.returns = s.returns := rfl
  unfold State.returnFromLabel
  rw [hr]
  cases hreturns : s.returns with
  | nil => rfl
  | cons target rest =>
    -- The innermost scope is that of the call that ends, and there is at least the root around it.
    obtain ⟨enclosing, outer, houter⟩ : ∃ enclosing outer,
        List.replicate rest.length s.stack.size ++ [0] = enclosing :: outer := by
      cases rest <;> simp [List.replicate_succ]
    have hscopes : List.replicate s.returns.length s.stack.size ++ [0] =
        s.stack.size :: enclosing :: outer := by
      simp [hreturns, List.replicate_succ, houter]
    simp [Except.map, exitScope, withCallScopes, returnDepth, hscopes, houter]

theorem scanForward_withCallScopes (label : Int64) :
    (s.withCallScopes.scanForward script label).map Transition.state =
      ((s.scanForward script label).map Transition.state).map withCallScopes := by
  have hd : s.withCallScopes.distanceToLabel script label = s.distanceToLabel script label := rfl
  unfold State.scanForward
  rw [hd]
  cases s.distanceToLabel script label <;> rfl

/-- The scopes of open calls make no difference to any operation. -/
theorem mirrors_withCallScopes (h : s.scopes = [0]) :
    s.Mirrors (script.withScopedCalls false) (script.withScopedCalls true) withCallScopes where
  get := get_withCallScopes h
  set := set_withCallScopes h
  declareLabel _ := rfl
  goto := goto_withCallScopes
  returnFromLabel := returnFromLabel_withCallScopes
  scanForward := scanForward_withCallScopes
  halt _ := rfl

theorem aligned_withCallScopes :
    s.Aligned (script.withScopedCalls false) (script.withScopedCalls true) withCallScopes where
  running := rfl
  status := rfl
  stop := rfl
  statement _ := rfl
  fetched _ _ _ := rfl

end State

namespace Program

variable {η : Type} [Host η]

/-- No local is declared, nor its declaration attempted, while a call is open in the run of `m`. -/
def DeclaresAtRoot (program : Program) (m : Machine η) : Prop :=
  ∀ n m' addr source, program.run n m = (none, m') →
    program.instruction? m'.state = some (.declareLocal addr source) → m'.state.returns = []

theorem DeclaresAtRoot.of_step {program : Program} {m m₁ : Machine η}
    (h : program.DeclaresAtRoot m) (hs : program.step m = .running m₁) :
    program.DeclaresAtRoot m₁ := by
  intro n m' addr source hrun
  exact h (n + 1) m' addr source ((run_succ_of_running hs n).trans hrun)

variable {script : Script}

theorem step_mirrored_withCallScopes {m₁ m₂ : Machine η} (hscopes : m₁.state.scopes = [0])
    (h : (script.withScopedCalls false).DeclaresAtRoot m₁)
    (hm : m₁.Mirrored State.withCallScopes m₂) :
    ((script.withScopedCalls false).step m₁).Mirrored State.withCallScopes
      ((script.withScopedCalls true).step m₂) := by
  have hfetched : m₁.state.fetched.scopes = [0] := hscopes
  refine hm.step State.aligned_withCallScopes (State.mirrors_withCallScopes hfetched) ?_
  rintro _ hi addr source rfl object
  have hreturns : m₁.state.fetched.returns = [] := h 0 m₁ addr source rfl hi
  exact State.declareLocal_withCallScopes hfetched hreturns addr object

/-- If a script declares no locals while a call is open, it runs with scoped calls as it does
without: after any number of rounds the two machines have the same host and agree on everything but
their scopes, and they end their runs in the same round with the same outcome. -/
theorem run_scopedCalls_eq (script : Script) (host : η) (journal : Array Event)
    (h : (script.withScopedCalls false).DeclaresAtRoot { host, journal }) (n : Nat) :
    let r := (script.withScopedCalls false).run n { host, journal }
    let r' := (script.withScopedCalls true).run n { host, journal }
    r'.1 = r.1 ∧ r'.2.host = r.2.host ∧ r'.2.state.pc = r.2.state.pc ∧
      r'.2.state.stack = r.2.state.stack ∧ r'.2.state.labels = r.2.state.labels ∧
      r'.2.state.returns = r.2.state.returns ∧ r'.2.state.running = r.2.state.running ∧
      r'.2.state.status = r.2.state.status := by
  intro r r'
  have hlockstep : r'.1 = r.1 ∧ r.2.Mirrored State.withCallScopes r'.2 := by
    refine run_mirrored (I := fun m => m.state.scopes = [0] ∧
      (script.withScopedCalls false).DeclaresAtRoot m) ?_ ?_ ⟨rfl, h⟩ ⟨rfl, rfl⟩ n
    · rintro m₁ m₂ ⟨hscopes, hdeclares⟩ hm
      exact step_mirrored_withCallScopes hscopes hdeclares hm
    · rintro m₁ m ⟨hscopes, hdeclares⟩ hs
      obtain ⟨t, hround, hstate, -⟩ := (script.withScopedCalls false).round_next m₁
      rw [next, hs, Progress.machine] at hstate
      refine ⟨?_, hdeclares.of_step hs⟩
      rw [hstate]
      exact (State.scopes_of_round rfl hscopes hround).1
  obtain ⟨houtcome, hm⟩ := hlockstep
  rw [hm.state]
  exact ⟨houtcome, hm.host, rfl, rfl, rfl, rfl, rfl, rfl⟩

/-- Whether a run that ends declares locals in calls can be read off its rounds. -/
theorem declaresAtRoot_of_ends {program : Program} {m : Machine η} {outcome : Outcome}
    {fuel : Nat} (hend : (program.run fuel m).1 = some outcome)
    (h : ∀ n < fuel, (program.instruction? (program.run n m).2.state).map Instruction.opcode =
      some .declareLocal → (program.run n m).2.state.returns = []) :
    program.DeclaresAtRoot m := by
  intro n m₁ addr source hrun hi
  have hround := h n (lt_of_run (Prod.ext hend rfl) hrun)
  rw [hrun, hi] at hround
  exact hround rfl

/-- A script with two locals, the second of which tells the first pass through the body of label 1
from the call of it. The call sets the first local. -/
def rootLocals : Script :=
  .ofRows [[0, 0, 0, 5], [0, 0, 1, 1], [2, 1], [11, 3, 1, 9], [1, 0, 0, 7], [4], [2, 9],
    [1, 0, 1, 0], [3, 1], [5, 1, 0]]

theorem rootLocals_run_scopedCalls_eq :
    let m : Machine MemoryHost := { host := {} }
    (rootLocals.withScopedCalls false).DeclaresAtRoot m ∧
      ((rootLocals.withScopedCalls true).run 11 m).1 = some (.finished 7) := by
  intro m
  have hend : ((rootLocals.withScopedCalls false).run 11 m).1 = some (.finished 7) := by
    decide +kernel
  have hrounds : ∀ n < 11,
      ((rootLocals.withScopedCalls false).instruction?
        ((rootLocals.withScopedCalls false).run n m).2.state).map Instruction.opcode =
          some .declareLocal →
      ((rootLocals.withScopedCalls false).run n m).2.state.returns = [] := by
    decide +kernel
  have hroot : (rootLocals.withScopedCalls false).DeclaresAtRoot m :=
    declaresAtRoot_of_ends hend hrounds
  have hequal := run_scopedCalls_eq rootLocals ({} : MemoryHost) #[] hroot 11
  exact ⟨hroot, hequal.1.trans hend⟩

end Program

end IntScript
