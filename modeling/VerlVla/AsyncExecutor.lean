import VerlVla.ActionChunk
import VerlVla.Checks
import VerlVla.TransitionRun

/-!
# The asynchronous action executor

One thread exchanges chunks, a control thread executes queued ticks, and any
thread may reset or close the executor.  A label is one critical section of
the condition lock, or the return of the step function.  The snapshot and step
functions belong to the environment: their outcome is part of the label.
-/

namespace VerlVla
namespace AsyncExecutor

open ActionChunk Transition

variable {A V : Type} [AddCommGroup A] [Module ℚ A]
  [AddCommGroup V] [Module ℚ V]

structure ExecutorConfig where
  replanAfterSteps : ℕ
  smoothOverlappingActions : Bool
  interpolationFactor : ℕ
  replan_pos : 0 < replanAfterSteps
  factor_pos : 0 < interpolationFactor

inductive ExecutorError
  | emptyChunk
  | valuesShape (actions values : ℕ)
  | chunkTooShort (steps replanAfterSteps : ℕ)
  | failed
  | exchangeInProgress
  | noReturnTarget
deriving DecidableEq

/-- One control tick waiting to be consumed by the control thread. -/
structure QueuedAction (A V : Type) where
  action : A
  value : V
  chunkStarted : Bool

structure ExecutorState (A V : Type) where
  actionQueue : List (QueuedAction A V)
  completedSteps : ℕ
  chunkOriginStep : ℕ
  returnTarget : Option ℕ
  paused : Bool
  inStep : Bool
  closed : Bool
  failed : Bool
  exchanging : Option ℕ
  resetting : Bool

inductive SnapshotOutcome
  | returned (resetMask : List Bool)
  | raised
deriving DecidableEq

def SnapshotOutcome.resets : SnapshotOutcome → Bool
  | .returned resetMask => resetMask.any id
  | .raised => false

inductive Label (A V : Type)
  | exchange (actions : List A) (values : List V) (outcome : SnapshotOutcome)
  | wake (outcome : SnapshotOutcome)
  | pop
  | complete
  | fail
  | reset
  | finishReset
  | close

inductive Output (A V : Type)
  | raised (error : ExecutorError)
  | waiting
  | snapshot (feedbackSteps : ℕ) (outcome : SnapshotOutcome)
  | popped (queued : QueuedAction A V)
  | done

namespace ExecutorState

def initial : ExecutorState A V where
  actionQueue := []
  completedSteps := 0
  chunkOriginStep := 0
  returnTarget := none
  paused := true
  inStep := false
  closed := false
  failed := false
  exchanging := none
  resetting := false

/-- The tick at which a replacement of the queue takes effect. -/
def replacementStep (state : ExecutorState A V) : ℕ :=
  state.completedSteps + if state.inStep then 1 else 0

def elapsedSteps (state : ExecutorState A V) : ℕ :=
  state.replacementStep - state.chunkOriginStep

def queuedActions (state : ExecutorState A V) : List A :=
  state.actionQueue.map (·.action)

end ExecutorState

namespace ExecutorConfig

def normalizeActionChunk (actions : List A) (values : List V) :
    Except ExecutorError Unit := do
  require (0 < actions.length) .emptyChunk
  require (values.length = actions.length)
    (.valuesShape actions.length values.length)

def prepareActions (config : ExecutorConfig) (actions : List A) : List A :=
  interpolateActionChunk config.interpolationFactor actions

def prepareValues (config : ExecutorConfig) (values : List V) : List V :=
  interpolateActionChunk config.interpolationFactor values

/-- The checks of `exchange`, up to the replacement of the queue. -/
def checkExchange (config : ExecutorConfig) (state : ExecutorState A V)
    (actions : List A) (values : List V) : Except ExecutorError Unit := do
  normalizeActionChunk actions values
  let steps := (config.prepareActions actions).length
  require (config.replanAfterSteps ≤ steps)
    (.chunkTooShort steps config.replanAfterSteps)
  require (state.failed = false) .failed
  require (state.returnTarget = none) .exchangeInProgress

/-- The new plan, aligned with the ticks that have passed meanwhile. -/
def replacementActions (config : ExecutorConfig)
    (state : ExecutorState A V) (actions : List A) : List A :=
  let replacement := (config.prepareActions actions).drop state.elapsedSteps
  if config.smoothOverlappingActions ∧ state.actionQueue ≠ [] then
    smoothActionChunkOverlap state.queuedActions replacement
  else replacement

def replacementQueue (config : ExecutorConfig) (state : ExecutorState A V)
    (actions : List A) (values : List V) : List (QueuedAction A V) :=
  (config.replacementActions state actions).mapIdx fun index action =>
    { action := action
      value := (config.prepareValues values).getD
        (state.elapsedSteps + index) 0
      chunkStarted := index == 0 }

def target (config : ExecutorConfig) (state : ExecutorState A V) : ℕ :=
  state.chunkOriginStep + config.replanAfterSteps

end ExecutorConfig

namespace ExecutorState

/-- Call the snapshot function and leave `exchange`. -/
def takeSnapshot (state : ExecutorState A V) (feedbackSteps : ℕ)
    (outcome : SnapshotOutcome) : Output A V × ExecutorState A V :=
  let left : ExecutorState A V :=
    { state with returnTarget := none, exchanging := none }
  match outcome with
  | .raised => (.snapshot feedbackSteps outcome, left)
  | .returned _ =>
    (.snapshot feedbackSteps outcome, { left with
        actionQueue := if outcome.resets then [] else state.actionQueue
        chunkOriginStep := state.completedSteps })

def replaceQueue (config : ExecutorConfig) (state : ExecutorState A V)
    (actions : List A) (values : List V) : ExecutorState A V :=
  { state with
    actionQueue := config.replacementQueue state actions values
    paused := false
    returnTarget := some (config.target state) }

def exchange (config : ExecutorConfig) (state : ExecutorState A V)
    (actions : List A) (values : List V) (outcome : SnapshotOutcome) :
    Output A V × ExecutorState A V :=
  match config.checkExchange state actions values with
  | .error error => (.raised error, state)
  | .ok () =>
    let replaced := state.replaceQueue config actions values
    if state.completedSteps < config.target state then
      (.waiting, { replaced with exchanging := some actions.length })
    else replaced.takeSnapshot actions.length outcome

/-- The waiting exchange looks at the counters again. -/
def wake (state : ExecutorState A V) (outcome : SnapshotOutcome) :
    Option (Output A V × ExecutorState A V) :=
  match state.exchanging with
  | none => none
  | some feedbackSteps =>
    match state.returnTarget with
    | none => some (.raised .noReturnTarget, { state with exchanging := none })
    | some target =>
      if state.completedSteps < target then
        if state.failed then
          some (.raised .failed, { state with exchanging := none })
        else none
      else some (state.takeSnapshot feedbackSteps outcome)

/-- The guard of the control thread, which ends when it fails or is closed. -/
def mayPop (state : ExecutorState A V) : Prop :=
  state.failed = false ∧ state.closed = false ∧ state.inStep = false ∧
    state.paused = false ∧
    ∀ target ∈ state.returnTarget, state.completedSteps < target

instance (state : ExecutorState A V) : Decidable state.mayPop :=
  inferInstanceAs (Decidable (_ ∧ _ ∧ _ ∧ _ ∧ ∀ _ ∈ _, _))

def pop (state : ExecutorState A V) :
    Option (Output A V × ExecutorState A V) :=
  match state.actionQueue with
  | [] => none
  | queued :: rest =>
    if state.mayPop then
      some (.popped queued, { state with actionQueue := rest, inStep := true })
    else none

def complete (state : ExecutorState A V) :
    Option (Output A V × ExecutorState A V) :=
  if state.inStep then
    some (.done, { state with
        completedSteps := state.completedSteps + 1
        inStep := false })
  else none

/-- The step function raised. -/
def fail (state : ExecutorState A V) :
    Option (Output A V × ExecutorState A V) :=
  if state.inStep then
    some (.done,
      { state with inStep := false, failed := true, paused := true })
  else none

def finishReset (state : ExecutorState A V) : Output A V × ExecutorState A V :=
  let cleared : ExecutorState A V := { state with
      completedSteps := 0
      chunkOriginStep := 0
      resetting := false }
  (if state.failed then .raised .failed else .done, cleared)

/-- Stop execution at a tick boundary and discard all queued state. -/
def reset (state : ExecutorState A V) : Output A V × ExecutorState A V :=
  let stopped : ExecutorState A V :=
    { state with paused := true, actionQueue := [], returnTarget := none }
  if state.inStep then (.waiting, { stopped with resetting := true })
  else stopped.finishReset

end ExecutorState

/-- The critical sections of all threads. -/
def executor (A V : Type) [AddCommGroup A] [Module ℚ A] [AddCommGroup V]
    [Module ℚ V] (config : ExecutorConfig) :
    Machine (ExecutorState A V) (Label A V) (Output A V) where
  step state
    | .exchange actions values outcome =>
      if state.exchanging = none then
        some (state.exchange config actions values outcome)
      else none
    | .wake outcome => state.wake outcome
    | .pop => state.pop
    | .complete => state.complete
    | .fail => state.fail
    | .reset => if state.resetting then none else some state.reset
    | .finishReset =>
      if state.resetting ∧ state.inStep = false then some state.finishReset
      else none
    | .close => some (.done, { state with closed := true })

abbrev ExecutorEvent (A V : Type) :=
  Event (ExecutorState A V) (Label A V) (Output A V)

abbrev ExecutorRun (config : ExecutorConfig) :
    List (ExecutorEvent A V) → ExecutorState A V → Prop :=
  Run (executor A V config) .initial

def eagerConfig : ExecutorConfig where
  replanAfterSteps := 1
  smoothOverlappingActions := false
  interpolationFactor := 1
  replan_pos := by decide
  factor_pos := by decide

def eagerExec (labels : List (Label ℚ ℚ)) :
    Option (List (ExecutorEvent ℚ ℚ) × ExecutorState ℚ ℚ) :=
  (executor ℚ ℚ eagerConfig).exec .initial labels

theorem eagerExec_run (hexec : (eagerExec labels).isSome) :
    ExecutorRun eagerConfig ((eagerExec labels).get hexec).1
      ((eagerExec labels).get hexec).2 :=
  Machine.run_of_exec (Option.some_get hexec).symm

/-! ## What a critical section does -/

omit [AddCommGroup A] [Module ℚ A] [AddCommGroup V] [Module ℚ V] in
theorem takeSnapshot_exchanging (state : ExecutorState A V)
    (feedbackSteps : ℕ) (outcome : SnapshotOutcome) :
    (state.takeSnapshot feedbackSteps outcome).2.exchanging = none := by
  cases outcome <;> rfl

omit [AddCommGroup A] [Module ℚ A] [AddCommGroup V] [Module ℚ V] in
theorem takeSnapshot_output (state : ExecutorState A V)
    (feedbackSteps : ℕ) (outcome : SnapshotOutcome) :
    (state.takeSnapshot feedbackSteps outcome).1 =
      .snapshot feedbackSteps outcome := by
  cases outcome <;> rfl

inductive Effect (config : ExecutorConfig) (before : ExecutorState A V) :
    Label A V → Output A V → ExecutorState A V → Prop
  | rejected {actions : List A} {values : List V} {outcome : SnapshotOutcome}
      {error : ExecutorError}
      (hcheck : config.checkExchange before actions values = .error error) :
      Effect config before (.exchange actions values outcome) (.raised error)
        before
  | waits {actions : List A} {values : List V} {outcome : SnapshotOutcome}
      (hcheck : config.checkExchange before actions values = .ok ())
      (htarget : before.completedSteps < config.target before) :
      Effect config before (.exchange actions values outcome) .waiting
        { before.replaceQueue config actions values with
          exchanging := some actions.length }
  | immediate {actions : List A} {values : List V}
      {outcome : SnapshotOutcome}
      (hcheck : config.checkExchange before actions values = .ok ())
      (htarget : config.target before ≤ before.completedSteps) :
      Effect config before (.exchange actions values outcome)
        ((before.replaceQueue config actions values).takeSnapshot
          actions.length outcome).1
        ((before.replaceQueue config actions values).takeSnapshot
          actions.length outcome).2
  | returns {outcome : SnapshotOutcome} {feedbackSteps target : ℕ}
      (hexchanging : before.exchanging = some feedbackSteps)
      (hreturn : before.returnTarget = some target)
      (htarget : target ≤ before.completedSteps) :
      Effect config before (.wake outcome)
        (before.takeSnapshot feedbackSteps outcome).1
        (before.takeSnapshot feedbackSteps outcome).2
  | gaveUp {outcome : SnapshotOutcome} {error : ExecutorError}
      {feedbackSteps : ℕ}
      (hexchanging : before.exchanging = some feedbackSteps) :
      Effect config before (.wake outcome) (.raised error)
        { before with exchanging := none }
  | popped {queued : QueuedAction A V} {rest : List (QueuedAction A V)}
      (hqueue : before.actionQueue = queued :: rest)
      (hmay : before.mayPop) :
      Effect config before .pop (.popped queued)
        { before with actionQueue := rest, inStep := true }
  | completed (hstep : before.inStep = true) :
      Effect config before .complete .done
        { before with
          completedSteps := before.completedSteps + 1
          inStep := false }
  | failed (hstep : before.inStep = true) : Effect config before .fail .done
        { before with inStep := false, failed := true, paused := true }
  | resetWaits (hstep : before.inStep = true) :
      Effect config before .reset .waiting
        { before with
          paused := true
          actionQueue := []
          returnTarget := none
          resetting := true }
  | resets (hstep : before.inStep = false) {output : Output A V} :
      Effect config before .reset output
        { before with
          paused := true
          actionQueue := []
          returnTarget := none
          completedSteps := 0
          chunkOriginStep := 0
          resetting := false }
  | finishesReset (hstep : before.inStep = false) {output : Output A V} :
      Effect config before .finishReset output
        { before with
          completedSteps := 0
          chunkOriginStep := 0
          resetting := false }
  | closes : Effect config before .close .done { before with closed := true }

theorem Effect.of_step (hstep : (executor A V config).step before label =
      some (output, after)) :
    Effect config before label output after := by
  cases label with
  | exchange actions values outcome =>
    simp only [executor, ExecutorState.exchange] at hstep
    split at hstep
    · cases hcheck : config.checkExchange before actions values with
      | error error =>
        simp only [hcheck, Option.some.injEq, Prod.mk.injEq] at hstep
        rcases hstep with ⟨rfl, rfl⟩
        exact .rejected hcheck
      | ok _ =>
        simp only [hcheck, Option.some.injEq] at hstep
        split at hstep
        next htarget =>
          simp only [Prod.mk.injEq] at hstep
          rcases hstep with ⟨rfl, rfl⟩
          exact .waits hcheck htarget
        next htarget =>
          have heffect : Effect config before
              (.exchange actions values outcome) _ _ :=
            .immediate hcheck (not_lt.mp htarget)
          rwa [hstep] at heffect
    · cases hstep
  | wake outcome =>
    simp only [executor, ExecutorState.wake] at hstep
    split at hstep
    · cases hstep
    next feedbackSteps hexchanging =>
      split at hstep
      next hreturn =>
        simp only [Option.some.injEq, Prod.mk.injEq] at hstep
        rcases hstep with ⟨rfl, rfl⟩
        exact .gaveUp hexchanging
      next target hreturn =>
        split_ifs at hstep with htarget hfailed
        · simp only [Option.some.injEq, Prod.mk.injEq] at hstep
          rcases hstep with ⟨rfl, rfl⟩
          exact .gaveUp hexchanging
        · rw [Option.some.injEq] at hstep
          have heffect : Effect config before (.wake outcome) _ _ :=
            .returns hexchanging hreturn (not_lt.mp htarget)
          rwa [hstep] at heffect
  | pop =>
    simp only [executor, ExecutorState.pop] at hstep
    split at hstep
    · cases hstep
    next queued rest hqueue =>
      split_ifs at hstep with hmay
      simp only [Option.some.injEq, Prod.mk.injEq] at hstep
      rcases hstep with ⟨rfl, rfl⟩
      exact .popped hqueue hmay
  | complete =>
    simp only [executor, ExecutorState.complete] at hstep
    split_ifs at hstep with hinStep
    simp only [Option.some.injEq, Prod.mk.injEq] at hstep
    rcases hstep with ⟨rfl, rfl⟩
    exact .completed hinStep
  | fail =>
    simp only [executor, ExecutorState.fail] at hstep
    split_ifs at hstep with hinStep
    simp only [Option.some.injEq, Prod.mk.injEq] at hstep
    rcases hstep with ⟨rfl, rfl⟩
    exact .failed hinStep
  | reset =>
    simp only [executor, ExecutorState.reset] at hstep
    split_ifs at hstep with hresetting hinStep
    · simp only [Option.some.injEq, Prod.mk.injEq] at hstep
      rcases hstep with ⟨rfl, rfl⟩
      exact .resetWaits hinStep
    · simp only [ExecutorState.finishReset, Option.some.injEq,
        Prod.mk.injEq] at hstep
      rcases hstep with ⟨_, rfl⟩
      exact .resets (by simpa using hinStep)
  | finishReset =>
    simp only [executor, ExecutorState.finishReset] at hstep
    split_ifs at hstep with hguard
    · simp only [Option.some.injEq, Prod.mk.injEq] at hstep
      rcases hstep with ⟨_, rfl⟩
      exact .finishesReset hguard.2
    · simp only [Option.some.injEq, Prod.mk.injEq] at hstep
      rcases hstep with ⟨_, rfl⟩
      exact .finishesReset hguard.2
  | close =>
    simp only [executor, Option.some.injEq, Prod.mk.injEq] at hstep
    rcases hstep with ⟨rfl, rfl⟩
    exact .closes

end AsyncExecutor
end VerlVla
