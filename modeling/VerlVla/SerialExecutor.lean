import Mathlib.Algebra.Module.Pi
import VerlVla.ActionChunk
import VerlVla.Tensor
import VerlVla.TransitionLog

/-!
# The serial executor

The serial executor executes a whole chunk at a time.  With smoothing it blends
the unexecuted tail of the plan before into the new plan, and executes only the
first steps of the plan.  Lanes that were reset start from their own input.
-/

namespace VerlVla

open List hiding get length modify set
namespace SerialExecutor

open ActionChunk
open Transition

/-! ## Configuration and chunks -/

structure InterpolationConfig where
  enable : Bool
  factor : ℕ
  factor_ge : 2 ≤ factor

structure SmoothingConfig where
  enable : Bool
  executionSteps : ℕ
  blendSteps : ℕ
  executionSteps_pos : 0 < executionSteps
  blendSteps_ge : 2 ≤ blendSteps

structure SerialConfig where
  interpolation : InterpolationConfig
  smoothing : SmoothingConfig

def SerialConfig.interpolationFactor (config : SerialConfig) : ℕ :=
  if config.interpolation.enable then config.interpolation.factor else 1

/-- The reasons for which an exchange raises. -/
inductive ChunkError
  | actionsShape (shape : List ℕ)
  | emptyChunk (shape : List ℕ)
  | valuesShape (expected actual : List ℕ)
  | planTooShort (executionSteps blendSteps planSteps : ℕ)
  | planShape (previous next : List ℕ)
  deriving DecidableEq

abbrev LaneAction : Type := ℕ → ℚ

/-- An array of shape `[lanes, steps, dim]`, tick by tick. -/
structure Plan where
  lanes : ℕ
  dim : ℕ
  ticks : List (ℕ → LaneAction)

namespace Plan

def shape (plan : Plan) : List ℕ := [plan.lanes, plan.ticks.length, plan.dim]

def lane (plan : Plan) (i : ℕ) : List LaneAction :=
  plan.ticks.map fun tick => tick i

end Plan

def actionTicks (actions : Tensor ℚ) : List (ℕ → LaneAction) :=
  (range actions.steps).map fun j i d => actions.entry [i, j, d]

def valueTicks (values : Tensor ℚ) : List (ℕ → ℚ) :=
  (range values.steps).map fun j i => values.entry [i, j]

def normalizeActionChunk (actions values : Tensor ℚ) :
    Except ChunkError (Plan × List (ℕ → ℚ)) := do
  require (actions.shape.length = 3) (.actionsShape actions.shape)
  require (0 < actions.steps) (.emptyChunk actions.shape)
  require (values.shape = actions.shape.take 2)
    (.valuesShape (actions.shape.take 2) values.shape)
  pure (⟨actions.rows, actions.shape.getD 2 0, actionTicks actions⟩,
    valueTicks values)

def prepare (config : SerialConfig) (actions values : Tensor ℚ) :
    Except ChunkError (Plan × List (ℕ → ℚ)) := do
  let chunk ← normalizeActionChunk actions values
  pure ({ chunk.1 with
      ticks := interpolateActionChunk config.interpolationFactor
        chunk.1.ticks },
    interpolateActionChunk config.interpolationFactor chunk.2)

def blendTick (smoothing : SmoothingConfig) (previous : Plan)
    (valid : ℕ → Bool) (index : ℕ) (tick : ℕ → LaneAction) :
    ℕ → LaneAction :=
  fun i =>
    if valid i && index < smoothing.blendSteps then
      blend (rampWeight smoothing.blendSteps index)
        (previous.ticks.getD (smoothing.executionSteps + index) 0 i) (tick i)
    else tick i

def smoothSerialActionChunks (smoothing : SmoothingConfig)
    (previousActions : Option Plan) (nextActions : Plan)
    (previousValid : Option (ℕ → Bool)) : Except ChunkError Plan := do
  require (smoothing.executionSteps + smoothing.blendSteps ≤
      nextActions.ticks.length)
    (.planTooShort smoothing.executionSteps smoothing.blendSteps
      nextActions.ticks.length)
  match previousActions with
  | none => pure nextActions
  | some previous => do
    require (previous.shape = nextActions.shape)
      (.planShape previous.shape nextActions.shape)
    let valid := previousValid.getD fun _ => true
    pure { nextActions with
      ticks := nextActions.ticks.mapIdx
        (blendTick smoothing previous valid) }

/-! ## The executor -/

structure StepCall where
  action : ℕ → LaneAction
  value : ℕ → ℚ
  chunkStarted : Bool

structure Executor where
  previousActions : Option Plan
  previousValid : Option (ℕ → Bool)

def Executor.initial : Executor where
  previousActions := none
  previousValid := none

def stepCalls (actions : List (ℕ → LaneAction)) (values : List (ℕ → ℚ)) :
    List StepCall :=
  (actions.zip values).mapIdx fun index tick =>
    ⟨tick.1, tick.2, index == 0⟩

def smoothPlan (smoothing : SmoothingConfig)
    (chunk : Plan × List (ℕ → ℚ)) :
    ExceptT ChunkError (StateM Executor)
      (List (ℕ → LaneAction) × List (ℕ → ℚ)) := do
  let executor ← get
  let plan ← smoothSerialActionChunks smoothing executor.previousActions
    chunk.1 executor.previousValid
  modify fun executor => { executor with previousActions := some plan }
  modify fun executor =>
    { executor with previousValid := some fun _ => true }
  pure (plan.ticks.take smoothing.executionSteps,
    chunk.2.take smoothing.executionSteps)

/-- An exchange changes the executor statement by statement.  `resetMask` is
what `finish_fn` answers. -/
def exchange (config : SerialConfig) (actions values : Tensor ℚ)
    (resetMask : ℕ → Bool) :
    ExceptT ChunkError (StateM Executor) (List StepCall) := do
  let chunk ← prepare config actions values
  let executed ←
    if config.smoothing.enable then smoothPlan config.smoothing chunk
    else pure (chunk.1.ticks, chunk.2)
  modify fun executor =>
    { executor with
      previousValid := executor.previousValid.map fun valid i =>
        valid i && !resetMask i }
  pure (stepCalls executed.1 executed.2)

def reset : StateM Executor Unit := set Executor.initial

/-! ## What an exchange does -/

section Exchange

variable {config : SerialConfig}

/-- The plan of an exchange and its values, before it changes anything. -/
def planned (config : SerialConfig) (actions values : Tensor ℚ)
    (executor : Executor) : Except ChunkError (Plan × List (ℕ → ℚ)) := do
  let chunk ← prepare config actions values
  let plan ← smoothSerialActionChunks config.smoothing
    executor.previousActions chunk.1 executor.previousValid
  pure (plan, chunk.2)

theorem run_bind {ε σ α β : Type} (first : ExceptT ε (StateM σ) α)
    (rest : α → ExceptT ε (StateM σ) β) (state : σ) :
    (first >>= rest) state = match first state with
      | (.ok value, next) => rest value next
      | (.error error, next) => (.error error, next) := by
  show ExceptT.bindCont rest (first state).1 (first state).2 = _
  cases first state with
  | mk answer next =>
    cases answer with
    | ok value | error error => rfl

theorem run_lift {ε σ α : Type} (step : Except ε α) (state : σ) :
    (liftM step : ExceptT ε (StateM σ) α) state = (step, state) := by
  cases step with
  | ok value | error error => rfl

theorem smoothPlan_run (config : SerialConfig) (executor : Executor)
    (chunk : Plan × List (ℕ → ℚ)) :
    smoothPlan config.smoothing chunk executor =
      match smoothSerialActionChunks config.smoothing
        executor.previousActions chunk.1 executor.previousValid with
      | .ok plan =>
        (.ok (plan.ticks.take config.smoothing.executionSteps,
          chunk.2.take config.smoothing.executionSteps),
          ⟨some plan, some fun _ => true⟩)
      | .error error => (.error error, executor) := by
  unfold smoothPlan
  show ((liftM (smoothSerialActionChunks config.smoothing
    executor.previousActions chunk.1 executor.previousValid) :
      ExceptT ChunkError (StateM Executor) Plan) >>= _) executor = _
  rw [run_bind, run_lift]
  cases smoothSerialActionChunks config.smoothing executor.previousActions
      chunk.1 executor.previousValid with
  | ok plan | error error => rfl

/-- With smoothing an exchange either raises and changes nothing, or keeps its
plan and the lanes that were not reset. -/
theorem exchange_run (hsmooth : config.smoothing.enable = true) :
    exchange config actions values resetMask executor =
      match planned config actions values executor with
      | .ok plan =>
        (.ok (stepCalls (plan.1.ticks.take config.smoothing.executionSteps)
          (plan.2.take config.smoothing.executionSteps)),
          ⟨some plan.1, some fun i => !resetMask i⟩)
      | .error error => (.error error, executor) := by
  unfold exchange planned
  rw [run_bind, run_lift]
  cases prepare config actions values with
  | error error => rfl
  | ok chunk =>
    have hplan := smoothPlan_run config executor chunk
    simp only [hsmooth, if_true]
    rw [run_bind, hplan]
    cases hpath : smoothSerialActionChunks config.smoothing
        executor.previousActions chunk.1 executor.previousValid with
    | error error => simp [hpath, bind, Except.bind]
    | ok plan =>
      simp only [hpath, bind, Except.bind, pure, Except.pure]
      rfl

end Exchange

/-! ## One lane of a plan -/

/-- One action of a lane, blended with the plan that it carried over. -/
def laneStep (smoothing : SmoothingConfig)
    (previous : Option (List LaneAction)) (index : ℕ)
    (action : LaneAction) : LaneAction :=
  match previous with
  | none => action
  | some queued =>
    if index < smoothing.blendSteps then
      blend (rampWeight smoothing.blendSteps index)
        (queued.getD (smoothing.executionSteps + index) 0) action
    else action

/-- The plan of a lane from the plan it carried over and its input. -/
def laneNext (smoothing : SmoothingConfig)
    (previous : Option (List LaneAction)) (input : List LaneAction) :
    List LaneAction :=
  input.mapIdx (laneStep smoothing previous)

def inputLane (config : SerialConfig) (i : ℕ) (actions : Tensor ℚ) :
    List LaneAction :=
  (interpolateActionChunk config.interpolationFactor
    (actionTicks actions)).map fun tick => tick i

def Executor.carried (executor : Executor) (i : ℕ) :
    Option (List LaneAction) :=
  match executor.previousActions with
  | none => none
  | some previous =>
    if (executor.previousValid.getD fun _ => true) i then
      some (previous.lane i)
    else none

section Lane

variable {config : SerialConfig} {input plan : Plan} {times : List (ℕ → ℚ)}
  {i : ℕ}

@[simp] theorem Plan.length_lane (plan : Plan) (i : ℕ) :
    (plan.lane i).length = plan.ticks.length :=
  length_map _

theorem Plan.getD_lane (plan : Plan) (i index : ℕ) :
    (plan.lane i).getD index 0 = plan.ticks.getD index 0 i := by
  unfold Plan.lane
  rw [getD_eq_getElem?_getD, getD_eq_getElem?_getD, getElem?_map]
  cases plan.ticks[index]? with
  | none | some tick => rfl

@[simp] theorem length_laneNext (smoothing : SmoothingConfig)
    (previous : Option (List LaneAction)) (lane : List LaneAction) :
    (laneNext smoothing previous lane).length = lane.length :=
  length_mapIdx

theorem prepare_eq_ok
    (hprepare : prepare config actions values = .ok (input, times)) :
    input.ticks = interpolateActionChunk config.interpolationFactor
        (actionTicks actions) ∧
      input.lane i = inputLane config i actions := by
  obtain ⟨chunk, hchunk, hpure⟩ := bind_eq_ok.mp hprepare
  cases hpure
  simp only [normalizeActionChunk, bind_eq_ok, require_eq_ok] at hchunk
  obtain ⟨_, _, _, _, _, _, hnormal⟩ := hchunk
  cases hnormal
  exact ⟨rfl, rfl⟩

theorem length_of_prepare
    (hprepare : prepare config actions values = .ok (input, times)) :
    times.length = input.ticks.length := by
  obtain ⟨chunk, hchunk, hpure⟩ := bind_eq_ok.mp hprepare
  cases hpure
  simp only [normalizeActionChunk, bind_eq_ok, require_eq_ok] at hchunk
  obtain ⟨_, hrank, _, _, _, hshape, hnormal⟩ := hchunk
  cases hnormal
  have hsteps : values.steps = actions.steps := by
    unfold Tensor.steps
    rw [hshape, getD_eq_getElem?_getD, getD_eq_getElem?_getD,
      getElem?_take_of_lt (by omega)]
  simp [valueTicks, actionTicks, hsteps]

structure Planned (config : SerialConfig) (actions values : Tensor ℚ)
    (executor : Executor) (plan input : Plan) : Prop where
  prepared : ∃ times, prepare config actions values = .ok (input, times)
  fits : config.smoothing.executionSteps + config.smoothing.blendSteps ≤
    input.ticks.length
  length : plan.ticks.length = input.ticks.length
  lane : ∀ i, plan.lane i = laneNext config.smoothing (executor.carried i)
    (input.lane i)
  carriedLength : ∀ i queued, executor.carried i = some queued →
    queued.length = input.ticks.length

theorem lane_blendTick : ({ input with
        ticks := input.ticks.mapIdx
          (blendTick config.smoothing previous valid) } : Plan).lane i =
      laneNext config.smoothing
        (if valid i then some (previous.lane i) else none)
        (input.lane i) := by
  apply ext_getElem
  · simp
  · intro index hleft hright
    simp only [Plan.lane, laneNext, getElem_map, getElem_mapIdx, blendTick]
    by_cases hvalid : valid i = true
    · rw [← Plan.getD_lane]
      simp [laneStep, Plan.lane, hvalid]
    · simp [laneStep, hvalid]

theorem planned_eq_ok
    (hplan : planned config actions values executor = .ok (plan, times)) :
    ∃ input, Planned config actions values executor plan input := by
  obtain ⟨⟨input, inputTimes⟩, hprepare, hrest⟩ := bind_eq_ok.mp hplan
  obtain ⟨smoothed, hsmooth, hpure⟩ := bind_eq_ok.mp hrest
  cases hpure
  unfold smoothSerialActionChunks at hsmooth
  rw [require_bind_eq_ok] at hsmooth
  obtain ⟨hfits, hsmooth⟩ := hsmooth
  use input
  cases hprevious : executor.previousActions with
  | none =>
    rw [hprevious] at hsmooth
    cases hsmooth
    have hcarried : ∀ i, executor.carried i = none := by
      intro i
      unfold Executor.carried
      rw [hprevious]
    constructor
    · exact ⟨_, hprepare⟩
    · exact hfits
    · rfl
    · intro i
      rw [hcarried i]
      simp [laneNext, laneStep, mapIdx_eq_zipIdx_map]
    · intro i queued hqueued
      rw [hcarried i] at hqueued
      cases hqueued
  | some previous =>
    rw [hprevious] at hsmooth
    dsimp only at hsmooth
    rw [require_bind_eq_ok] at hsmooth
    obtain ⟨hshape, hsmooth⟩ := hsmooth
    cases hsmooth
    constructor
    · exact ⟨_, hprepare⟩
    · exact hfits
    · exact length_mapIdx
    · intro i
      rw [lane_blendTick]
      unfold Executor.carried
      rw [hprevious]
    · intro i queued hqueued
      unfold Executor.carried at hqueued
      rw [hprevious] at hqueued
      dsimp only at hqueued
      split_ifs at hqueued
      cases hqueued
      have hlength := congrArg (fun shape => shape.getD 1 0) hshape
      rw [Plan.length_lane]
      exact hlength

theorem length_of_planned
    (hplan : planned config actions values executor = .ok (plan, times)) :
    times.length = plan.ticks.length := by
  obtain ⟨input, hplanned⟩ := planned_eq_ok hplan
  obtain ⟨⟨prepared, inputTimes⟩, hprepare, hrest⟩ := bind_eq_ok.mp hplan
  obtain ⟨smoothed, hsmooth, hpure⟩ := bind_eq_ok.mp hrest
  cases hpure
  obtain ⟨other, hother⟩ := hplanned.prepared
  rw [hother] at hprepare
  cases hprepare
  rw [length_of_prepare hother, hplanned.length]

theorem getD_laneNext (hindex : index < lane.length) :
    (laneNext smoothing previous lane).getD index 0 =
      laneStep smoothing previous index (lane.getD index 0) := by
  unfold laneNext
  rw [getD_eq_getElem?_getD, getD_eq_getElem?_getD,
    getElem?_mapIdx, getElem?_eq_getElem hindex]
  rfl

theorem map_action_stepCalls (hlength : times.length = ticks.length) :
    (stepCalls ticks times).map StepCall.action = ticks := by
  unfold stepCalls
  apply ext_getElem
  · simp [hlength]
  · intro index hleft hright
    simp

end Lane

end SerialExecutor
end VerlVla
