import Mathlib.Data.List.Sort
import VerlVla.BlockPartition
import VerlVla.CaseStream
import VerlVla.TransitionRun

/-!
# The environment loop

A rollout runs one loop for each pipeline stage.  A loop waits for the actions
of its stage, steps the simulators of the stage in every worker, and submits
the observations that come back.  The loops advance in any order.  At the end
the slots are collated in stage order, and the last observations in the order
in which the stages were requested.
-/

namespace VerlVla

/-! ## Lanes -/

/-- An environment of a simulator process. -/
structure EnvLane extends EnvSlot where
  env : ℕ
  deriving DecidableEq

structure EnvLoopConfig extends EnvTopology where
  worldSize_pos : 0 < worldSize
  maxInteractions : ℕ
  maxInteractions_pos : 0 < maxInteractions
  partitionByEnvWorker : Bool
  partitionSize : ℕ

namespace EnvLoopConfig

variable (config : EnvLoopConfig)

def processLanes (stageId rank : ℕ) : List EnvLane :=
  (List.range config.numEnvs).map fun env => ⟨⟨stageId, rank⟩, env⟩

def stageLanes (stageId : ℕ) : List EnvLane :=
  (List.range config.worldSize).flatMap (config.processLanes stageId)

def workerLanes (rank : ℕ) : List EnvLane :=
  (List.range config.stageNum).flatMap fun stageId =>
    config.processLanes stageId rank

end EnvLoopConfig

/-- What the simulators return: after a reset, and after the last one of some
actions. -/
structure LaneSimulators (O A F : Type) where
  reset : EnvLane → O
  step : EnvLane → List A → O × F

namespace LaneSimulators

variable {O A F : Type} (simulators : LaneSimulators O A F)

def obsAt (lane : EnvLane) (actions : List A) (slot : ℕ) : O :=
  if slot = 0 then simulators.reset lane
  else (simulators.step lane (actions.take slot)).1

def feedbackAt (lane : EnvLane) (actions : List A) (slot : ℕ) : F :=
  (simulators.step lane (actions.take (slot + 1))).2

end LaneSimulators

/-- The operations of the data protocol on the rows of a batch. -/
structure BatchLibrary where
  chunk : {α : Type} → ℕ → List α → List (List α)
  concat : {α : Type} → List (List α) → List α

structure BatchLibrary.Documented (library : BatchLibrary) : Prop where
  chunk : ∀ {α : Type} (count size : ℕ) (rows : List α), 0 < count →
    rows.length = count * size →
    library.chunk count rows =
      (List.range count).map fun index => block size index rows
  concat : ∀ {α : Type} (parts : List (List α)),
    library.concat parts = parts.flatten

def evenBatches : BatchLibrary where
  chunk count rows := (List.range count).map fun index =>
    block (rows.length / count) index rows
  concat parts := parts.flatten

theorem evenBatches_documented : evenBatches.Documented where
  chunk count size rows hcount hrows := by
    have hsize : rows.length / count = size := by
      rw [hrows, Nat.mul_div_cancel_left size hcount]
    rw [← hsize]
    rfl
  concat _ := rfl

inductive LoopError
  | noActiveStage
  | activeStageIds (stageIds : List ℕ)
  | workerBatch (rows workers : ℕ)
  | partitionBatch (rows partitionSize : ℕ)
  | missingField (stageId : ℕ)
  | trajectoryLengths
  deriving DecidableEq

structure TrajectorySlot (O A F : Type) where
  obs : List O
  action : Option (List A)
  feedback : Option (List F)

inductive StagePhase (O F : Type)
  | rollout (requests : List (List O))
  | env (result : List (O × F))
  | finished

structure StageState (O A F : Type) where
  phase : StagePhase O F
  trajectory : List (TrajectorySlot O A F)
  stepIdx : ℕ
  lastObs : Option (List O)

structure LoopState (O A F : Type) where
  stage : ℕ → StageState O A F
  actions : EnvLane → List A
  raised : Option LoopError

inductive LoopLabel (A : Type)
  | actions (stageId : ℕ) (parts : List (List A))
  | result (stageId : ℕ)

namespace EnvLoop

variable {O A F : Type} (library : BatchLibrary) (config : EnvLoopConfig)
  (simulators : LaneSimulators O A F)

def resetWorker (rank : ℕ) : List O :=
  (List.range config.stageNum).flatMap fun stageId =>
    (config.processLanes stageId rank).map simulators.reset

def resetEnv : List O := library.concat
    ((List.range config.worldSize).map (resetWorker config simulators))

def restructureObsData (rows : List O) : List (List O) :=
  let workers := (library.chunk config.worldSize rows).map
    (library.chunk config.stageNum)
  (List.range config.stageNum).map fun stageId =>
    library.concat (workers.map fun stages => stages.getD stageId [])

/-! ## One stage -/

def submitRollout (obs : List O) : Except LoopError (List (List O)) :=
  if config.partitionByEnvWorker then do
    require (obs.length % config.worldSize = 0)
      (.workerBatch obs.length config.worldSize)
    let parts ← (library.chunk config.worldSize obs).mapM fun workerData =>
      if config.partitionSize ≠ 0 then do
        require (workerData.length % config.partitionSize = 0)
          (.partitionBatch workerData.length config.partitionSize)
        pure (library.chunk (workerData.length / config.partitionSize)
          workerData)
      else pure [workerData]
    pure parts.flatten
  else pure [obs]

/-- The parts in the order of their requests. -/
def resolveRollout (parts : List (List A)) : List A := match parts with
  | [part] => part
  | parts => library.concat parts

def stepWorker (taken : EnvLane → List A) (stageId rank : ℕ)
    (chunk : List A) : List (O × F) :=
  chunk.mapIdx fun env action =>
    let lane : EnvLane := ⟨⟨stageId, rank⟩, env⟩
    simulators.step lane (taken lane ++ [action])

def envInteractStep (taken : EnvLane → List A) (stageId : ℕ)
    (actions : List A) : List (O × F) :=
  library.concat ((library.chunk config.worldSize actions).mapIdx fun rank =>
    stepWorker simulators taken stageId rank)

def recordActions (taken : EnvLane → List A) (stageId : ℕ)
    (actions : List A) (lane : EnvLane) : List A :=
  let chunks := library.chunk config.worldSize actions
  if lane.stageId = stageId then
    taken lane ++ ((chunks.getD lane.rank [])[lane.env]?).toList
  else taken lane

def setAction (trajectory : List (TrajectorySlot O A F)) (actions : List A) :
    List (TrajectorySlot O A F) :=
  trajectory.modifyLast fun slot => { slot with action := some actions }

def setFeedback (trajectory : List (TrajectorySlot O A F))
    (feedback : List F) : List (TrajectorySlot O A F) :=
  trajectory.modifyLast fun slot => { slot with feedback := some feedback }

/-! ## The loops -/

def setStage (state : LoopState O A F) (stageId : ℕ)
    (stage : StageState O A F) : LoopState O A F :=
  { state with stage := Function.update state.stage stageId stage }

def receiveActions (state : LoopState O A F) (stageId : ℕ)
    (parts : List (List A)) : LoopState O A F :=
  let stage := state.stage stageId
  let actions := resolveRollout library parts
  setStage
    { state with
      actions := recordActions library config state.actions stageId actions }
    stageId
    { stage with
      phase := .env (envInteractStep library config simulators state.actions
        stageId actions)
      trajectory := setAction stage.trajectory actions }

def receiveResult (state : LoopState O A F) (stageId : ℕ)
    (result : List (O × F)) : LoopState O A F :=
  let stage := state.stage stageId
  let nextObs := result.map (·.1)
  let trajectory := setFeedback stage.trajectory (result.map (·.2))
  let stepIdx := stage.stepIdx + 1
  if stepIdx < config.maxInteractions then
    match submitRollout library config nextObs with
    | .error raised => { state with raised := some raised }
    | .ok requests =>
      setStage state stageId
        { phase := .rollout requests
          trajectory := trajectory ++ [⟨nextObs, none, none⟩]
          stepIdx := stepIdx
          lastObs := some nextObs }
  else
    setStage state stageId
      { phase := .finished
        trajectory := trajectory
        stepIdx := stepIdx
        lastObs := some nextObs }

def step (activeStageIds : List ℕ) (state : LoopState O A F) :
    LoopLabel A → Option (Unit × LoopState O A F)
  | .actions stageId parts =>
    if state.raised = none ∧ stageId ∈ activeStageIds then
      match (state.stage stageId).phase with
      | .rollout requests =>
        if parts.map List.length = requests.map List.length then
          some ((), receiveActions library config simulators state
            stageId parts)
        else none
      | _ => none
    else none
  | .result stageId =>
    if state.raised = none ∧ stageId ∈ activeStageIds then
      match (state.stage stageId).phase with
      | .env result =>
        some ((), receiveResult library config state stageId result)
      | _ => none
    else none

def machine (activeStageIds : List ℕ) :
    Transition.Machine (LoopState O A F) (LoopLabel A) Unit where
  step := step library config simulators activeStageIds

def firstStage (obs : List O) : Except LoopError (StageState O A F) := do
  let requests ← submitRollout library config obs
  pure
    { phase := .rollout requests
      trajectory := [⟨obs, none, none⟩]
      stepIdx := 0
      lastObs := none }

def start (activeStageIds : List ℕ) : Except LoopError (LoopState O A F) := do
  require (activeStageIds ≠ []) .noActiveStage
  require (activeStageIds.Nodup ∧ ∀ stageId ∈ activeStageIds,
    stageId < config.stageNum) (.activeStageIds activeStageIds)
  let stagedObs := restructureObsData library config
    (resetEnv library config simulators)
  let stages ← activeStageIds.mapM fun stageId => do
    let stage ← firstStage library config (stagedObs.getD stageId [])
    pure (stageId, stage)
  pure
    { stage := fun stageId => (stages.lookup stageId).getD
        ⟨.finished, [], 0, none⟩
      actions := fun _ => []
      raised := none }

/-! ## The result -/

def stackRows {α : Type} (columns : List (List α)) : List (List α) :=
  (List.range ((columns.head?.map List.length).getD 0)).map fun row =>
    columns.filterMap (·[row]?)

def slotRows (stageId : ℕ) (slot : TrajectorySlot O A F) :
    Except LoopError (List (O × A × F)) :=
  match slot.action, slot.feedback with
  | some action, some feedback =>
    pure (slot.obs.zip (action.zip feedback))
  | _, _ => throw (.missingField stageId)

def collateStage (state : LoopState O A F) (stageId : ℕ) :
    Except LoopError (List (List (O × A × F))) := do
  let columns ← (state.stage stageId).trajectory.mapM (slotRows stageId)
  pure (stackRows columns)

def collateTrajectories (state : LoopState O A F)
    (activeStageIds : List ℕ) :
    Except LoopError (List (List (O × A × F))) := do
  let stageIds := activeStageIds.mergeSort
  let lengths := stageIds.map fun stageId =>
    (state.stage stageId).trajectory.length
  require (∀ length ∈ lengths, length = lengths.headD 0) .trajectoryLengths
  let stages ← stageIds.mapM (collateStage state)
  pure (library.concat stages)

def lastObservations (state : LoopState O A F) (activeStageIds : List ℕ) :
    Except LoopError (List O) := do
  let stages ← activeStageIds.mapM fun stageId =>
    match (state.stage stageId).lastObs with
    | some obs => pure obs
    | none => throw (LoopError.missingField stageId)
  pure (library.concat stages)

def Finished (state : LoopState O A F) (activeStageIds : List ℕ) : Prop :=
  state.raised = none ∧ ∀ stageId ∈ activeStageIds,
    (state.stage stageId).phase = .finished

def result (state : LoopState O A F) (activeStageIds : List ℕ) :
    Except LoopError (List (List (O × A × F)) × List O) := do
  let output ← collateTrajectories library state activeStageIds
  let lastObs ← lastObservations library state activeStageIds
  pure (output, lastObs)

/-! ## Replays -/

/-- The loops start, take these steps, and have ended. -/
def completes (activeStageIds : List ℕ) (labels : List (LoopLabel A)) : Bool :=
  match start library config simulators activeStageIds with
  | .error _ => false
  | .ok state =>
    match (machine library config simulators activeStageIds).exec state
        labels with
    | none => false
    | some (_, final) =>
      final.raised.isNone && activeStageIds.all fun stageId =>
        match (final.stage stageId).phase with
        | .finished => true
        | _ => false

variable {library config simulators} in
theorem run_of_completes
    (hcompletes : completes library config simulators activeStageIds labels =
      true) :
    ∃ state events final,
      start library config simulators activeStageIds = .ok state ∧
      Transition.Run (machine library config simulators activeStageIds) state
        events final ∧
      Finished final activeStageIds := by
  unfold completes at hcompletes
  split at hcompletes
  case h_1 => cases hcompletes
  case h_2 state hstart =>
    split at hcompletes
    case h_1 => cases hcompletes
    case h_2 events final hexec =>
      rw [Bool.and_eq_true, List.all_eq_true] at hcompletes
      obtain ⟨hraised, hphases⟩ := hcompletes
      refine ⟨state, events, final, hstart,
        Transition.Machine.run_of_exec hexec,
        Option.isNone_iff_eq_none.mp hraised, ?_⟩
      intro stageId hactive
      have hphase := hphases stageId hactive
      split at hphase
      case h_1 hcase => exact hcase
      case h_2 => cases hphase

end EnvLoop

end VerlVla
