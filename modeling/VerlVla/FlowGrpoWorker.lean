import Mathlib.Algebra.Order.Floor.Semiring
import VerlVla.FpoActorInput
import VerlVla.FpoUpdate

/-!
# The Flow-GRPO worker

Every recorded transition of a policy chunk has a log ratio against the policy
that started the update.  Its likelihoods are written during the first pass over
the batch, at a row number that the batch carries through selections and splits,
and read from there once the parameters moved.
-/

namespace VerlVla

inductive FpoVariant
  | vanilla
  | fpoPlusPlus
  deriving DecidableEq

structure FlowGrpoActorConfig extends FpoActorConfig ℚ where
  fpoVariant : FpoVariant
  trustRegionMode : TrustRegionMode
  trainTransitionFraction : ℚ
  advantageClipMax : ℚ

namespace FlowGrpoActorConfig

def postInit (config : FlowGrpoActorConfig) : Except String Unit := do
  config.toFpoActorConfig.postInit
  require (config.fpoVariant = .vanilla ∧ config.trustRegionMode = .ppo)
    "Flow-GRPO has its own SDE likelihood ratio and cannot enable FPO++/ASPO."
  require (config.criticEnabled = false ∧ config.vfCoef = 0 ∧
      config.valueOnlyUpdates = 0)
    "Flow-GRPO requires critic-free group-relative advantages."
  require (config.normalizeAdvantages = false)
    "Flow-GRPO advantages are normalized once within each rollout group."
  require (0 < config.trainTransitionFraction ∧
      config.trainTransitionFraction ≤ 1)
    "Flow-GRPO train_transition_fraction must lie in (0, 1]."
  require (0 < config.advantageClipMax)
    "Flow-GRPO advantage_clip_max must be positive."
  require (2 ≤ config.updateEpochs)
    "Flow-GRPO requires update_epochs>=2 for a non-degenerate frozen-old ratio."
  require (config.fullLogicalBatchGradientAccumulation = true)
    "Fast-WAM Flow-GRPO requires full logical-batch gradient accumulation per update epoch."

theorem accepted {config : FlowGrpoActorConfig}
    (haccepted : config.postInit = .ok ()) :
    0 < config.microBatchSize ∧
      config.fullLogicalBatchGradientAccumulation = true := by
  simp only [postInit, bind_eq_ok, require_eq_ok] at haccepted
  obtain ⟨_, hbase, _, _, _, _, _, _, _, _, _, _, _, _, hfull⟩ := haccepted
  exact ⟨(FpoActorConfig.accepted hbase).1, hfull⟩

end FlowGrpoActorConfig

/-! ## Errors -/

inductive FlowGrpoError (ω : Type) where
  | training (error : TrainingError ω)
  | noTransition
  | transitionFraction
  | logProbShapes
  | actionValidsShape
  | rolloutReplayShapes
  | preflattenedAxes
  | trajectoryAxes
  | missingTransitionFields (keys : List String)
  | preflattenedLatents
  | preflattenedOldLogProbs
  | preflattenedSigmas
  | latents
  | oldLogProbs
  | sigmas
  | deltas
  | advantageSource
  | missingAdvantages
  | noReference
  | outsideEpoch
  | unfrozenSample
  | referenceShape (got expected : List ℕ)
  | tooFewSlots (needed got : ℕ)
  | noSlots

section LogRatios

variable {ω : Type}

def trainingTransitionCount (total : ℤ) (fraction : ℚ) :
    Except (FlowGrpoError ω) ℕ := do
  require (0 < total) .noTransition
  require (0 < fraction ∧ fraction ≤ 1) .transitionFraction
  pure (max 1 (truncate (total * fraction)).toNat)

/-- The mean over the executed positions, of the new values less the old. -/
def maskedDifference (horizon : ℕ) (old current mask : ℕ → ℚ) : ℚ :=
  (∑ h ∈ Finset.range horizon, (current h - old h) * mask h) /
    max (∑ h ∈ Finset.range horizon, mask h) 1

def computeFlowGrpoLogRatio (oldLogProbs currentLogProbs actionValids : Tensor ℚ) :
    Except (FlowGrpoError ω) (Tensor ℚ) := do
  require (oldLogProbs.shape = currentLogProbs.shape ∧
    oldLogProbs.shape.length = 3) .logProbShapes
  require (actionValids.shape =
    [oldLogProbs.rows, oldLogProbs.shape.getD 2 0]) .actionValidsShape
  pure (.matrix oldLogProbs.rows oldLogProbs.steps fun i t =>
    maskedDifference (oldLogProbs.shape.getD 2 0)
      (fun h => oldLogProbs.entry [i, t, h])
      (fun h => currentLogProbs.entry [i, t, h])
      (fun h => actionValids.entry [i, h]))

/-- The replay correction shifts what is evaluated now to what was recorded. -/
def correctedCurrent (rolloutOld replayOld current : Tensor ℚ) : Tensor ℚ where
  shape := current.shape
  entry index :=
    current.entry index + (rolloutOld.entry index - replayOld.entry index)

def computeReplayCalibratedFlowGrpoLogRatio
    (rolloutOld replayOld current actionValids : Tensor ℚ) :
    Except (FlowGrpoError ω) (Tensor ℚ) := do
  require (rolloutOld.shape = replayOld.shape) .rolloutReplayShapes
  computeFlowGrpoLogRatio rolloutOld
    (correctedCurrent rolloutOld replayOld current) actionValids

end LogRatios

/-! ## Frozen references -/

namespace Tensor

variable {α : Type}

/-- The first entries along the second axis. -/
def takeSteps (count : ℕ) (tensor : Tensor α) : Tensor α where
  shape := tensor.rows :: min count tensor.steps :: tensor.shape.drop 2
  entry := tensor.entry

def takeRows (count : ℕ) (tensor : Tensor α) : Tensor α where
  shape := min count tensor.rows :: tensor.shape.tail
  entry := tensor.entry

def writeRows (tensor : Tensor α) (indices : List ℕ) (rows : Tensor α) :
    Tensor α where
  shape := tensor.shape
  entry
    | r :: rest =>
      match indices.idxOf? r with
      | some i => rows.entry (i :: rest)
      | none => tensor.entry (r :: rest)
    | [] => tensor.entry []

def fillRows (indices : List ℕ) (value : α) (tensor : Tensor α) : Tensor α where
  shape := tensor.shape
  entry index := if index.getD 0 0 ∈ indices then value else tensor.entry index

end Tensor

structure FrozenReference where
  replayOldLogProbs : Tensor ℚ
  initialized : Tensor Bool
  rolloutReplayErrorStats : ℚ × ℚ × ℚ
  rolloutReplayErrorMax : ℚ

structure FlowGrpoWorker where
  reference : Option FrozenReference
  frozenReferenceValidated : Bool
  identityGateHasPassed : Bool
  activeUpdateEpoch : ℤ

/-- The observations and transitions of a row that the network reads. -/
structure FlowInput (ω : Type) where
  obs : DataProto.Row ω
  latents : Option (Tensor ℚ)
  sigmas : Option (Tensor ℚ)
  deltas : Option (Tensor ℚ)

/-- The network evaluates row by row. -/
structure FlowGrpoSetting (Θ ω : Type) where
  config : FlowGrpoActorConfig
  worldSize : ℕ
  library : TrainingLibrary ω
  flowGrpoLogProbs : Θ → FlowInput ω → ℕ → ℕ → ℚ

def flowInput {ω : Type} (count : ℕ) (row : DataProto.Row ω) : FlowInput ω where
  obs :=
    { tensors := fun field => row.tensors (obsKey field)
      arrays := fun field => row.arrays (obsKey field) }
  latents := (row.tensors "action.flow_grpo.latents").map
    (Tensor.takeRows (count + 1))
  sigmas := (row.tensors "action.flow_grpo.sigmas").map (Tensor.takeRows count)
  deltas := (row.tensors "action.flow_grpo.deltas").map (Tensor.takeRows count)

namespace FlowGrpoSetting

variable {Θ ω : Type} (setting : FlowGrpoSetting Θ ω)

/-! ## Preparing a batch -/

def requiredFields : List String :=
  ["action.flow_grpo.deltas", "action.flow_grpo.latents",
    "action.flow_grpo.old_log_probs", "action.flow_grpo.sigmas"]

def checkTransitions (slots : List ℕ) (actionHorizon actionDim : ℕ)
    (latents oldLogProbs sigmas : Tensor ℚ)
    (latentsError oldLogProbsError sigmasError : FlowGrpoError ω) :
    Except (FlowGrpoError ω) ℤ := do
  require (latents.shape.take slots.length = slots ∧
    latents.shape.drop (slots.length + 1) = [actionHorizon, actionDim])
    latentsError
  let transitionCount : ℤ := latents.shape.getD slots.length 0 - 1
  require (oldLogProbs.shape.map Int.ofNat =
    slots.map Int.ofNat ++ [transitionCount, (actionHorizon : ℤ)])
    oldLogProbsError
  require (sigmas.shape.map Int.ofNat =
    slots.map Int.ofNat ++ [transitionCount]) sigmasError
  pure transitionCount

def preflattened (data : DataProto ω) : Bool :=
  data.metaInfo.lookup "fpo_preflattened_valid_chunks" = some (.flag true)

def checkActionAxes (data : DataProto ω) :
    Except (FlowGrpoError ω) (List ℕ × ℕ × ℕ) := do
  let fullActions ← (data.batch.fetch .missingField
    "action.full_action").mapError .training
  let axes := if preflattened data then 1 else 2
  let error : FlowGrpoError ω :=
    if preflattened data then .preflattenedAxes else .trajectoryAxes
  require (fullActions.shape.length = axes + 2) error
  let valids ← (data.batch.fetch .missingField "info.valids").mapError .training
  require (valids.shape.length = axes) error
  pure (fullActions.shape.take axes, fullActions.shape.getD axes 0,
    fullActions.shape.getD (axes + 1) 0)

def checkBatch (data : DataProto ω) : Except (FlowGrpoError ω) (ℕ × ℤ) := do
  let (slots, actionHorizon, actionDim) ← checkActionAxes data
  let missing := requiredFields.filter fun key => (data.batch.lookup key).isNone
  require (missing = []) (.missingTransitionFields missing)
  let latents ← (data.batch.fetch .missingField
    "action.flow_grpo.latents").mapError .training
  let oldLogProbs ← (data.batch.fetch .missingField
    "action.flow_grpo.old_log_probs").mapError .training
  let sigmas ← (data.batch.fetch .missingField
    "action.flow_grpo.sigmas").mapError .training
  let deltas ← (data.batch.fetch .missingField
    "action.flow_grpo.deltas").mapError .training
  let transitionCount ← if preflattened data then
      checkTransitions slots actionHorizon actionDim latents oldLogProbs sigmas
        .preflattenedLatents .preflattenedOldLogProbs .preflattenedSigmas
    else
      checkTransitions slots actionHorizon actionDim latents oldLogProbs sigmas
        .latents .oldLogProbs .sigmas
  require (deltas.shape = sigmas.shape) .deltas
  require (data.metaInfo.lookup "advantage_estimator" =
    some (.text "grpo_outcome")) .advantageSource
  require ((data.batch.lookup "fpo.advantages").isSome ∧
    (data.batch.lookup "fpo.loss_weights").isSome) .missingAdvantages
  pure (actionHorizon, transitionCount)

def freshReference (uninitialized : List ℕ → ℚ)
    (slots transitions horizon : ℕ) : FrozenReference where
  replayOldLogProbs := ⟨[slots, transitions, horizon], uninitialized⟩
  initialized := ⟨[slots], fun _ => false⟩
  rolloutReplayErrorStats := (0, 0, 0)
  rolloutReplayErrorMax := 0

/-- One row for each slot of the trajectories. -/
def flatten (data : DataProto ω) : Except (FlowGrpoError ω) (DataProto ω) :=
  if preflattened data then .ok data
  else (flattenTrajectories setting.library data "action.action").mapError
    .training

/-- Number the rows of a batch and forget the references of the last one.  The
new references hold whatever their memory held. -/
def prepareTrainingBatch (uninitialized : List ℕ → ℚ) (data : DataProto ω)
    (worker : FlowGrpoWorker) :
    Except (FlowGrpoError ω) (FlowGrpoWorker × DataProto ω) := do
  let (actionHorizon, transitionCount) ← checkBatch data
  let flat ← setting.flatten data
  let trained ← trainingTransitionCount transitionCount
    setting.config.trainTransitionFraction
  let flat := { flat with
    batch := flat.batch.insert "flow_grpo.reference_index"
      (.vector flat.length fun i => (i : ℚ)) }
  pure ({ worker with
      reference := some
        (freshReference uninitialized flat.length trained actionHorizon)
      frozenReferenceValidated := false
      identityGateHasPassed := false }, flat)

/-! ## The log ratio of a micro-batch -/

structure FlowLogRatio where
  indices : List ℕ
  replayOld : Tensor ℚ
  logRatio : Tensor ℚ
  scoreDelta : Tensor ℚ
  scoreMask : Tensor Bool

/-- The differences of recorded and replayed values, where an action of a valid
row was executed. -/
def replayErrors (rolloutOld replayOld actionValids valids : Tensor ℚ) :
    List ℚ :=
  (List.range replayOld.rows).flatMap fun i =>
    (List.range replayOld.steps).flatMap fun t =>
      (List.range (replayOld.shape.getD 2 0)).filterMap fun h =>
        if actionValids.entry [i, h] ≠ 0 ∧ valids.entry [i] ≠ 0 then
          some |rolloutOld.entry [i, t, h] - replayOld.entry [i, t, h]|
        else none

def FrozenReference.freeze (reference : FrozenReference) (indices : List ℕ)
    (current : Tensor ℚ) (errors : List ℚ) : FrozenReference where
  replayOldLogProbs := reference.replayOldLogProbs.writeRows indices current
  initialized := reference.initialized.fillRows indices true
  rolloutReplayErrorStats := (reference.rolloutReplayErrorStats.1 + errors.sum,
      reference.rolloutReplayErrorStats.2.1 + (errors.map (· ^ 2)).sum,
      reference.rolloutReplayErrorStats.2.2 + errors.length)
  rolloutReplayErrorMax := errors.foldl max reference.rolloutReplayErrorMax

def FrozenReference.allInitialized (reference : FrozenReference) : Bool :=
  (List.range reference.initialized.rows).all fun i =>
    reference.initialized.entry [i]

/-- In the first epoch the references are written, and later they are read. -/
def replayOldLogProbs (worker : FlowGrpoWorker) (reference : FrozenReference)
    (indices : List ℕ) (current : Tensor ℚ) (errors : List ℚ) :
    Except (FlowGrpoError ω) (FlowGrpoWorker × Tensor ℚ) := do
  require (0 ≤ worker.activeUpdateEpoch) .outsideEpoch
  if 0 < worker.activeUpdateEpoch then
    require (worker.frozenReferenceValidated = true ∨
      FrozenReference.allInitialized reference = true) .unfrozenSample
    pure ({ worker with frozenReferenceValidated := true },
      reference.replayOldLogProbs.selectRows indices)
  else
    require (current.shape =
        indices.length :: reference.replayOldLogProbs.shape.tail)
      (.referenceShape current.shape
        (indices.length :: reference.replayOldLogProbs.shape.tail))
    pure ({ worker with
        reference := some
          (FrozenReference.freeze reference indices current errors) },
      current)

/-- What the network gives for the rows of a micro-batch now. -/
def currentLogProbs (parameters : Θ) (microBatch : DataProto ω)
    (rows count horizon : ℕ) : Tensor ℚ :=
  .cube rows count horizon fun i t h =>
    setting.flowGrpoLogProbs parameters (flowInput count (microBatch.row i)) t h

def computePolicyLogRatio (parameters : Θ) (worker : FlowGrpoWorker)
    (microBatch : DataProto ω) :
    Except (FlowGrpoError ω) (FlowGrpoWorker × FlowLogRatio) := do
  let field key := (microBatch.batch.fetch .missingField key).mapError
    (FlowGrpoError.training (ω := ω))
  let sigmas ← field "action.flow_grpo.sigmas"
  let latents ← field "action.flow_grpo.latents"
  let transitionCount ← trainingTransitionCount sigmas.steps
    setting.config.trainTransitionFraction
  let current := setting.currentLogProbs parameters microBatch sigmas.rows
    transitionCount (latents.shape.getD 2 0)
  let oldLogProbs ← field "action.flow_grpo.old_log_probs"
  let rolloutOld := oldLogProbs.takeSteps transitionCount
  match worker.reference with
  | none => .error .noReference
  | some reference =>
    let numbers ← field "flow_grpo.reference_index"
    let indices := (List.range numbers.rows).map fun i =>
      (truncate (numbers.entry [i])).toNat
    let actionValids ← field "info.action_valids"
    let valids ← field "info.valids"
    let (worker, replayOld) ← replayOldLogProbs worker reference indices
      current (replayErrors rolloutOld current actionValids valids)
    let logRatio ← computeReplayCalibratedFlowGrpoLogRatio rolloutOld replayOld
      current actionValids
    pure (worker,
      { indices, replayOld, logRatio
        scoreDelta := ⟨current.shape, fun index => rolloutOld.entry index -
          (correctedCurrent rolloutOld replayOld current).entry index⟩
        scoreMask := actionValids.map fun value => value ≠ 0 })

end FlowGrpoSetting

end VerlVla
