import VerlVla.RolloutBatch

/-!
# Policy chunks as transitions

Every observation is aligned with its successor and the low-level feedback of a
chunk is folded into one reward, one discount and masks.  Feedback after the
first terminated or truncated action of a trajectory is masked.
-/

namespace VerlVla

open Finset

variable {ω : Type}

def isObs (key : String) : Bool := "obs.".toList.isPrefixOf key.toList

def fieldOf (key : String) : String := String.ofList (key.toList.drop 4)

def obsKey (field : String) : String := "obs." ++ field

def nextObsKey (field : String) : String := "next_obs." ++ field

def isProfile (field : String) : Bool :=
  "profile.".toList.isPrefixOf field.toList

def trajectoryMetadataFields : List String :=
  ["eval_episode_id", "layout_id", "environment_seed", "policy_seed",
    "group_id", "trajectory_id", "group_key", "rollout_policy_version"]

def alignNext {α : Type} (batchSize rolloutSteps : ℕ)
    (endObs : Dict (Tensor α)) (batch : Dict (Tensor α)) (key : String) :
    Except (TrainingError ω) (Dict (Tensor α)) := do
  let field := fieldOf key
  let obs ← batch.fetch .missingField key
  let final ← endObs.fetch .missingField field
  require (obs.shape.take 2 = [batchSize, rolloutSteps] ∧
      final.shape = batchSize :: obs.shape.drop 2)
    (.observationShape key field obs.shape final.shape)
  pure (batch.insert (nextObsKey field)
    (obs.dropStep.catSteps (final.repeatStep 1)))

/-! ## The feedback of one trajectory -/

structure Lane where
  done : ℕ → ℕ → Bool
  reward : ℕ → ℕ → ℚ
  success : ℕ → ℕ → Bool

structure TrainerConfig where
  gamma : ℚ
  gaeLambda : ℚ
  stepPenalty : ℚ
  groupRewardSource : String

/-- No flag was raised before this position: the cumulative count minus the
flag itself is zero. -/
def unraisedBefore (flags : ℕ → Bool) (position : ℕ) : Bool :=
  (∑ i ∈ range (position + 1), (flags i).toNat) - (flags position).toNat = 0

def float (flag : Bool) : ℚ := if flag then 1 else 0

namespace Lane

variable (config : TrainerConfig) (lane : Lane) (substeps : ℕ)

def chunkDone (step : ℕ) : Bool := (List.range substeps).any (lane.done step)

def validChunk (step : ℕ) : Bool :=
  unraisedBefore (lane.chunkDone substeps) step

def validSubstep (step substep : ℕ) : Bool :=
  unraisedBefore (lane.done step) substep && lane.validChunk substeps step

def rewards (step : ℕ) : ℚ := ∑ substep ∈ range substeps,
      lane.reward step substep *
        float (lane.validSubstep substeps step substep) *
        config.gamma ^ substep -
    config.stepPenalty * float (lane.validChunk substeps step)

def dones (step : ℕ) : ℚ := float (lane.chunkDone substeps step) *
    float (lane.validChunk substeps step)

def executedSteps (step : ℕ) : ℕ := ∑ substep ∈ range substeps,
    (lane.validSubstep substeps step substep).toNat

def discounts (rate : ℚ) (step : ℕ) : ℚ :=
  rate ^ lane.executedSteps substeps step * ((1 - lane.dones substeps step) *
      float (lane.validChunk substeps step))

/-- The native horizon beyond the executed length stays masked. -/
def actionValids (step position : ℕ) : ℚ := if position < substeps then
    float (lane.validSubstep substeps step position)
  else 0

end Lane

/-! ## The feedback of a rollout -/

structure Feedback where
  terminated : Tensor ℚ
  truncated : Tensor ℚ
  reward : Tensor ℚ
  success : Tensor ℚ

def Feedback.lane (feedback : Feedback) (trajectory : ℕ) : Lane where
  done step substep :=
    feedback.terminated.entry [trajectory, step, substep] ≠ 0 ∨
      feedback.truncated.entry [trajectory, step, substep] ≠ 0
  reward step substep := feedback.reward.entry [trajectory, step, substep]
  success step substep :=
    feedback.success.entry [trajectory, step, substep] ≠ 0

def flattenTail (tensor : Tensor ℚ) : Tensor ℚ where
  shape := [tensor.rows, tensor.shape.tail.prod]
  entry
    | i :: j :: _ => tensor.entry (i :: Tensor.unravel tensor.shape.tail j)
    | index => tensor.entry index

def anyOf (tensor : Tensor ℚ) (trajectory : ℕ) : Bool :=
  (List.range (flattenTail tensor).steps).any fun position =>
    (flattenTail tensor).entry [trajectory, position] ≠ 0

/-- The first flagged position, or the last position without one. -/
def terminalIndex (flags : ℕ → Bool) (count : ℕ) : ℕ :=
  ((List.range count).find? flags).getD (count - 1)

def terminalScore (scores terminated truncated : Tensor ℚ)
    (trajectory : ℕ) : ℚ :=
  (flattenTail scores).entry [trajectory, terminalIndex (fun position =>
      (flattenTail terminated).entry [trajectory, position] ≠ 0 ∨
        (flattenTail truncated).entry [trajectory, position] ≠ 0)
    (flattenTail scores).steps]

def terminalTrajectoryScores (rollout : Dict (Tensor ℚ)) :
    Except (TrainingError ω) (ℕ → ℚ) := do
  let scores ← rollout.fetch (fun _ => .processScoreMissing) "next.score"
  let terminated ← rollout.fetch .missingField "next.terminated"
  let truncated ← rollout.fetch .missingField "next.truncated"
  require ((flattenTail scores).shape = (flattenTail terminated).shape)
    (.scoreShape (flattenTail scores).shape (flattenTail terminated).shape)
  pure (terminalScore scores terminated truncated)

def successScores (rollout : Dict (Tensor ℚ)) :
    Except (TrainingError ω) (ℕ → ℚ) := do
  let success ← rollout.fetch .missingField "next.success"
  pure fun trajectory => float (anyOf success trajectory)

def processScores (rollout : Dict (Tensor ℚ)) :
    Except (TrainingError ω) (ℕ → ℚ) :=
  if (rollout.lookup "next.score").isSome then
    terminalTrajectoryScores rollout
  else successScores rollout

def trajectoryProcessScore (scores : ℕ → ℚ) (success : Tensor ℚ)
    (trajectory : ℕ) : ℚ :=
  if anyOf success trajectory then 1 else scores trajectory

def infoFields (config : TrainerConfig) (feedback : Feedback)
    (scores : ℕ → ℚ) (batchSize rolloutSteps substeps horizon : ℕ) :
    List (String × Tensor ℚ) :=
  let perChunk := fun value : Lane → ℕ → ℚ =>
    Tensor.matrix batchSize rolloutSteps fun trajectory step =>
      value (feedback.lane trajectory) step
  [("info.rewards", perChunk fun lane => lane.rewards config substeps),
    ("info.dones", perChunk fun lane => lane.dones substeps),
    ("info.durations", perChunk fun lane step =>
      lane.executedSteps substeps step),
    ("info.discounts", perChunk fun lane =>
      lane.discounts substeps config.gamma),
    ("info.gae_discounts", perChunk fun lane =>
      lane.discounts substeps (config.gamma * config.gaeLambda)),
    ("info.valids", perChunk fun lane step =>
      float (lane.validChunk substeps step)),
    ("info.action_valids", .cube batchSize rolloutSteps horizon
      fun trajectory => (feedback.lane trajectory).actionValids substeps),
    ("info.trajectory_outcome", .vector batchSize fun trajectory =>
      float (anyOf feedback.success trajectory)),
    ("info.trajectory_process_score", .vector batchSize
      (trajectoryProcessScore scores feedback.success))]

def feedbackKeys : List String :=
  ["next.terminated", "next.truncated", "next.reward", "next.success",
    "next.score"]

/-- The size of the third axis. -/
def substepsOf (key : String) (tensor : Tensor ℚ) :
    Except (TrainingError ω) ℕ :=
  match tensor.shape[2]? with
  | some size => .ok size
  | none => .error (.tooFewAxes key)

def preparedMetaInfo (metaInfo : Dict MetaValue) (config : TrainerConfig)
    (globalSteps : ℤ) (trajectories : ℕ) : Dict MetaValue :=
  metaInfo
    |>.insert "global_steps" (.integer globalSteps)
    |>.insert "gamma" (.number config.gamma)
    |>.insert "gae_lambda" (.number config.gaeLambda)
    |>.insert "global_token_num" (.integers (List.replicate trajectories 0))

def prepareFpoActorInput (rollout rolloutEndObs : DataProto ω)
    (config : TrainerConfig) (globalSteps : ℤ) :
    Except (TrainingError ω) (DataProto ω) := do
  let action ← rollout.batch.fetch .missingField "action.action"
  let rolloutSteps := action.steps
  let batchSize := rollout.length
  let policyBatch := rollout.batch.restrict fun key =>
    ¬(isObs key ∧ isProfile (fieldOf key))
  let aligned ← (policyBatch.keys.filter isObs).foldlM
    (alignNext batchSize rolloutSteps rolloutEndObs.batch) policyBatch
  let alignedArrays ← (rollout.nonTensorBatch.keys.filter fun key =>
      isObs key ∧ fieldOf key ∉ trajectoryMetadataFields).foldlM
    (alignNext batchSize rolloutSteps rolloutEndObs.nonTensorBatch)
    rollout.nonTensorBatch
  require (config.groupRewardSource = "process_score" →
    (aligned.lookup "next.score").isSome) .processScoreMissing
  let scores ← processScores aligned
  let terminated ← aligned.fetch .missingField "next.terminated"
  let truncated ← aligned.fetch .missingField "next.truncated"
  let reward ← aligned.fetch .missingField "next.reward"
  let success ← aligned.fetch .missingField "next.success"
  let actionSubsteps ← substepsOf "action.action" action
  let fullAction ← aligned.fetch .missingField "action.full_action"
  let horizon ← substepsOf "action.full_action" fullAction
  let rewardSubsteps ← substepsOf "next.reward" reward
  require (rewardSubsteps = actionSubsteps)
    (.rewardChunkLength rewardSubsteps actionSubsteps)
  require (actionSubsteps ≤ horizon)
    (.nativeActionHorizon horizon actionSubsteps)
  let feedback : Feedback := ⟨terminated, truncated, reward, success⟩
  let kept := aligned.restrict fun key => key ∉ feedbackKeys
  let fields := infoFields config feedback scores batchSize rolloutSteps
    actionSubsteps horizon
  pure
    { batch := fields.foldl (fun batch field =>
        batch.insert field.1 field.2) kept
      nonTensorBatch := alignedArrays
      metaInfo := preparedMetaInfo rollout.metaInfo config globalSteps
        batchSize }

/-- The rewards that group validation records before any padding. -/
def groupTrainingRewards (rollout : Dict (Tensor ℚ)) (groupSize : ℕ)
    (rewardSource : String) : Except (TrainingError ω) (List ℚ) := do
  let success ← rollout.fetch .missingField "next.success"
  let scores ←
    if rewardSource = "process_score" then terminalTrajectoryScores rollout
    else processScores rollout
  pure ((List.range groupSize).map fun trajectory =>
    if rewardSource = "binary_success" then
      float (anyOf success trajectory)
    else trajectoryProcessScore scores success trajectory)

end VerlVla
