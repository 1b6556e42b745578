import VerlVla.BatchSlices
import VerlVla.FpoPreparation
import VerlVla.GaeRecursion

/-!
# Transitions of the FPO trainer

The trainer without groups reads windows whose lanes restart by themselves.
Every slot is a transition, a terminal chunk bootstraps nothing, and the rows
that fill up the last worker are invalid.
-/

namespace VerlVla
namespace FpoTrainer

open Finset

variable {ω : Type}

structure Config where
  gamma : ℚ
  gaeLambda : ℚ
  stepPenalty : ℚ

section Lane

variable (config : Config) (lane : Lane) (substeps : ℕ)

def validSubstep (step substep : ℕ) : Bool :=
  unraisedBefore (lane.done step) substep

def rewards (step : ℕ) : ℚ := ∑ substep ∈ range substeps,
      lane.reward step substep * float (validSubstep lane step substep) *
        config.gamma ^ substep -
    config.stepPenalty

def dones (step : ℕ) : ℚ := float (lane.chunkDone substeps step)

def executedSteps (step : ℕ) : ℕ :=
  ∑ substep ∈ range substeps, (validSubstep lane step substep).toNat

def discounts (rate : ℚ) (step : ℕ) : ℚ :=
  rate ^ executedSteps lane substeps step * (1 - dones lane substeps step)

def actionValids (step position : ℕ) : ℚ :=
  if position < substeps then float (validSubstep lane step position) else 0

end Lane

/-! ## The preparation of a window -/

def feedbackKeys : List String :=
  ["next.terminated", "next.truncated", "next.reward", "next.success"]

def infoFields (config : Config) (feedback : Feedback)
    (batchSize rolloutSteps substeps horizon : ℕ) :
    List (String × Tensor ℚ) :=
  let perChunk := fun value : Lane → ℕ → ℚ =>
    Tensor.matrix batchSize rolloutSteps fun trajectory step =>
      value (feedback.lane trajectory) step
  [("info.rewards", perChunk fun lane => rewards config lane substeps),
    ("info.dones", perChunk fun lane => dones lane substeps),
    ("info.discounts", perChunk fun lane =>
      discounts lane substeps config.gamma),
    ("info.gae_discounts", perChunk fun lane =>
      discounts lane substeps (config.gamma * config.gaeLambda)),
    ("info.valids", perChunk fun _ _ => 1),
    ("info.action_valids", .cube batchSize rolloutSteps horizon
      fun trajectory => actionValids (feedback.lane trajectory) substeps)]

def preparedMetaInfo (metaInfo : Dict MetaValue) (config : Config)
    (globalSteps : ℤ) (trajectories : ℕ) : Dict MetaValue :=
  metaInfo
    |>.insert "global_steps" (.integer globalSteps)
    |>.insert "gamma" (.number config.gamma)
    |>.insert "gae_lambda" (.number config.gaeLambda)
    |>.insert "global_token_num" (.integers (List.replicate trajectories 0))

def prepareFpoActorInput (rollout rolloutEndObs : DataProto ω)
    (config : Config) (globalSteps : ℤ) :
    Except (TrainingError ω) (DataProto ω) := do
  let action ← rollout.batch.fetch .missingField "action.action"
  let rolloutSteps := action.steps
  let batchSize := rollout.length
  let aligned ← (rollout.batch.keys.filter isObs).foldlM
    (alignNext batchSize rolloutSteps rolloutEndObs.batch) rollout.batch
  let alignedArrays ← (rollout.nonTensorBatch.keys.filter isObs).foldlM
    (alignNext batchSize rolloutSteps rolloutEndObs.nonTensorBatch)
    rollout.nonTensorBatch
  let terminated ← aligned.fetch .missingField "next.terminated"
  let truncated ← aligned.fetch .missingField "next.truncated"
  let reward ← aligned.fetch .missingField "next.reward"
  let success ← aligned.fetch .missingField "next.success"
  let actionSubsteps ← substepsOf "action.action" action
  let fullAction ← aligned.fetch .missingField "action.full_action"
  let horizon ← substepsOf "action.full_action" fullAction
  let rewardSubsteps ← substepsOf "next.reward" reward
  require (rewardSubsteps = actionSubsteps)
    (.rewardChunkLength rewardSubsteps actionSubsteps)
  require (actionSubsteps ≤ horizon)
    (.nativeActionHorizon horizon actionSubsteps)
  let feedback : Feedback := ⟨terminated, truncated, reward, success⟩
  let kept := aligned.restrict fun key => key ∉ feedbackKeys
  let fields := infoFields config feedback batchSize rolloutSteps
    actionSubsteps horizon
  pure
    { batch := fields.foldl (fun batch field =>
        batch.insert field.1 field.2) kept
      nonTensorBatch := alignedArrays
      metaInfo := preparedMetaInfo rollout.metaInfo config globalSteps
        batchSize }

section Padding

variable (padToDivisor : DataProto ω → ℕ → DataProto ω × ℕ)

def padWithValidMask (batch : DataProto ω) (sizeDivisor : ℕ)
    (validKey : String) : Except (TrainingError ω) (DataProto ω) :=
  let padded := (padToDivisor batch sizeDivisor).1
  let padSize := (padToDivisor batch sizeDivisor).2
  if padSize = 0 then .ok padded
  else do
    let valids ← padded.batch.fetch .missingField validKey
    pure { padded with
      batch := padded.batch.insert validKey
        (valids.zeroRowsFrom (valids.rows - padSize)) }

def prepareActorInput (rollout rolloutEndObs : DataProto ω)
    (config : Config) (globalSteps : ℤ) (worldSize : ℕ) :
    Except (TrainingError ω) (DataProto ω) := do
  let actorInput ← prepareFpoActorInput rollout rolloutEndObs config
    globalSteps
  padWithValidMask padToDivisor actorInput worldSize "info.valids"

def PadsRows : Prop :=
  ∀ (data : DataProto ω) (n sizeDivisor : ℕ), data.HasRows n →
    data.length = n → 0 < n → 0 < sizeDivisor → ∃ appended : List ℕ,
      (∀ index ∈ appended, index < n) ∧
      (padToDivisor data sizeDivisor).2 = appended.length ∧
      sizeDivisor ∣ n + appended.length ∧
      (∀ key, (padToDivisor data sizeDivisor).1.batch.lookup key =
        (data.batch.lookup key).map
          (·.selectRows (List.range n ++ appended))) ∧
      ∀ key, (padToDivisor data sizeDivisor).1.nonTensorBatch.lookup key =
        (data.nonTensorBatch.lookup key).map
          (·.selectRows (List.range n ++ appended))

end Padding

/-- The observation of a slot, under the names that the model reads. -/
def slotRow (keyOf : String → String) (data : DataProto ω)
    (lane step : ℕ) : DataProto.Row ω where
  tensors field := (data.batch.lookup (keyOf field)).map fun tensor =>
    (tensor.row lane).row step
  arrays field := (data.nonTensorBatch.lookup (keyOf field)).map
    fun array => (array.row lane).row step

section Advantages

variable (forwardValue : DataProto.Row ω → ℚ) (microBatchSize : ℕ)

def forwardOldValues (rowOf : ℕ → ℕ → DataProto.Row ω)
    (batchSize rolloutSteps : ℕ) : Tensor ℚ :=
  let flat := (List.range (batchSize * rolloutSteps)).map fun slot =>
    rowOf (slot / rolloutSteps) (slot % rolloutSteps)
  let values := (splitRows microBatchSize flat).flatMap fun microBatch =>
    microBatch.map forwardValue
  .matrix batchSize rolloutSteps fun lane step =>
    values.getD (lane * rolloutSteps + step) 0

def prepareAdvantages (data : DataProto ω) :
    Except (TrainingError ω) (Tensor ℚ × Tensor ℚ) := do
  let valids ← data.batch.fetch .missingField "info.valids"
  let rewards ← data.batch.fetch .missingField "info.rewards"
  let discounts ← data.batch.fetch .missingField "info.discounts"
  let gaeDiscounts ← data.batch.fetch .missingField "info.gae_discounts"
  let values := forwardOldValues forwardValue microBatchSize
    (slotRow obsKey data) valids.rows valids.steps
  let nextValues := forwardOldValues forwardValue microBatchSize
    (slotRow nextObsKey data) valids.rows valids.steps
  pure (computeGae rewards values nextValues discounts gaeDiscounts valids)

end Advantages

/-! ## Well-formed windows -/

/-- A window of the env loop with its final observations. -/
structure WindowShape (rollout endObs : DataProto ω)
    (batchSize steps substeps horizon : ℕ) : Prop where
  lanes : 0 < batchSize
  rows : rollout.HasRows batchSize
  action : ∃ action, rollout.batch.lookup "action.action" = some action ∧
    action.shape.take 3 = [batchSize, steps, substeps]
  fullAction : ∃ action,
    rollout.batch.lookup "action.full_action" = some action ∧
      action.shape.take 3 = [batchSize, steps, horizon]
  horizon : substeps ≤ horizon
  feedback : ∀ key ∈ feedbackKeys, ∃ tensor,
    rollout.batch.lookup key = some tensor ∧
      tensor.shape = [batchSize, steps, substeps]
  tensors : ∀ key, isObs key → (rollout.batch.lookup key).isSome →
    Alignable batchSize steps rollout.batch endObs.batch key
  arrays : ∀ key, isObs key → (rollout.nonTensorBatch.lookup key).isSome →
    Alignable batchSize steps rollout.nonTensorBatch endObs.nonTensorBatch key
  freshTensors : ∀ field, rollout.batch.lookup (nextObsKey field) = none
  freshArrays : ∀ field,
    rollout.nonTensorBatch.lookup (nextObsKey field) = none

def feedbackOf (rollout : DataProto ω) : Feedback where
  terminated := (rollout.batch.lookup "next.terminated").getD default
  truncated := (rollout.batch.lookup "next.truncated").getD default
  reward := (rollout.batch.lookup "next.reward").getD default
  success := (rollout.batch.lookup "next.success").getD default

def endRow (rollout endObs : DataProto ω) (lane : ℕ) : DataProto.Row ω where
  tensors field := if (rollout.batch.lookup (obsKey field)).isSome then
      (endObs.batch.lookup field).map (·.row lane)
    else none
  arrays field := if (rollout.nonTensorBatch.lookup (obsKey field)).isSome then
      (endObs.nonTensorBatch.lookup field).map (·.row lane)
    else none

def successor (rollout endObs : DataProto ω) (steps lane step : ℕ) :
    DataProto.Row ω :=
  if step + 1 < steps then slotRow obsKey rollout lane (step + 1)
  else endRow rollout endObs lane

end FpoTrainer
end VerlVla
