import Mathlib.Algebra.Order.Ring.Abs
import VerlVla.RolloutBatch

/-!
# Group-relative advantages and hierarchical weights

The outcomes of every accepted group are normalised by the training library and
compared with what the collector recorded.  The loss weight of a chunk is the
product of a chunk, a trajectory and a group scale.
-/

namespace VerlVla

open List

variable {ω : Type}

structure GroupKey where
  taskId : ℤ
  normalizedInstruction : String
  suiteId : ℤ
  layoutId : ℤ
  environmentSeed : ℤ
  deriving DecidableEq

structure GroupRecord (ω : Type) where
  groupId : ω
  groupKey : Option GroupKey
  rolloutPolicyVersion : ℤ
  rewardVector : Option (List ℚ)
  mixed : Bool
  taskName : Option String
  successes : Option ℤ
  partialOnlyCount : Option ℤ
  informativeReason : Option String

structure GroupDiagnostics (ω : Type) where
  groupId : ω
  groupKey : Option GroupKey
  layout : ℤ
  rewardSource : String
  rewardVector : List ℚ
  successes : ℤ
  partialOnlyCount : ℤ
  informativeReason : Option String
  advantageVector : List ℚ
  rewardMean : ℚ
  rewardStd : ℚ
  advantageMean : ℚ
  advantageStd : ℚ

structure AdvantageDiagnostics (ω : Type) where
  rewardMean : ℚ
  rewardStd : ℚ
  advantageMean : ℚ
  advantageStd : ℚ
  fractionNonzeroAdvantageSamples : ℚ
  fractionZeroVarianceGroups : ℚ
  fractionAllSuccessGroups : ℚ
  fractionAllFailureGroups : ℚ
  trajectoryAdvantages : List ℚ
  groups : List (GroupDiagnostics ω)

def mean (values : List ℚ) : ℚ := values.sum / values.length

def fraction {α : Type} (items : List α) (condition : α → Bool) : ℚ :=
  items.countP condition / items.length

/-- Closeness as the tensor library decides it. -/
def isclose (value other atol rtol : ℚ) : Prop :=
  |value - other| ≤ atol + rtol * |other|

instance (value other atol rtol : ℚ) :
    Decidable (isclose value other atol rtol) :=
  inferInstanceAs (Decidable (_ ≤ _))

def defaultRtol : ℚ := 1 / 100000

/-! ## Outcomes -/

def groupSlice (values : Tensor ℚ) (groupIndex groupSize : ℕ) : List ℚ :=
  (range groupSize).map fun i =>
    values.entry [groupIndex * groupSize + i]

def assembledRecords (groupRecord : Option (GroupRecord ω))
    (groupRecords : Option (List (GroupRecord ω))) : List (GroupRecord ω) :=
  match groupRecord with
  | some record => [record]
  | none => groupRecords.getD []

def rewardKey (rewardSource : String) : String :=
  if rewardSource = "binary_success" then "info.trajectory_outcome"
  else "info.trajectory_process_score"

/-- The group ids observed at the first slot, when the rollout carries them. -/
def groupIdsAgree [DecidableEq ω] (data : DataProto ω)
    (groupIds : List ω) : Bool :=
  match data.nonTensorBatch.lookup "obs.group_id" with
  | none => true
  | some observed =>
    if 1 < observed.shape.length then
      observed.rows :: observed.shape.drop 2 = [groupIds.length] ∧
        (range observed.rows).map (fun i => observed.entry [i, 0]) = groupIds
    else
      observed.shape = [groupIds.length] ∧
        (range observed.rows).map (fun i => observed.entry [i]) = groupIds

def checkNormalized (rewardSource : String) (record : GroupRecord ω)
    (groupOutcomes groupAdvantages : List ℚ) :
    Except (TrainingError ω) Unit :=
  if rewardSource = "binary_success" ∧ record.mixed then do
    let trajectories := groupOutcomes.zip groupAdvantages
    require (∀ trajectory ∈ trajectories,
      trajectory.1 ≠ 0 → 0 < trajectory.2) .successWithoutPositiveAdvantage
    require (∀ trajectory ∈ trajectories,
      trajectory.1 = 0 → trajectory.2 < 0) .failureWithoutNegativeAdvantage
    require (isclose (mean groupAdvantages) 0 (1 / 1000000) defaultRtol)
      (.advantagesNotNormalized record.groupId)
  else .ok ()

def checkGroup (library : TrainingLibrary ω) (rewardSource : String)
    (groupSize : ℕ) (outcomes advantages : Tensor ℚ)
    (entry : GroupRecord ω × ℕ) :
    Except (TrainingError ω) (GroupDiagnostics ω) := do
  let record := entry.1
  let groupOutcomes := groupSlice outcomes entry.2 groupSize
  let groupAdvantages := groupSlice advantages entry.2 groupSize
  let recordedRewards := record.rewardVector.getD groupOutcomes
  require (recordedRewards.length = groupOutcomes.length ∧
      ∀ rewards ∈ recordedRewards.zip groupOutcomes,
        isclose rewards.1 rewards.2 (1 / 10000000) 0)
    (.rewardsDisagree record.groupId)
  checkNormalized rewardSource record groupOutcomes groupAdvantages
  pure
    { groupId := record.groupId
      groupKey := record.groupKey
      layout := record.groupKey.elim (-1) (·.layoutId)
      rewardSource := rewardSource
      rewardVector := groupOutcomes
      successes := record.successes.getD 0
      partialOnlyCount := record.partialOnlyCount.getD 0
      informativeReason := record.informativeReason
      advantageVector := groupAdvantages
      rewardMean := mean groupOutcomes
      rewardStd := library.std groupOutcomes
      advantageMean := mean groupAdvantages
      advantageStd := library.std groupAdvantages }

structure OutcomeAdvantages (ω : Type) where
  records : List (GroupRecord ω)
  outcomes : Tensor ℚ
  advantages : Tensor ℚ
  groups : List (GroupDiagnostics ω)

/-- The checks and advantages before the loss weights are built. -/
def outcomeAdvantages [DecidableEq ω] (library : TrainingLibrary ω)
    (actorInput : DataProto ω) (groupRecord : Option (GroupRecord ω))
    (groupRecords : Option (List (GroupRecord ω))) (groupSize : ℕ)
    (rewardSource acceptedGroupReduction : String) :
    Except (TrainingError ω) (OutcomeAdvantages ω) := do
  require (groupRecord.isNone ≠ groupRecords.isNone) .recordsAmbiguous
  let records := assembledRecords groupRecord groupRecords
  require (acceptedGroupReduction = "group_equal" ∨
      acceptedGroupReduction = "task_equal")
    (.unknownReduction acceptedGroupReduction)
  let expectedTrajectories := records.length * groupSize
  require (actorInput.length = expectedTrajectories)
    (.trajectoryCount expectedTrajectories records.length groupSize
      actorInput.length)
  let policyVersions := (records.map (·.rolloutPolicyVersion)).dedup
  require (policyVersions.length = 1) (.mixedPolicyVersions policyVersions)
  let groupIds := records.flatMap fun record =>
    replicate groupSize record.groupId
  require (groupIdsAgree actorInput groupIds) .groupIdsDisagree
  let outcomes ← actorInput.batch.fetch
    (.rewardFieldMissing rewardSource) (rewardKey rewardSource)
  require (outcomes.shape = [expectedTrajectories])
    (.outcomeShape expectedTrajectories outcomes.shape)
  let scalarAdvantages := library.computeGrpoOutcomeAdvantage
    (.matrix expectedTrajectories 1 fun i _ => outcomes.entry [i])
    (.matrix expectedTrajectories 1 fun _ _ => 1) groupIds
  let trajectoryAdvantages := Tensor.vector expectedTrajectories fun i =>
    scalarAdvantages.entry [i, 0]
  let groups ← records.zipIdx.mapM
    (checkGroup library rewardSource groupSize outcomes trajectoryAdvantages)
  pure
    { records := records
      outcomes := outcomes
      advantages := trajectoryAdvantages
      groups := groups }

/-! ## Loss weights -/

def validChunks (valids : Tensor ℚ) (trajectory : ℕ) : ℚ :=
  ∑ step ∈ Finset.range valids.steps, valids.entry [trajectory, step]

def trajectoryBalancedWeight (valids : Tensor ℚ) (trajectory step : ℕ) : ℚ :=
  valids.entry [trajectory, step] / validChunks valids trajectory

def groupScales (records : List (GroupRecord ω))
    (acceptedGroupReduction : String) :
    Except (TrainingError ω) (List ℚ) :=
  if acceptedGroupReduction = "task_equal" then do
    require (∀ record ∈ records, record.taskName.getD "" ≠ "") .taskNameMissing
    let taskNames := records.map (·.taskName.getD "")
    pure (taskNames.map fun taskName => 1 / taskNames.count taskName)
  else .ok (records.map fun _ => 1)

def lossWeight (valids : Tensor ℚ) (scales : List ℚ)
    (groupSize trajectory step : ℕ) : ℚ :=
  trajectoryBalancedWeight valids trajectory step *
    scales.getD (trajectory / groupSize) 0

def groupWeightSum (valids : Tensor ℚ) (scales : List ℚ)
    (groupSize group : ℕ) : ℚ :=
  ∑ i ∈ Finset.range groupSize, ∑ step ∈ Finset.range valids.steps,
    lossWeight valids scales groupSize (group * groupSize + i) step

def taskGroupCounts (records : List (GroupRecord ω))
    (acceptedGroupReduction : String) : List (String × ℕ) :=
  if acceptedGroupReduction = "task_equal" then
    let taskNames := records.map (·.taskName.getD "")
    taskNames.eraseDups.map fun taskName =>
      (taskName, taskNames.count taskName)
  else []

def taskWeightSum (records : List (GroupRecord ω)) (valids : Tensor ℚ)
    (scales : List ℚ) (groupSize : ℕ) (taskName : String) : ℚ :=
  ((range records.length).filter fun group =>
    (records.map (·.taskName.getD "")).getD group "" = taskName)
      |>.map (groupWeightSum valids scales groupSize) |>.sum

def checkTaskWeight (records : List (GroupRecord ω)) (valids : Tensor ℚ)
    (scales : List ℚ) (groupSize : ℕ) (task : String × ℕ) :
    Except (TrainingError ω) Unit :=
  let weightSum := taskWeightSum records valids scales groupSize task.1
  require (isclose weightSum groupSize (1 / 100000) 0)
    (.taskWeight task.1 weightSum groupSize)

def hierarchicalWeights (actorInput : DataProto ω)
    (records : List (GroupRecord ω)) (groupSize : ℕ)
    (acceptedGroupReduction : String) :
    Except (TrainingError ω) (Tensor ℚ × Tensor ℚ) := do
  let valids ← actorInput.batch.fetch .missingField "info.valids"
  require (∀ trajectory ∈ range valids.rows,
    0 < validChunks valids trajectory) .trajectoryWithoutValidChunk
  require (∀ trajectory ∈ range valids.rows,
    isclose (∑ step ∈ Finset.range valids.steps,
      trajectoryBalancedWeight valids trajectory step) 1
      (1 / 1000000) defaultRtol) .trajectoryWeight
  let scales ← groupScales records acceptedGroupReduction
  require (∀ group ∈ range records.length,
    isclose (groupWeightSum valids scales groupSize group)
      (scales.getD group 0 * groupSize) (1 / 1000000) defaultRtol)
    .groupWeights
  (taskGroupCounts records acceptedGroupReduction).forM
    (checkTaskWeight records valids scales groupSize)
  pure (valids, .matrix valids.rows valids.steps
    (lossWeight valids scales groupSize))

/-! ## The actor input -/

def reductionText (acceptedGroupReduction : String) : String :=
  if acceptedGroupReduction = "task_equal" then
    "mean_task(mean_group_within_task(mean_trajectory(mean_valid_chunk(loss))))"
  else "mean_group(mean_trajectory(mean_valid_chunk(loss)))"

def advantageMetaInfo (metaInfo : Dict MetaValue)
    (records : List (GroupRecord ω)) (groupSize : ℕ)
    (rewardSource acceptedGroupReduction : String) : Dict MetaValue :=
  metaInfo
    |>.insert "advantage_estimator" (.text "grpo_outcome")
    |>.insert "group_reward_source" (.text rewardSource)
    |>.insert "accepted_group_reduction" (.text acceptedGroupReduction)
    |>.insert "critic_enabled" (.flag false)
    |>.insert "rollout_policy_version"
      (.integer ((records.map (·.rolloutPolicyVersion)).headD 0))
    |>.insert "accepted_groups" (.integer records.length)
    |>.insert "accepted_training_trajectories"
      (.integer (records.length * groupSize : ℕ))
    |>.insert "reduction" (.text (reductionText acceptedGroupReduction))
    |>.insert "task_group_counts"
      (.counts (taskGroupCounts records acceptedGroupReduction))

def weightedBatch (batch : Dict (Tensor ℚ))
    (advantages valids lossWeights : Tensor ℚ) : Dict (Tensor ℚ) :=
  batch
    |>.insert "fpo.trajectory_group_advantage" advantages
    |>.insert "fpo.advantages" (.matrix valids.rows valids.steps
      fun trajectory step =>
        advantages.entry [trajectory] * valids.entry [trajectory, step])
    |>.insert "fpo.loss_weights" lossWeights

def advantageDiagnostics (library : TrainingLibrary ω)
    (outcome : OutcomeAdvantages ω) (groupSize : ℕ) :
    AdvantageDiagnostics ω :=
  let trajectories := outcome.records.length * groupSize
  let outcomes := (range trajectories).map fun i =>
    outcome.outcomes.entry [i]
  let advantages := (range trajectories).map fun i =>
    outcome.advantages.entry [i]
  { rewardMean := mean outcomes
    rewardStd := mean (outcome.groups.map (·.rewardStd))
    advantageMean := mean advantages
    advantageStd := library.std advantages
    fractionNonzeroAdvantageSamples := fraction advantages (· ≠ 0)
    fractionZeroVarianceGroups := fraction outcome.groups (·.rewardStd = 0)
    fractionAllSuccessGroups :=
      fraction outcome.groups (·.successes = groupSize)
    fractionAllFailureGroups := fraction outcome.groups (·.successes = 0)
    trajectoryAdvantages := advantages
    groups := outcome.groups }

def applyGrpoOutcomeAdvantages [DecidableEq ω] (library : TrainingLibrary ω)
    (actorInput : DataProto ω) (groupRecord : Option (GroupRecord ω))
    (groupRecords : Option (List (GroupRecord ω))) (groupSize : ℕ)
    (rewardSource acceptedGroupReduction : String) :
    Except (TrainingError ω) (DataProto ω × AdvantageDiagnostics ω) := do
  let outcome ← outcomeAdvantages library actorInput groupRecord groupRecords
    groupSize rewardSource acceptedGroupReduction
  let (valids, lossWeights) ← hierarchicalWeights actorInput outcome.records
    groupSize acceptedGroupReduction
  pure ({ actorInput with
        batch := weightedBatch actorInput.batch outcome.advantages valids
          lossWeights
        metaInfo := advantageMetaInfo actorInput.metaInfo outcome.records
          groupSize rewardSource acceptedGroupReduction },
      advantageDiagnostics library outcome groupSize)

/-! ## Disagreeing rewards -/

section Disagree

variable {library : TrainingLibrary ω} {actorInput : DataProto ω}
  {groupRecord : Option (GroupRecord ω)}
  {groupRecords : Option (List (GroupRecord ω))} {groupSize : ℕ}
  {rewardSource acceptedGroupReduction : String} {groupId : ω}

theorem checkNormalized_ne_rewardsDisagree (record : GroupRecord ω)
    (outcomes advantages : List ℚ) :
    checkNormalized rewardSource record outcomes advantages ≠
      .error (.rewardsDisagree groupId) := by
  intro herror
  unfold checkNormalized at herror
  split_ifs at herror
  simp only [bind_eq_error, require_eq_error, reduceCtorEq, and_false,
    exists_false, or_false] at herror

theorem rewards_ne_of_checkGroup
    (herror : checkGroup library rewardSource groupSize outcomes advantages
      entry = .error (.rewardsDisagree groupId)) :
    entry.1.rewardVector ≠ some (groupSlice outcomes entry.2 groupSize) := by
  intro hrecorded
  simp only [checkGroup, bind_eq_error, require_eq_error] at herror
  rcases herror with ⟨hdisagree, _⟩ | ⟨_, _, hnormalized | ⟨_, _, hpure⟩⟩
  · apply hdisagree
    rw [hrecorded, Option.getD_some]
    refine ⟨rfl, ?_⟩
    intro rewards hrewards
    obtain ⟨i, hi, hpair⟩ := mem_iff_getElem.mp hrewards
    rw [getElem_zip] at hpair
    rw [← hpair]
    simp [isclose]
  · exact checkNormalized_ne_rewardsDisagree _ _ _ hnormalized
  · cases hpure

theorem hierarchicalWeights_ne_rewardsDisagree
    (records : List (GroupRecord ω)) :
    hierarchicalWeights actorInput records groupSize acceptedGroupReduction ≠
      .error (.rewardsDisagree groupId) := by
  intro herror
  have hscales : groupScales records acceptedGroupReduction ≠
      .error (.rewardsDisagree groupId) := by
    intro hscale
    unfold groupScales at hscale
    split_ifs at hscale
    simp only [bind_eq_error, require_eq_error, reduceCtorEq, and_false,
      exists_false, or_false, pure, Except.pure] at hscale
  simp only [hierarchicalWeights, bind_eq_error, require_eq_error,
    Dict.fetch_eq_error, reduceCtorEq, and_false, false_or, hscales, pure,
    Except.pure, or_false, exists_false] at herror
  obtain ⟨_, _, _, _, _, _, _, _, _, _, htasks⟩ := herror
  obtain ⟨task, _, hweight⟩ := forM_eq_error htasks
  simp only [checkTaskWeight, require_eq_error, reduceCtorEq,
    and_false] at hweight

theorem rewards_ne_of_disagree [DecidableEq ω]
    (herror : applyGrpoOutcomeAdvantages library actorInput groupRecord
      groupRecords groupSize rewardSource acceptedGroupReduction =
        .error (.rewardsDisagree groupId)) :
    ∃ outcomes record index,
      actorInput.batch.lookup (rewardKey rewardSource) = some outcomes ∧
      (assembledRecords groupRecord groupRecords)[index]? = some record ∧
      record.rewardVector ≠ some (groupSlice outcomes index groupSize) := by
  simp only [applyGrpoOutcomeAdvantages, bind_eq_error,
    hierarchicalWeights_ne_rewardsDisagree, pure, Except.pure,
    reduceCtorEq, and_false, exists_false, or_false] at herror
  simp only [outcomeAdvantages, bind_eq_error, require_eq_error,
    Dict.fetch_eq_error, Dict.fetch_eq_ok, reduceCtorEq, and_false, false_or,
    pure, Except.pure, exists_false, or_false] at herror
  obtain ⟨_, _, _, _, _, _, _, _, _, _, outcomes, hlookup, _, _, hgroups⟩ :=
    herror
  obtain ⟨entry, hentry, hfailed⟩ := mapM_eq_error hgroups
  exact ⟨outcomes, entry.1, entry.2, hlookup,
    mem_zipIdx_iff_getElem?.mp hentry, rewards_ne_of_checkGroup hfailed⟩

end Disagree

end VerlVla
