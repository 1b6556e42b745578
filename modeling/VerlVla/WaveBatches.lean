import Mathlib.Algebra.Group.Action.Defs
import VerlVla.CrashSafety

/-!
# Batches as functions of the wave

When one reset wave is one row of schedule slots, a batch depends on the
cluster only through the wave the cluster stands at.
-/

namespace VerlVla

variable {config : GrfpoConfig}

/-- Every row of schedule slots is collected in one reset wave. -/
def GrfpoConfig.SingleWave (config : GrfpoConfig) : Prop :=
  config.topology.parallelWidth = config.groupsPerWave * config.groupSize

theorem length_trainDraw (robodojo : RoboDojoConfig)
    (topology : EnvTopology) (slot : EnvSlot) (cursor : ℕ) :
    (CaseState.trainDraw robodojo topology slot cursor).length =
      topology.numEnvs := by
  unfold CaseState.trainDraw CaseState.nextCases
  split_ifs <;> simp [EnvTopology.absoluteIndices]

theorem length_waveAt (robodojo : RoboDojoConfig) (topology : EnvTopology)
    (wave : ℕ) :
    (waveAt robodojo topology wave).length = topology.parallelWidth := by
  simp only [waveAt, EnvTopology.stageMajor, List.length_flatMap,
    length_trainDraw, List.map_const', List.sum_replicate,
    List.length_range, smul_eq_mul, EnvTopology.parallelWidth]
  ring

theorem map_bind_ok {ε α β γ : Type} (first : Except ε α)
    (rest : α → Except ε β) (f : β → γ) :
    (first >>= rest).map f = first >>= fun value => (rest value).map f := by
  cases first <;> rfl

theorem map_mapError {ε δ α β : Type} (first : Except ε α) (f : α → β)
    (g : ε → δ) : (first.map f).mapError g = (first.mapError g).map f := by
  cases first <;> rfl

section Collect

variable (config) (informative : ℕ → Bool) (count : ℕ)

def concurrentGroups (wave : List SelectedCase) :
    Except CollectError (List CollectedGroup) := do
  require (count % config.groupsPerStage = 0)
    (.incompleteStageRows count config.groupsPerStage)
  let activeStages := count / config.groupsPerStage
  require (1 ≤ activeStages ∧ activeStages ≤ config.topology.stageNum)
    (.exceedsPipeline activeStages config.topology.stageNum)
  let rows := EnvCluster.activeRows config.topology (some activeStages) wave
  require (rows.length = count * config.groupSize)
    (.wrongTrajectoryCount (count * config.groupSize) rows.length)
  let groups ← (List.range count).mapM fun index =>
    validateSameConditionGroup config
      (block config.groupSize index rows) (informative index)
  require (contiguousSeeds (groups.flatMap (·.policySeeds)) = true)
    .seedsNotContiguous
  return groups

/-- The groups of a batch, from the rows of a wave. -/
def groupsOfWave (wave : List SelectedCase) :
    Except TrainerError (List CollectedGroup) :=
  if 1 < config.topology.stageNum ∨ 1 < config.groupsPerStage then
    (concurrentGroups config informative count wave).mapError .collect
  else do
    require (count = 1) .concurrencyNeedsPipeline
    ((validateSameConditionGroup config wave (informative 0)).map
      fun group => [group]).mapError .collect

def batchOfWave (slot : ℕ) (wave : List SelectedCase) :
    Except TrainerError (List (CollectedGroup × ℤ)) := do
  let planned ← (plannedLayouts config.robodojo.trainLayoutSchedule slot
    count).mapError .schedule
  let groups ← groupsOfWave config informative count wave
  require (groups.length = count) (.wrongGroupCount count groups.length)
  return groups.zip planned

end Collect

section Stands

variable {informative : ℕ → Bool} {count wave : ℕ}
  {cluster : EnvCluster config.topology}

theorem collectCandidateGroups_stands
    (hstands : cluster.StandsAt config.robodojo wave) :
    ∃ next : EnvCluster config.topology,
      next.StandsAt config.robodojo (wave + 1) ∧
      next.resetFuture.isSome ∧
      collectCandidateGroups config informative count cluster =
        (concurrentGroups config informative count
          (waveAt config.robodojo config.topology wave)).map
            fun groups => (groups, next) := by
  have hspec := EnvCluster.rollout_spec hstands
    (some (count / config.groupsPerStage))
  refine ⟨_, hspec.2.1, hspec.2.2, ?_⟩
  unfold collectCandidateGroups concurrentGroups
  simp only [map_bind_ok, hspec.1]
  rfl

theorem collectCandidateGroup_stands
    (hwidth : config.topology.parallelWidth = config.groupSize)
    (hstands : cluster.StandsAt config.robodojo wave) :
    ∃ next : EnvCluster config.topology,
      next.StandsAt config.robodojo (wave + 1) ∧
      next.resetFuture.isSome ∧
      collectCandidateGroup config informative cluster =
        (validateSameConditionGroup config
          (waveAt config.robodojo config.topology wave)
          (informative 0)).map fun group => ([group], next) := by
  have hspec := EnvCluster.rollout_spec hstands none
  have hlength : (cluster.rollout config.robodojo none).1.length =
      config.groupSize := by
    rw [hspec.1]
    exact (length_waveAt _ _ _).trans hwidth
  have hsize := config.groupSize_gt
  have hrows : collectWaves config config.groupSize [] cluster =
      .ok (cluster.rollout config.robodojo none) := by
    obtain ⟨fuel, hfuel⟩ : ∃ fuel, config.groupSize = fuel + 2 :=
      ⟨config.groupSize - 2, by omega⟩
    rw [hfuel, collectWaves]
    rw [if_pos (by simp only [List.length_nil]; omega), require_bind_eq_ok]
    refine ⟨by simp only [List.length_nil]; omega, ?_⟩
    rw [List.nil_append, collectWaves, if_neg (by omega)]
  refine ⟨_, hspec.2.1, hspec.2.2, ?_⟩
  unfold collectCandidateGroup
  rw [hrows]
  have hwave : (cluster.rollout config.robodojo none).1 =
      waveAt config.robodojo config.topology wave := hspec.1
  change (validateSameConditionGroup config
    (cluster.rollout config.robodojo none).1 (informative 0) >>= _) = _
  rw [hwave]
  cases validateSameConditionGroup config
    (waveAt config.robodojo config.topology wave) (informative 0) <;> rfl

theorem collectGroups_stands (hsingle : config.SingleWave)
    (hstands : cluster.StandsAt config.robodojo wave) :
    ∃ next : EnvCluster config.topology,
      next.StandsAt config.robodojo (wave + 1) ∧
      next.resetFuture.isSome ∧
      collectGroups config informative count cluster =
        (groupsOfWave config informative count
          (waveAt config.robodojo config.topology wave)).map
            fun groups => (groups, next) := by
  unfold collectGroups groupsOfWave
  by_cases hconcurrent :
      1 < config.topology.stageNum ∨ 1 < config.groupsPerStage
  · simp only [if_pos hconcurrent]
    obtain ⟨next, hnext, hfuture, hgroups⟩ :=
      @collectCandidateGroups_stands config informative count wave cluster
        hstands
    refine ⟨next, hnext, hfuture, ?_⟩
    rw [hgroups, map_mapError]
  · simp only [if_neg hconcurrent]
    have hwidth : config.topology.parallelWidth = config.groupSize := by
      have hpositive := config.groupsPerWave_pos
      have hone : config.groupsPerWave = 1 := by
        unfold GrfpoConfig.groupsPerWave at hpositive ⊢
        have hstage := Nat.pos_of_mul_pos_right hpositive
        have hgroups := Nat.pos_of_mul_pos_left hpositive
        have hstageOne : config.topology.stageNum = 1 := by omega
        have hgroupsOne : config.groupsPerStage = 1 := by omega
        rw [hstageOne, hgroupsOne]
      rw [hsingle, hone, one_mul]
    obtain ⟨next, hnext, hfuture, hgroups⟩ :=
      @collectCandidateGroup_stands config informative wave cluster hwidth
        hstands
    refine ⟨next, hnext, hfuture, ?_⟩
    rw [hgroups, map_bind_ok, ← map_mapError]
    cases validateSameConditionGroup config
      (waveAt config.robodojo config.topology wave) (informative 0) <;> rfl

theorem collectBatch_stands (hsingle : config.SingleWave) (slot : ℕ)
    (hstands : cluster.StandsAt config.robodojo wave) :
    ∃ next : EnvCluster config.topology,
      next.StandsAt config.robodojo (wave + 1) ∧
      next.resetFuture.isSome ∧
      collectBatch config informative slot count cluster =
        (batchOfWave config informative count slot
          (waveAt config.robodojo config.topology wave)).map
            fun batch => (batch, next) := by
  obtain ⟨next, hnext, hfuture, hgroups⟩ :=
    @collectGroups_stands config informative count wave cluster hsingle hstands
  refine ⟨next, hnext, hfuture, ?_⟩
  unfold collectBatch batchOfWave
  rw [hgroups]
  simp only [map_bind_ok]
  congr 1
  funext planned
  cases groupsOfWave config informative count
    (waveAt config.robodojo config.topology wave) <;> rfl

theorem length_batchOfWave
    (hbatch : batchOfWave config informative count slot rows = .ok batch) :
    batch.length = count := by
  unfold batchOfWave at hbatch
  obtain ⟨planned, hplanned, hbatch⟩ := bind_eq_ok.mp hbatch
  obtain ⟨groups, _, hbatch⟩ := bind_eq_ok.mp hbatch
  rw [require_bind_eq_ok] at hbatch
  obtain ⟨hlength, hbatch⟩ := hbatch
  cases hbatch
  have hmapM := mapM_eq_ok.mp (mapError_eq_ok.mp hplanned)
  have hcount := hmapM.length_eq
  rw [List.length_range] at hcount
  rw [List.length_zip, hlength, ← hcount, Nat.min_self]

end Stands
end VerlVla
