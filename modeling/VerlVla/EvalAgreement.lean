import VerlVla.ShardedOutcomes

/-!
# The sharded evaluation agrees with the single process
-/

namespace VerlVla
namespace NativeEval

open BaseEnv Transition

def CaseRecord.case (record : CaseRecord) : ℤ × ℤ :=
  (record.identity.layoutId, record.identity.policySeed)

theorem outcomes_case {S A O : Type} (simulator : RobotSimulator S A O)
    (act : O → Option ℤ → Chunk A) (reduction : ScoreReduction)
    (calls : ℕ) {records : List CaseRecord} {cases : List (ℤ × ℤ)}
    (hperm : (records.map CaseRecord.outcome).Perm
      (cases.map (caseOutcome simulator act reduction calls))) :
    (records.map CaseRecord.case).Perm cases := by
  have hcases := hperm.map fun outcome : CaseOutcome =>
    (outcome.layoutId, outcome.policySeed)
  rw [List.map_map, List.map_map] at hcases
  have hleft : (fun outcome : CaseOutcome =>
      (outcome.layoutId, outcome.policySeed)) ∘ CaseRecord.outcome =
        CaseRecord.case := rfl
  have hright : (fun outcome : CaseOutcome =>
      (outcome.layoutId, outcome.policySeed)) ∘
        caseOutcome simulator act reduction calls = id := rfl
  rw [hleft, hright, List.map_id] at hcases
  exact hcases

/-- Every run of the sharded evaluation ends, executes for each shard only
what was computed for it, and reports the outcomes of the single process. -/
theorem sharded_eval_agrees {S A O : Type}
    (simulator : RobotSimulator S A O) (model : FastWam O A)
    (act : O → Option ℤ → Chunk A) (plan : ShardPlan)
    (hmodel : RowWise model act) (hallowed : plan.LayoutsAllowed) :
    ∃ single, runSingleProcessEval simulator model plan.config = .ok single ∧
      ∀ events final,
        Run (shardedEval simulator model plan) .initial events final →
        events.length ≤ shardedWork plan.config.maxPolicyCalls
          (.initial : ShardedState plan.shards S A O) ∧
        (∀ event ∈ events, ∀ executed ∈ event.output,
          AnswersOwn event.before act executed) ∧
        ((∀ label, (shardedEval simulator model plan).step final label =
            none) →
          ∃ report, final.parent = .reported report ∧
            (report.map CaseRecord.case).Perm plan.config.cases ∧
            (report.map CaseRecord.outcome).Perm
              (single.map CaseRecord.outcome)) := by
  have hwave : OneWave plan.config :=
    ⟨plan.checked, hallowed, plan.layouts_wave⟩
  obtain ⟨single, hsingle, houtcomes⟩ :=
    runSingleProcessEval_outcomes simulator hmodel hwave
  refine ⟨single, hsingle, ?_⟩
  intro events final hrun
  refine ⟨?_, ?_, ?_⟩
  · have hlength := shardedEval_length hrun
    omega
  · intro event hevent executed hexecuted
    exact answersOwn_of_run hmodel hallowed hrun hevent hexecuted
  · intro hstuck
    rcases shardedInv_of_run hmodel hallowed hrun with
      ⟨active, cases, hstate⟩ | ⟨report, hstate⟩
    · obtain ⟨label, henabled⟩ := hstate.progress hmodel
      rw [hstuck label] at henabled
      cases henabled
    · have hreport := hstate.outcomes
      rw [flatMap_shardOutcomes] at hreport
      refine ⟨report, hstate.parent, outcomes_case _ _ _ _ hreport, ?_⟩
      rw [houtcomes]
      exact hreport

/-! ## An example -/

def countingRobot : RobotSimulator ℕ ℕ ℕ where
  load _ _ := 0
  takeAction robot _ := robot + 1
  observe robot := robot
  endFlag robot := decide (5 ≤ robot)
  success robot := decide (5 ≤ robot)
  processScore := some fun robot => robot

def idlePolicy : FastWam ℕ ℕ where
  seed := none
  latentScaleOne := true
  inferActionChunk _ _ := 0
  inferBatch := List.zipWith fun _ _ _ => 0

/-- The same case twice, in two shards of one robot. -/
def twoShards : ShardPlan where
  config :=
    { layoutIds := [3, 3]
      policySeeds := [11, 11]
      numEnvs := 2
      policyMicrobatchSize := 1
      simulatorShards := 2
      processScoreReduction := .terminal
      maxPolicyCalls := 2
      seed := 0
      allowHeldOutEvalLayouts := false }
  checked := by decide
  shards_two := by decide
  shards_divide := by decide
  layouts_wave := by decide
  seeds_wave := by decide

theorem sharded_eval_agrees_twoShards :
    RowWise idlePolicy (fun _ _ _ => 0) ∧ twoShards.LayoutsAllowed ∧
      ∃ single, runSingleProcessEval countingRobot idlePolicy
          twoShards.config = .ok single ∧
        ∀ events final, Run (shardedEval countingRobot idlePolicy twoShards)
          .initial events final →
          (∀ label, (shardedEval countingRobot idlePolicy twoShards).step
            final label = none) →
          ∃ report, final.parent = .reported report ∧
            (report.map CaseRecord.outcome).Perm
              (single.map CaseRecord.outcome) := by
  have hmodel : RowWise idlePolicy (fun _ _ _ => 0) := fun _ _ _ => rfl
  have hallowed : twoShards.LayoutsAllowed := by
    right
    decide
  obtain ⟨single, hsingle, hruns⟩ := sharded_eval_agrees countingRobot
    idlePolicy (fun _ _ _ => 0) twoShards hmodel hallowed
  refine ⟨hmodel, hallowed, single, hsingle, ?_⟩
  intro events final hrun hstuck
  obtain ⟨report, hreport, _, houtcomes⟩ :=
    (hruns events final hrun).2.2 hstuck
  exact ⟨report, hreport, houtcomes⟩

end NativeEval
end VerlVla
