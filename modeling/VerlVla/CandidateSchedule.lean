import Mathlib.Tactic.Linarith
import VerlVla.CaseStream

/-!
# The candidate schedule of the group-relative trainer

The trainer numbers the candidate groups it may collect by schedule slots.  A
reset wave of all simulator processes fills one row of slots, and a batch
collects the first stages of a row.
-/

namespace VerlVla

inductive CandidatePartition
  | stage
  | workerStage
  deriving DecidableEq

inductive ScheduleError
  | groupingNeedsMultiple (numEnvs groupSize : ℕ)
  | groupsPerStageNotPositive (groupsPerStage : ℕ)
  | boundsNotPositive (concurrency budget acceptedSlots : ℕ)
  | emptySchedule
  | pipelineNotPositive (slot width : ℕ)
  deriving DecidableEq

def candidateGroupsPerStage (partition : CandidatePartition)
    (groupSize : ℕ) (topology : EnvTopology) : Except ScheduleError ℕ :=
  match partition with
  | .stage => .ok 1
  | .workerStage => do
    require (groupSize ≤ topology.numEnvs ∧ topology.numEnvs % groupSize = 0)
      (.groupingNeedsMultiple topology.numEnvs groupSize)
    return topology.worldSize * (topology.numEnvs / groupSize)

def boundedCandidateBatchSize
    (concurrency budget acceptedSlots : ℕ) : Except ScheduleError ℕ := do
  require (0 < concurrency ∧ 0 < budget ∧ 0 < acceptedSlots)
    (.boundsNotPositive concurrency budget acceptedSlots)
  return min concurrency (min budget acceptedSlots)

/-- A batch of complete stages; zero if the budget cannot fund one stage. -/
def quantizedCandidateBatchSize
    (concurrency budget acceptedSlots groupsPerStage : ℕ) :
    Except ScheduleError ℕ := do
  require (0 < groupsPerStage) (.groupsPerStageNotPositive groupsPerStage)
  if groupsPerStage = 1 then
    boundedCandidateBatchSize concurrency budget acceptedSlots
  else
    require (0 < concurrency ∧ 0 < budget ∧ 0 < acceptedSlots)
      (.boundsNotPositive concurrency budget acceptedSlots)
    let upperBound := min concurrency budget
    if upperBound < groupsPerStage then
      return 0
    else
      let desired := min upperBound (max acceptedSlots groupsPerStage)
      return desired / groupsPerStage * groupsPerStage

theorem quantizedCandidateBatchSize_spec
    (hcount : quantizedCandidateBatchSize concurrency budget acceptedSlots
      groupsPerStage = .ok count) :
    groupsPerStage ∣ count ∧ count ≤ concurrency ∧ count ≤ budget := by
  unfold quantizedCandidateBatchSize at hcount
  rw [require_bind_eq_ok] at hcount
  obtain ⟨hpositive, hcount⟩ := hcount
  by_cases hone : groupsPerStage = 1
  · rw [if_pos hone, boundedCandidateBatchSize, require_bind_eq_ok] at hcount
    cases hcount.2
    rw [hone]
    exact ⟨one_dvd _, by omega, by omega⟩
  · rw [if_neg hone, require_bind_eq_ok] at hcount
    obtain ⟨_, hcount⟩ := hcount
    by_cases hfunds : min concurrency budget < groupsPerStage
    · rw [if_pos hfunds] at hcount
      cases hcount
      exact ⟨dvd_zero _, Nat.zero_le _, Nat.zero_le _⟩
    · rw [if_neg hfunds] at hcount
      cases hcount
      have hquantized := Nat.div_mul_le_self
        (min (min concurrency budget) (max acceptedSlots groupsPerStage))
        groupsPerStage
      exact ⟨dvd_mul_left _ _, by omega, by omega⟩

/-- The first window of an update was informative enough. -/
def optionalRefillIsUnnecessary (candidateGroups acceptedGroups
    initialCandidateGroups acceptedGroupsBeforeRefill : ℕ) : Bool :=
  if initialCandidateGroups = 0 ∨ acceptedGroupsBeforeRefill = 0 then false
  else initialCandidateGroups ≤ candidateGroups ∧
    acceptedGroupsBeforeRefill ≤ acceptedGroups

def candidateScheduleSlotAfterFixedEval (slot width : ℕ) :
    Except ScheduleError ℕ := do
  require (0 < width) (.pipelineNotPositive slot width)
  return slot + width

def resumedTrainCaseCursor (topology : EnvTopology)
    (groupsPerWave slot : ℕ) : ℕ :=
  slot / groupsPerWave * topology.numEnvs

/-- The layouts the trainer expects of the next groups. -/
def plannedLayouts (schedule : List ℤ) (slot count : ℕ) :
    Except ScheduleError (List ℤ) :=
  (List.range count).mapM fun offset =>
    if hschedule : schedule = [] then .error .emptySchedule
    else .ok (schedule.get ⟨(slot + offset) % schedule.length,
      Nat.mod_lt _ (List.length_pos_iff.mpr hschedule)⟩)

end VerlVla
