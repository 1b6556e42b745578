import VerlVla.Checks
import Mathlib.Algebra.Order.Ring.Rat
import Mathlib.Data.List.Sort

/-!
# Collection windows: specification and candidate names

The frozen parameters of one on-policy collection window, the checks made when
a specification is built, and the names of its candidates.

Counts are naturals; the sign checks of the source that exclude negative values
become the zero checks below.  The four enumerated options are inductive types,
so the membership checks of the source hold by construction.
-/

namespace VerlVla
namespace CollectionStore

/-- Identity that all candidates in one on-policy window must share. -/
structure PolicyIdentity where
  immutableBasePath : String
  immutableBaseSha256 : String
  trainerCheckpointPath : Option String
  rolloutPolicyVersion : ℤ
deriving DecidableEq

inductive GroupRewardSource
  | binarySuccess
  | processScore
deriving DecidableEq

inductive InformativeGroupCriterion
  | binarySuccess
  | fullSuccessMixed
  | rewardVariance
deriving DecidableEq

inductive AcceptedGroupReduction
  | groupEqual
  | taskEqual
deriving DecidableEq

inductive ActorObjective
  | fpo
  | flowGrpo
deriving DecidableEq

structure WindowFields where
  runId : String
  intendedUpdate : ℕ
  groupSize : ℕ
  targetAcceptedGroups : ℕ
  minimumAcceptedGroups : ℕ
  maxCandidateGroups : ℕ
  policy : PolicyIdentity
  completeRoundAfterTarget : Bool := false
  candidateRoundSize : ℕ := 0
  drainCandidateBudget : Bool := false
  taskNames : List String := []
  suiteIds : List ℤ := []
  conditionManifestSha256 : String := ""
  groupRewardSource : GroupRewardSource := .binarySuccess
  informativeGroupCriterion : InformativeGroupCriterion := .fullSuccessMixed
  acceptedGroupReduction : AcceptedGroupReduction := .groupEqual
  policySeedNamespace : String := ""
  rawStateAbsLimit : ℚ := 100
  actorObjective : ActorObjective := .fpo
  flowGrpoNoiseLevel : ℚ := 1 / 100
deriving DecidableEq

def WindowFields.postInit (fields : WindowFields) : Except String Unit := do
  require (fields.runId ≠ "" ∧ '/' ∉ fields.runId.toList)
    "run_id must be a non-empty path component."
  require (0 < fields.intendedUpdate) "intended_update must be positive."
  require (fields.groupSize = 8)
    "Fragmented GRFPO collection requires group_size=8."
  require (1 ≤ fields.minimumAcceptedGroups ∧
      fields.minimumAcceptedGroups ≤ fields.targetAcceptedGroups)
    "minimum_accepted_groups must be in [1,target_accepted_groups]."
  require (fields.targetAcceptedGroups ≤ fields.maxCandidateGroups)
    "max_candidate_groups must be at least target_accepted_groups."
  require (¬(fields.completeRoundAfterTarget ∧ fields.drainCandidateBudget))
    ("complete_round_after_target and drain_candidate_budget are " ++
      "mutually exclusive.")
  require (fields.completeRoundAfterTarget → 0 < fields.candidateRoundSize)
    "candidate_round_size must be positive in round-balanced mode."
  require (fields.completeRoundAfterTarget →
      fields.maxCandidateGroups % fields.candidateRoundSize = 0)
    ("max_candidate_groups must contain only complete candidate rounds: " ++
      s!"{fields.maxCandidateGroups} % {fields.candidateRoundSize} != 0.")
  require (fields.informativeGroupCriterion = .rewardVariance →
      fields.groupRewardSource = .processScore)
    "reward_variance collection requires process_score rewards."
  require (0 < fields.rawStateAbsLimit)
    "raw_state_abs_limit must be finite and positive."
  require (0 < fields.flowGrpoNoiseLevel)
    "flow_grpo_noise_level must be finite and positive."

structure CollectionWindowSpec extends WindowFields where
  checked : toWindowFields.postInit = .ok ()

/-- What the checks guarantee about the counts of a window. -/
structure WindowFields.Bounds (fields : WindowFields) : Prop where
  groupSize : fields.groupSize = 8
  one_le_minimum : 1 ≤ fields.minimumAcceptedGroups
  minimum_le_target :
    fields.minimumAcceptedGroups ≤ fields.targetAcceptedGroups
  target_le_max : fields.targetAcceptedGroups ≤ fields.maxCandidateGroups
  round_not_drain : fields.completeRoundAfterTarget = true →
      fields.drainCandidateBudget = false
  roundSize_pos :
    fields.completeRoundAfterTarget = true → 0 < fields.candidateRoundSize
  roundSize_dvd : fields.completeRoundAfterTarget = true →
      fields.candidateRoundSize ∣ fields.maxCandidateGroups

theorem CollectionWindowSpec.bounds (spec : CollectionWindowSpec) :
    spec.toWindowFields.Bounds := by
  have hchecked := spec.checked
  simp only [WindowFields.postInit, require_bind_eq_ok] at hchecked
  obtain ⟨-, -, hgroup, hmin, hmax, hmode, hsize, hrounds, -⟩ := hchecked
  refine ⟨hgroup, hmin.1, hmin.2, hmax, ?_, hsize, ?_⟩
  · intro hround
    by_contra hdrain
    exact hmode ⟨hround, by simpa using hdrain⟩
  · intro hround
    exact Nat.dvd_of_mod_eq_zero (hrounds hround)

/-- A window of two candidates, both of which must be accepted. -/
def pairSpec : CollectionWindowSpec where
  runId := "run"
  intendedUpdate := 1
  groupSize := 8
  targetAcceptedGroups := 2
  minimumAcceptedGroups := 2
  maxCandidateGroups := 2
  policy :=
    { immutableBasePath := "base"
      immutableBaseSha256 := "00"
      trainerCheckpointPath := none
      rolloutPolicyVersion := 1 }
  checked := by decide +kernel

instance : Inhabited CollectionWindowSpec := ⟨pairSpec⟩

/-! ## Manifests -/

/-- A manifest file.  Windows of older code lack the optional fields. -/
structure StoredManifest where
  runId : String
  intendedUpdate : ℕ
  groupSize : ℕ
  targetAcceptedGroups : ℕ
  minimumAcceptedGroups : ℕ
  maxCandidateGroups : ℕ
  policy : PolicyIdentity
  completeRoundAfterTarget : Option Bool
  candidateRoundSize : Option ℕ
  drainCandidateBudget : Option Bool
  taskNames : Option (List String)
  suiteIds : Option (List ℤ)
  conditionManifestSha256 : Option String
  groupRewardSource : Option GroupRewardSource
  informativeGroupCriterion : Option InformativeGroupCriterion
  acceptedGroupReduction : Option AcceptedGroupReduction
  policySeedNamespace : Option String
  rawStateAbsLimit : Option ℚ
  actorObjective : Option ActorObjective
  flowGrpoNoiseLevel : Option ℚ
deriving DecidableEq

def WindowFields.toManifest (fields : WindowFields) : StoredManifest where
  runId := fields.runId
  intendedUpdate := fields.intendedUpdate
  groupSize := fields.groupSize
  targetAcceptedGroups := fields.targetAcceptedGroups
  minimumAcceptedGroups := fields.minimumAcceptedGroups
  maxCandidateGroups := fields.maxCandidateGroups
  policy := fields.policy
  completeRoundAfterTarget := some fields.completeRoundAfterTarget
  candidateRoundSize := some fields.candidateRoundSize
  drainCandidateBudget := some fields.drainCandidateBudget
  taskNames := some fields.taskNames
  suiteIds := some fields.suiteIds
  conditionManifestSha256 := some fields.conditionManifestSha256
  groupRewardSource := some fields.groupRewardSource
  informativeGroupCriterion := some fields.informativeGroupCriterion
  acceptedGroupReduction := some fields.acceptedGroupReduction
  policySeedNamespace := some fields.policySeedNamespace
  rawStateAbsLimit := some fields.rawStateAbsLimit
  actorObjective := some fields.actorObjective
  flowGrpoNoiseLevel := some fields.flowGrpoNoiseLevel

/-- The defaults that `initialize` fills in before it compares manifests. -/
def StoredManifest.normalize (manifest : StoredManifest)
    (expected : WindowFields) : WindowFields where
  runId := manifest.runId
  intendedUpdate := manifest.intendedUpdate
  groupSize := manifest.groupSize
  targetAcceptedGroups := manifest.targetAcceptedGroups
  minimumAcceptedGroups := manifest.minimumAcceptedGroups
  maxCandidateGroups := manifest.maxCandidateGroups
  policy := manifest.policy
  completeRoundAfterTarget := manifest.completeRoundAfterTarget.getD false
  candidateRoundSize := manifest.candidateRoundSize.getD 0
  drainCandidateBudget := manifest.drainCandidateBudget.getD false
  taskNames := manifest.taskNames.getD expected.taskNames
  suiteIds := manifest.suiteIds.getD expected.suiteIds
  conditionManifestSha256 :=
    manifest.conditionManifestSha256.getD expected.conditionManifestSha256
  groupRewardSource := manifest.groupRewardSource.getD .binarySuccess
  informativeGroupCriterion :=
    manifest.informativeGroupCriterion.getD .fullSuccessMixed
  acceptedGroupReduction := manifest.acceptedGroupReduction.getD .groupEqual
  policySeedNamespace := manifest.policySeedNamespace.getD ""
  rawStateAbsLimit := manifest.rawStateAbsLimit.getD 100
  actorObjective := manifest.actorObjective.getD .fpo
  flowGrpoNoiseLevel := manifest.flowGrpoNoiseLevel.getD (1 / 100)

@[simp] theorem normalize_toManifest (fields expected : WindowFields) :
    fields.toManifest.normalize expected = fields := rfl

/-! ## Candidate names -/

structure CandidateAssignment where
  candidateIndex : ℕ
  taskName : String
  taskId : ℕ
  suiteId : ℤ
  layoutId : ℤ
  policySeeds : List ℤ
deriving DecidableEq

def candidatePrefix : List Char := "candidate_".toList

/-- Decimal digits padded with zeros to at least four characters. -/
def fourDigits (index : ℕ) : List Char := let digits := Nat.toDigits 10 index
  List.replicate (4 - digits.length) '0' ++ digits

def candidateId (index : ℕ) : String :=
  String.ofList (candidatePrefix ++ fourDigits index)

def CandidateAssignment.candidateId (assignment : CandidateAssignment) :
    String :=
  CollectionStore.candidateId assignment.candidateIndex

/-- The index written in a candidate name, if the name is well formed. -/
def parseCandidateId (name : String) : Option ℕ :=
  if candidatePrefix <+: name.toList then
    let digits := name.toList.drop candidatePrefix.length
    if digits ≠ [] ∧ digits.all Char.isDigit then
      some (Nat.ofDigitChars 10 digits 0)
    else none
  else none

theorem fourDigits_ne_nil (index : ℕ) : fourDigits index ≠ [] := by
  simp [fourDigits, Nat.toDigits_ne_nil]

theorem fourDigits_all_isDigit (index : ℕ) :
    (fourDigits index).all Char.isDigit = true := by
  rw [List.all_eq_true]
  intro digit hdigit
  rcases List.mem_append.mp hdigit with hzero | hdigit
  · rw [(List.mem_replicate.mp hzero).2]
    decide
  · exact Nat.isDigit_of_mem_toDigits (by decide) (by decide) hdigit

theorem ofDigitChars_fourDigits (index : ℕ) :
    Nat.ofDigitChars 10 (fourDigits index) 0 = index := by
  unfold fourDigits
  simp [Nat.ofDigitChars_append, Nat.ofDigitChars_replicate_zero]

/-- Reading a candidate name returns the index it was printed from. -/
@[simp] theorem parseCandidateId_candidateId (index : ℕ) :
    parseCandidateId (candidateId index) = some index := by
  simp [parseCandidateId, candidateId, fourDigits_ne_nil,
    fourDigits_all_isDigit, ofDigitChars_fourDigits, -List.all_eq_true]

/-- Distinct candidates have distinct names, so the files of a window can be
addressed by candidate index. -/
theorem candidateId_injective : Function.Injective candidateId := by
  intro left right heq
  have hparse := congrArg parseCandidateId heq
  simpa using hparse

def nameLe (left right : ℕ) : Prop := candidateId left ≤ candidateId right

instance : DecidableRel nameLe := fun left right =>
  inferInstanceAs (Decidable (candidateId left ≤ candidateId right))

/-- The indices of a directory listing in file-name order. -/
def sortedNames (indices : List ℕ) : List ℕ := indices.insertionSort nameLe

@[simp] theorem mem_sortedNames :
    index ∈ sortedNames indices ↔ index ∈ indices := by
  simp [sortedNames]

@[simp] theorem length_sortedNames (indices : List ℕ) :
    (sortedNames indices).length = indices.length := by
  simp [sortedNames]

end CollectionStore
end VerlVla
