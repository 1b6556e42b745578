import VerlVla.EnvCluster

/-!
# Durable files of the group-relative trainer

A window of candidate groups survives its process in three files: the candidate
evidence, to which one line is appended for each group, the spool of accepted
groups, and the resume state with the schedule slot.  The actor checkpoint is
the fourth durable artefact.
-/

namespace VerlVla

structure BasePolicy where
  path : String
  sha256 : String
  deriving DecidableEq

/-- The settings of a run with durable candidate files, with the checks of the
trainer and of its configuration. -/
structure GrfpoConfig where
  robodojo : RoboDojoConfig
  topology : EnvTopology
  partition : CandidatePartition
  groupSize : ℕ
  acceptedGroupsPerUpdate : ℕ
  concurrentCandidateGroups : ℕ
  minAcceptedGroupsForPartialUpdate : ℕ
  initialCandidateGroupsPerUpdate : ℕ
  acceptedGroupsBeforeOptionalRefill : ℕ
  maxCandidateGroupsPerUpdate : ℕ
  totalTrainingSteps : ℕ
  saveFreq : ℕ
  testFreq : ℕ
  collectionOnly : Bool
  basePolicy : BasePolicy
  groupsPerStage : ℕ
  groupsPerStage_eq :
    candidateGroupsPerStage partition groupSize topology = .ok groupsPerStage
  groupSize_gt : 1 < groupSize
  concurrent_pos : 0 < concurrentCandidateGroups
  concurrent_le_accepted : concurrentCandidateGroups ≤ acceptedGroupsPerUpdate
  accepted_le_max : acceptedGroupsPerUpdate ≤ maxCandidateGroupsPerUpdate
  min_pos : 0 < minAcceptedGroupsForPartialUpdate
  min_le_accepted : minAcceptedGroupsForPartialUpdate ≤ acceptedGroupsPerUpdate
  concurrent_le_slots :
    concurrentCandidateGroups ≤ topology.stageNum * groupsPerStage
  concurrent_dvd : partition = .workerStage →
    groupsPerStage ∣ concurrentCandidateGroups
  saveFreq_one : saveFreq = 1

def GrfpoConfig.groupsPerWave (config : GrfpoConfig) : ℕ :=
  config.topology.stageNum * config.groupsPerStage

theorem GrfpoConfig.groupsPerWave_pos (config : GrfpoConfig) :
    0 < config.groupsPerWave :=
  config.concurrent_pos.trans_le config.concurrent_le_slots

structure CandidateRecord where
  intendedUpdate : ℕ
  rolloutPolicyVersion : ℕ
  candidateAttempt : ℕ
  candidateScheduleSlot : ℕ
  layout : ℤ
  policySeeds : List ℤ
  informative : Bool
  selectedForTraining : Bool
  candidateSpoolPath : Option ℕ
  deriving DecidableEq

inductive EvidenceLine
  | candidateGroup (record : CandidateRecord)
  | collectionWindowClosed (intendedUpdate rolloutPolicyVersion : ℕ)
  deriving DecidableEq

/-- A committed directory of the spool with its metadata and rollout. -/
structure SpoolEntry where
  path : ℕ
  intendedUpdate : ℕ
  rolloutPolicyVersion : ℕ
  candidateAttempt : ℕ
  groupSize : ℕ
  basePolicy : BasePolicy
  rollout : List SelectedCase
  deriving DecidableEq

structure ResumeState where
  rolloutPolicyVersion : ℕ
  intendedUpdate : ℕ
  nextCandidateAttempt : ℕ
  candidateScheduleSlot : ℕ
  trainCaseCursorStart : ℕ
  basePolicy : BasePolicy
  deriving DecidableEq

/-- What survives a crash.  A new directory of the spool takes the next unused
path. -/
structure DurableFiles where
  evidence : List EvidenceLine
  spool : List SpoolEntry
  spoolPaths : ℕ
  resumeState : Option ResumeState
  checkpoint : ℕ
  deriving DecidableEq

structure AcceptedCandidate where
  record : CandidateRecord
  rollout : List SelectedCase
  deriving DecidableEq

inductive CollectError
  | incompleteGroup (expected actual : ℕ)
  | mixedConditions
  | repeatedPolicySeeds
  | cannotTile (collected next : ℕ)
  | incompleteStageRows (groupCount groupsPerStage : ℕ)
  | exceedsPipeline (activeStages pipelineStages : ℕ)
  | wrongTrajectoryCount (expected actual : ℕ)
  | seedsNotContiguous
  deriving DecidableEq

inductive TrainerError
  | stateNewerThanCheckpoint (stateTheta loadedTheta : ℕ)
  | launcherCursor (configured expected : ℕ)
  | evidenceWithoutResumeState
  | foreignBasePolicy
  | spoolPathMissing
  | spoolNotCommitted
  | spoolIdentityMismatch
  | spoolRowCount (expected actual : ℕ)
  | collect (error : CollectError)
  | schedule (error : ScheduleError)
  | concurrencyNeedsPipeline
  | wrongGroupCount (requested collected : ℕ)
  | scheduleDiverged (slot : ℕ) (expected actual : ℤ)
  | incompleteWave (slot groupsPerWave : ℕ)
  | mixedPolicyVersions
  | incompleteAcceptedGroup
  deriving DecidableEq

/-- The errors that say that the durable files do not fit together. -/
def TrainerError.isResumeConsistency : TrainerError → Bool
  | .stateNewerThanCheckpoint _ _ => true
  | .launcherCursor _ _ => true
  | .evidenceWithoutResumeState => true
  | .foreignBasePolicy => true
  | .spoolPathMissing => true
  | .spoolNotCommitted => true
  | .spoolIdentityMismatch => true
  | .spoolRowCount _ _ => true
  | _ => false

/-! ## Evidence -/

def EvidenceLine.record? : EvidenceLine → Option CandidateRecord
  | .candidateGroup record => some record
  | .collectionWindowClosed _ _ => none

def historicalCandidates (evidence : List EvidenceLine) :
    List CandidateRecord :=
  evidence.filterMap EvidenceLine.record?

def CandidateRecord.inWindow (record : CandidateRecord)
    (intendedUpdate policyVersion : ℕ) : Bool :=
  record.intendedUpdate = intendedUpdate ∧
    record.rolloutPolicyVersion = policyVersion

def resumeLine (intendedUpdate policyVersion : ℕ)
    (records : List CandidateRecord) : EvidenceLine → List CandidateRecord
  | .candidateGroup record =>
    if record.inWindow intendedUpdate policyVersion then
      records ++ [record]
    else records
  | .collectionWindowClosed intended version =>
    if intended = intendedUpdate ∧ version = policyVersion then []
    else records

/-- The records of the open window; a closed one starts over. -/
def resumeCandidateRecords (intendedUpdate policyVersion : ℕ)
    (evidence : List EvidenceLine) : List CandidateRecord :=
  evidence.foldl (resumeLine intendedUpdate policyVersion) []

theorem resumeCandidateRecords_append (intendedUpdate policyVersion : ℕ)
    (evidence : List EvidenceLine) (line : EvidenceLine) :
    resumeCandidateRecords intendedUpdate policyVersion (evidence ++ [line]) =
      resumeLine intendedUpdate policyVersion
        (resumeCandidateRecords intendedUpdate policyVersion evidence)
        line := by
  simp [resumeCandidateRecords]

theorem historicalCandidates_append (evidence : List EvidenceLine)
    (line : EvidenceLine) :
    historicalCandidates (evidence ++ [line]) =
      historicalCandidates evidence ++ line.record?.toList := by
  unfold historicalCandidates
  rw [List.filterMap_append]
  cases line <;> rfl

theorem resumeCandidateRecords_sublist (intendedUpdate policyVersion : ℕ)
    (evidence : List EvidenceLine) :
    (resumeCandidateRecords intendedUpdate policyVersion
      evidence).Sublist (historicalCandidates evidence) := by
  induction evidence using List.reverseRecOn with
  | nil => exact List.Sublist.refl []
  | append_singleton evidence line ih =>
    rw [resumeCandidateRecords_append, historicalCandidates_append]
    cases line with
    | candidateGroup record =>
      simp only [resumeLine, EvidenceLine.record?, Option.toList_some]
      split_ifs
      · exact ih.append (List.Sublist.refl [record])
      · exact ih.trans (List.sublist_append_left _ _)
    | collectionWindowClosed intended version =>
      simp only [resumeLine, EvidenceLine.record?, Option.toList_none,
        List.append_nil]
      split_ifs
      · exact List.nil_sublist _
      · exact ih

theorem inWindow_of_mem_resume
    (hrecord : record ∈ resumeCandidateRecords intendedUpdate policyVersion
      evidence) :
    record.inWindow intendedUpdate policyVersion = true := by
  induction evidence using List.reverseRecOn with
  | nil => simp [resumeCandidateRecords] at hrecord
  | append_singleton evidence line ih =>
    rw [resumeCandidateRecords_append] at hrecord
    cases line with
    | candidateGroup other =>
      simp only [resumeLine] at hrecord
      split_ifs at hrecord with hother
      · rcases List.mem_append.mp hrecord with hold | hnew
        · exact ih hold
        · rw [List.mem_singleton.mp hnew]
          exact hother
      · exact ih hrecord
    | collectionWindowClosed intended version =>
      simp only [resumeLine] at hrecord
      split_ifs at hrecord
      · simp at hrecord
      · exact ih hrecord

/-! ## Spool -/

section Spool

variable (config : GrfpoConfig)

def spoolEntry (path : ℕ) (record : CandidateRecord)
    (rollout : List SelectedCase) : SpoolEntry where
  path := path
  intendedUpdate := record.intendedUpdate
  rolloutPolicyVersion := record.rolloutPolicyVersion
  candidateAttempt := record.candidateAttempt
  groupSize := config.groupSize
  basePolicy := config.basePolicy
  rollout := rollout

/-- Spool an accepted group; the record then names its directory. -/
def persistAcceptedCandidate (files : DurableFiles)
    (record : CandidateRecord) (rollout : List SelectedCase) :
    DurableFiles × CandidateRecord :=
  ({ files with
      spool :=
        files.spool ++ [spoolEntry config files.spoolPaths record rollout]
      spoolPaths := files.spoolPaths + 1 },
    { record with candidateSpoolPath := some files.spoolPaths })

def SpoolEntry.matches (entry : SpoolEntry) (record : CandidateRecord) :
    Bool :=
  entry.intendedUpdate = record.intendedUpdate ∧
    entry.rolloutPolicyVersion = record.rolloutPolicyVersion ∧
    entry.candidateAttempt = record.candidateAttempt ∧
    entry.groupSize = config.groupSize ∧
    entry.basePolicy = config.basePolicy

def loadSpooledCandidate (spool : List SpoolEntry)
    (record : CandidateRecord) : Except TrainerError AcceptedCandidate :=
  match record.candidateSpoolPath with
  | none => .error .spoolPathMissing
  | some path =>
    match spool.find? fun entry => entry.path = path with
    | none => .error .spoolNotCommitted
    | some entry => do
      require (entry.matches config record = true) .spoolIdentityMismatch
      require (entry.rollout.length = config.groupSize)
        (.spoolRowCount config.groupSize entry.rollout.length)
      return ⟨record, entry.rollout⟩

def cleanupCandidateSpoolWindow (intendedUpdate policyVersion : ℕ)
    (files : DurableFiles) : DurableFiles :=
  { files with
    spool := files.spool.filter fun entry =>
      ¬(entry.intendedUpdate = intendedUpdate ∧
        entry.rolloutPolicyVersion = policyVersion) }

end Spool

def resumeSlot (files : DurableFiles) : ℕ := match files.resumeState with
  | none => 0
  | some state => state.candidateScheduleSlot

def launcherCursor (files : DurableFiles) : ℕ := match files.resumeState with
  | none => 0
  | some state => state.trainCaseCursorStart

def writeCandidateResumeState (config : GrfpoConfig)
    (policyVersion intendedUpdate nextAttempt slot : ℕ)
    (files : DurableFiles) : Except TrainerError DurableFiles := do
  require (slot % config.groupsPerWave = 0)
    (.incompleteWave slot config.groupsPerWave)
  return { files with
    resumeState := some
      { rolloutPolicyVersion := policyVersion
        intendedUpdate := intendedUpdate
        nextCandidateAttempt := nextAttempt
        candidateScheduleSlot := slot
        trainCaseCursorStart :=
          resumedTrainCaseCursor config.topology config.groupsPerWave slot
        basePolicy := config.basePolicy } }

def readCandidateResumeState (config : GrfpoConfig)
    (files : DurableFiles) : Except TrainerError (Option ResumeState) :=
  match files.resumeState with
  | none => .ok none
  | some state => do
    require (state.basePolicy = config.basePolicy) .foreignBasePolicy
    return some state

end VerlVla
