import VerlVla.GrfpoFiles
import VerlVla.TransitionRun

/-!
# The group-relative trainer with crashes

The trainer collects a window of candidate groups, trains on the accepted ones
and closes the window.  A step of the model ends with at most one durable
write, so a crash may come between any two writes; a restart reads the files
again.
-/

namespace VerlVla

structure CollectedGroup where
  layout : ℤ
  policySeeds : List ℤ
  informative : Bool
  rollout : List SelectedCase
  deriving DecidableEq

/-! ## Collecting a batch -/

section Collect

variable (config : GrfpoConfig)

def validateSameConditionGroup (rollout : List SelectedCase)
    (informative : Bool) : Except CollectError CollectedGroup := do
  require (rollout.length = config.groupSize)
    (.incompleteGroup config.groupSize rollout.length)
  match rollout with
  | [] => throw (.incompleteGroup config.groupSize 0)
  | first :: rest =>
    require (∀ case ∈ rest, case.layout = first.layout) .mixedConditions
    require ((first :: rest).map (·.policySeed)).Nodup .repeatedPolicySeeds
    return {
      layout := first.layout
      policySeeds := (first :: rest).map (·.policySeed)
      informative := informative
      rollout := first :: rest }

def collectWaves : ℕ → List SelectedCase → EnvCluster config.topology →
    Except CollectError (List SelectedCase × EnvCluster config.topology)
  | 0, rows, cluster => .ok (rows, cluster)
  | fuel + 1, rows, cluster =>
    if rows.length < config.groupSize then do
      let batch := cluster.rollout config.robodojo none
      require (0 < batch.1.length ∧
          rows.length + batch.1.length ≤ config.groupSize)
        (.cannotTile rows.length batch.1.length)
      collectWaves fuel (rows ++ batch.1) batch.2
    else .ok (rows, cluster)

def collectCandidateGroup (informative : ℕ → Bool)
    (cluster : EnvCluster config.topology) :
    Except CollectError
      (List CollectedGroup × EnvCluster config.topology) := do
  let rows ← collectWaves config config.groupSize [] cluster
  let group ← validateSameConditionGroup config rows.1 (informative 0)
  return ([group], rows.2)

/-- The policy seeds of a concurrent batch are consecutive. -/
def contiguousSeeds (seeds : List ℤ) : Bool := match seeds.min? with
  | none => false
  | some first =>
    (seeds.mergeSort fun seed other => seed ≤ other) =
      (List.range seeds.length).map fun offset : ℕ => first + offset

def collectCandidateGroups (informative : ℕ → Bool) (groupCount : ℕ)
    (cluster : EnvCluster config.topology) :
    Except CollectError
      (List CollectedGroup × EnvCluster config.topology) := do
  require (groupCount % config.groupsPerStage = 0)
    (.incompleteStageRows groupCount config.groupsPerStage)
  let activeStages := groupCount / config.groupsPerStage
  require (1 ≤ activeStages ∧ activeStages ≤ config.topology.stageNum)
    (.exceedsPipeline activeStages config.topology.stageNum)
  let batch := cluster.rollout config.robodojo (some activeStages)
  require (batch.1.length = groupCount * config.groupSize)
    (.wrongTrajectoryCount (groupCount * config.groupSize) batch.1.length)
  let groups ← (List.range groupCount).mapM fun index =>
    validateSameConditionGroup config
      (block config.groupSize index batch.1) (informative index)
  require (contiguousSeeds (groups.flatMap (·.policySeeds)) = true)
    .seedsNotContiguous
  return (groups, batch.2)

def collectGroups (informative : ℕ → Bool) (groupCount : ℕ)
    (cluster : EnvCluster config.topology) :
    Except TrainerError (List CollectedGroup × EnvCluster config.topology) :=
  if 1 < config.topology.stageNum ∨ 1 < config.groupsPerStage then
    (collectCandidateGroups config informative groupCount
      cluster).mapError .collect
  else do
    require (groupCount = 1) .concurrencyNeedsPipeline
    (collectCandidateGroup config informative cluster).mapError .collect

def collectBatch (informative : ℕ → Bool) (slot groupCount : ℕ)
    (cluster : EnvCluster config.topology) :
    Except TrainerError
      (List (CollectedGroup × ℤ) × EnvCluster config.topology) := do
  let planned ← (plannedLayouts config.robodojo.trainLayoutSchedule slot
    groupCount).mapError .schedule
  let collected ← collectGroups config informative groupCount cluster
  require (collected.1.length = groupCount)
    (.wrongGroupCount groupCount collected.1.length)
  return (collected.1.zip planned, collected.2)

end Collect

/-! ## The process -/

structure CandidateWindow where
  records : List CandidateRecord
  accepted : List AcceptedCandidate
  candidateAttempt : ℕ

structure CandidateBatch where
  pending : List (CollectedGroup × ℤ)
  recorded : ℕ
  groupCount : ℕ

/-- Where the trainer is in its loop.  `updated` tells whether the window was
closed by an optimizer update. -/
inductive TrainerPhase
  | opening
  | collecting (window : CandidateWindow)
  | recording (window : CandidateWindow) (batch : CandidateBatch)
  | spooled (window : CandidateWindow) (batch : CandidateBatch)
      (group : AcceptedCandidate)
  | collected (window : CandidateWindow)
  | trained
  | saved
  | closed (updated : Bool)
  | cleaned (updated : Bool)
  | evaluating

structure Trainer (config : GrfpoConfig) where
  globalSteps : ℕ
  scheduleSlot : ℕ
  cluster : EnvCluster config.topology
  phase : TrainerPhase

inductive TrainerProcess (config : GrfpoConfig)
  | down
  | running (trainer : Trainer config)
  | failed (error : TrainerError) (trainer : Trainer config)
  | finished

/-- The files, the process and the number of batches collected so far. -/
structure TrainerState (config : GrfpoConfig) where
  files : DurableFiles
  process : TrainerProcess config
  batches : ℕ

inductive TrainerLabel
  | start
  | advance
  | crash
  deriving DecidableEq

inductive TrainerOutput
  | quiet
  | collected (slot : ℕ) (groups : List CollectedGroup)
  | trained (groups : List CandidateRecord)
  | failed (error : TrainerError)
  deriving DecidableEq

/-- What the trainer does not decide: which groups of which batch are
informative, and how many resets an evaluation takes. -/
structure RolloutOracle where
  informative : ℕ → ℕ → Bool
  evalResets : ℕ → ℕ

section Steps

variable (config : GrfpoConfig)

/-- The checks of a new process against the files it finds. -/
def startTrainer (files : DurableFiles) (configuredCursor : ℕ) :
    Except TrainerError Unit := do
  let resumeState ← readCandidateResumeState config files
  match resumeState with
  | some state =>
    require (state.rolloutPolicyVersion ≤ files.checkpoint)
      (.stateNewerThanCheckpoint state.rolloutPolicyVersion files.checkpoint)
    require (configuredCursor = state.trainCaseCursorStart)
      (.launcherCursor configuredCursor state.trainCaseCursorStart)
  | none =>
    require (historicalCandidates files.evidence = [])
      .evidenceWithoutResumeState

def launchedTrainer (files : DurableFiles) : Trainer config where
  globalSteps := files.checkpoint
  scheduleSlot := resumeSlot files
  cluster := EnvCluster.fresh config.robodojo (launcherCursor files)
  phase := .opening

def openWindow (files : DurableFiles) (globalSteps : ℕ) :
    Except TrainerError CandidateWindow := do
  let records :=
    resumeCandidateRecords (globalSteps + 1) globalSteps files.evidence
  let accepted ← (records.filter (·.selectedForTraining)).mapM
    (loadSpooledCandidate config files.spool)
  return {
    records := records
    accepted := accepted
    candidateAttempt := (records.map (·.candidateAttempt)).foldl max 0 + 1 }

def nextGroupCount (window : CandidateWindow) : Except TrainerError ℕ :=
  if window.candidateAttempt ≤ config.maxCandidateGroupsPerUpdate ∧
      window.accepted.length < config.acceptedGroupsPerUpdate then
    (quantizedCandidateBatchSize config.concurrentCandidateGroups
      (config.maxCandidateGroupsPerUpdate - window.candidateAttempt + 1)
      (config.acceptedGroupsPerUpdate - window.accepted.length)
      config.groupsPerStage).mapError .schedule
  else .ok 0

def candidateRecord (globalSteps scheduleSlot : ℕ)
    (window : CandidateWindow) (batch : CandidateBatch)
    (group : CollectedGroup) : CandidateRecord where
  intendedUpdate := globalSteps + 1
  rolloutPolicyVersion := globalSteps
  candidateAttempt := window.candidateAttempt + batch.recorded
  candidateScheduleSlot := scheduleSlot + batch.recorded
  layout := group.layout
  policySeeds := group.policySeeds
  informative := group.informative
  selectedForTraining := group.informative &&
    window.accepted.length < config.acceptedGroupsPerUpdate
  candidateSpoolPath := none

def refillIsUnnecessary (window : CandidateWindow) : Bool :=
  optionalRefillIsUnnecessary window.records.length window.accepted.length
    config.initialCandidateGroupsPerUpdate
    config.acceptedGroupsBeforeOptionalRefill

/-- An evaluation follows the update with this number. -/
def evalDue (globalSteps : ℕ) : Bool :=
  0 < config.testFreq ∧ (globalSteps = config.totalTrainingSteps ∨
    globalSteps % config.testFreq = 0)

def checkpointDue (globalSteps : ℕ) : Bool :=
  0 < config.saveFreq ∧ (globalSteps = config.totalTrainingSteps ∨
    globalSteps % config.saveFreq = 0)

def appendEvidence (line : EvidenceLine) (files : DurableFiles) :
    DurableFiles :=
  { files with evidence := files.evidence ++ [line] }

/-- What a step leaves behind. -/
structure TrainerProgress where
  output : TrainerOutput
  files : DurableFiles
  process : TrainerProcess config

variable {config}

def Trainer.goOn (trainer : Trainer config) (files : DurableFiles)
    (phase : TrainerPhase) : TrainerProgress config where
  output := .quiet
  files := files
  process := .running { trainer with phase := phase }

def Trainer.recordGroup (trainer : Trainer config) (files : DurableFiles)
    (window : CandidateWindow) (batch : CandidateBatch)
    (group : CollectedGroup) (expectedLayout : ℤ)
    (pending : List (CollectedGroup × ℤ)) :
    Except TrainerError (TrainerProgress config) := do
  require (group.layout = expectedLayout)
    (.scheduleDiverged (trainer.scheduleSlot + batch.recorded)
      expectedLayout group.layout)
  let record := candidateRecord config trainer.globalSteps
    trainer.scheduleSlot window batch group
  let rest := { batch with pending := pending }
  if record.selectedForTraining then
    let spooled := persistAcceptedCandidate config files record group.rollout
    return trainer.goOn spooled.1
      (.spooled window rest ⟨spooled.2, group.rollout⟩)
  else
    return trainer.goOn (appendEvidence (.candidateGroup record) files)
      (.recording { window with records := window.records ++ [record] }
        { rest with recorded := batch.recorded + 1 })

/-- Move the slot past the batch and write the resume state. -/
def Trainer.commitBatch (trainer : Trainer config) (files : DurableFiles)
    (window : CandidateWindow) (batch : CandidateBatch) :
    Except TrainerError (TrainerProgress config) := do
  let slot := trainer.scheduleSlot + config.groupsPerWave
  let next := { window with
    candidateAttempt := window.candidateAttempt + batch.groupCount }
  let written ← writeCandidateResumeState config trainer.globalSteps
    (trainer.globalSteps + 1) next.candidateAttempt slot files
  return { trainer with scheduleSlot := slot }.goOn written
    (if refillIsUnnecessary config next then .collected next
      else .collecting next)

def Trainer.useWindow (trainer : Trainer config) (files : DurableFiles)
    (window : CandidateWindow) :
    Except TrainerError (TrainerProgress config) :=
  let closing := appendEvidence (.collectionWindowClosed
    (trainer.globalSteps + 1) trainer.globalSteps) files
  if config.collectionOnly then
    .ok ⟨.quiet, closing, .finished⟩
  else if window.accepted.length <
      config.minAcceptedGroupsForPartialUpdate then
    .ok (trainer.goOn closing (.closed false))
  else do
    require (∀ group ∈ window.accepted,
        group.record.rolloutPolicyVersion = trainer.globalSteps)
      .mixedPolicyVersions
    require (∀ group ∈ window.accepted,
        group.rollout.length = config.groupSize) .incompleteAcceptedGroup
    return {
      output := .trained (window.accepted.map (·.record))
      files := files
      process := .running { trainer with
        globalSteps := trainer.globalSteps + 1
        phase := .trained } }

variable (oracle : RolloutOracle) (batches : ℕ)

def Trainer.advance (trainer : Trainer config) (files : DurableFiles) :
    Except TrainerError (TrainerProgress config) :=
  match trainer.phase with
  | .opening =>
    if trainer.globalSteps < config.totalTrainingSteps then do
      let window ← openWindow config files trainer.globalSteps
      return trainer.goOn files (.collecting window)
    else .ok ⟨.quiet, files, .finished⟩
  | .collecting window => do
    let groupCount ← nextGroupCount config window
    if groupCount = 0 then
      return trainer.goOn files (.collected window)
    else
      let batch ← collectBatch config (oracle.informative batches)
        trainer.scheduleSlot groupCount trainer.cluster
      return {
        output := .collected trainer.scheduleSlot (batch.1.map (·.1))
        files := files
        process := .running { trainer with
          cluster := batch.2
          phase := .recording window
            { pending := batch.1
              recorded := 0
              groupCount := groupCount } } }
  | .recording window batch =>
    match batch.pending with
    | [] => trainer.commitBatch files window batch
    | (group, expectedLayout) :: pending =>
      trainer.recordGroup files window batch group expectedLayout pending
  | .spooled window batch group =>
    .ok (trainer.goOn (appendEvidence (.candidateGroup group.record) files)
      (.recording
        { window with
          records := window.records ++ [group.record]
          accepted := window.accepted ++ [group] }
        { batch with recorded := batch.recorded + 1 }))
  | .collected window => trainer.useWindow files window
  | .trained =>
    .ok (trainer.goOn (if checkpointDue config trainer.globalSteps then
        { files with checkpoint := trainer.globalSteps }
      else files) .saved)
  | .saved =>
    .ok (trainer.goOn
      (appendEvidence (.collectionWindowClosed trainer.globalSteps
        (trainer.globalSteps - 1)) files) (.closed true))
  | .closed updated =>
    let version :=
      if updated then trainer.globalSteps - 1 else trainer.globalSteps
    .ok (trainer.goOn (cleanupCandidateSpoolWindow (version + 1) version files)
      (.cleaned updated))
  | .cleaned updated => do
    let written ← writeCandidateResumeState config trainer.globalSteps
      (trainer.globalSteps + 1) 1 trainer.scheduleSlot files
    return trainer.goOn written
      (if updated = true ∧ evalDue config trainer.globalSteps = true then
        .evaluating
      else .opening)
  | .evaluating => do
    let slot ← (candidateScheduleSlotAfterFixedEval trainer.scheduleSlot
      config.groupsPerWave).mapError .schedule
    return ({ trainer with
      scheduleSlot := slot
      cluster := trainer.cluster.eval config.robodojo
        (oracle.evalResets trainer.globalSteps) }.goOn files .opening)

end Steps

/-! ## The machine -/

section Machine

open Transition

variable (config : GrfpoConfig) (oracle : RolloutOracle)

def TrainerOutput.collectedBatches : TrainerOutput → ℕ
  | .collected _ _ => 1
  | _ => 0

def TrainerState.initial : TrainerState config where
  files :=
    { evidence := []
      spool := []
      spoolPaths := 0
      resumeState := none
      checkpoint := 0 }
  process := .down
  batches := 0

def grfpoTrainer :
    Machine (TrainerState config) TrainerLabel TrainerOutput where
  step state label := match label, state.process with
    | .start, .down =>
      let trainer := launchedTrainer config state.files
      match startTrainer config state.files (launcherCursor state.files) with
      | .ok () => some (.quiet, { state with process := .running trainer })
      | .error error =>
        some (.failed error,
          { state with process := .failed error trainer })
    | .advance, .running trainer =>
      match trainer.advance oracle state.batches state.files with
      | .ok progress =>
        some (progress.output,
          { files := progress.files
            process := progress.process
            batches :=
              state.batches + progress.output.collectedBatches })
      | .error error =>
        some (.failed error,
          { state with process := .failed error trainer })
    | .crash, .running _ => some (.quiet, { state with process := .down })
    | .crash, .failed _ _ => some (.quiet, { state with process := .down })
    | _, _ => none

end Machine
end VerlVla
