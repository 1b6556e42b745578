import VerlVla.WaveBatches

/-!
# A restarted run continues the case stream

The schedule position is kept twice, as the slot of the trainer and as the
cursors of the simulators.  Where one reset wave is one row of slots, the two
stay in step as long as an evaluation finds a reset in flight.  A restart that
reads the current slot, and whose next step collects where the old process
would have collected, is then invisible: the same groups follow as in a run
without restarts.
-/

namespace VerlVla

open Transition

variable {config : GrfpoConfig} {files : DurableFiles}

/-! ## The position of a trainer -/

def WindowSkipsEval (config : GrfpoConfig) (globalSteps : ℕ)
    (window : CandidateWindow) : Prop :=
  config.collectionOnly = true ∨
    window.accepted.length < config.minAcceptedGroupsForPartialUpdate ∨
    evalDue config (globalSteps + 1) = false

/-- The next batch is collected here, or the window ends without an
evaluation. -/
def WindowContinues (config : GrfpoConfig) (globalSteps : ℕ)
    (window : CandidateWindow) : Prop :=
  nextGroupCount config window ≠ .ok 0 ∨
    WindowSkipsEval config globalSteps window

/-- Before its first rollout a process must not come to an evaluation. -/
def NoEvalAhead (config : GrfpoConfig) (globalSteps : ℕ) : TrainerPhase → Prop
  | .opening => True
  | .collecting window => WindowContinues config globalSteps window
  | .recording _ _ => False
  | .spooled _ _ _ => False
  | .collected window => WindowSkipsEval config globalSteps window
  | .trained => evalDue config globalSteps = false
  | .saved => evalDue config globalSteps = false
  | .closed updated => updated = true → evalDue config globalSteps = false
  | .cleaned updated => updated = true → evalDue config globalSteps = false
  | .evaluating => False

def TrainerPhase.inBatch : TrainerPhase → ℕ
  | .recording _ _ => 1
  | .spooled _ _ _ => 1
  | _ => 0

/-- The slot and the cursors agree; a batch being recorded has used its wave
already. -/
structure WellPlaced (trainer : Trainer config) (wave : ℕ) : Prop where
  slot : trainer.scheduleSlot = wave * config.groupsPerWave
  stands : trainer.cluster.StandsAt config.robodojo
    (wave + trainer.phase.inBatch)
  ahead : trainer.cluster.resetFuture = none →
    NoEvalAhead config trainer.globalSteps trainer.phase

/-- Trainers that differ in their simulators at most. -/
structure Twin (trainer other : Trainer config) : Prop where
  steps : trainer.globalSteps = other.globalSteps
  slot : trainer.scheduleSlot = other.scheduleSlot
  phase : trainer.phase = other.phase

theorem WellPlaced.wave_eq {trainer other : Trainer config}
    {wave otherWave : ℕ} (hplaced : WellPlaced trainer wave)
    (hother : WellPlaced other otherWave) (htwin : Twin trainer other) :
    wave = otherWave := by
  have hslot : wave * config.groupsPerWave =
      otherWave * config.groupsPerWave := by
    rw [← hplaced.slot, ← hother.slot, htwin.slot]
  exact Nat.eq_of_mul_eq_mul_right config.groupsPerWave_pos hslot

theorem groupsPerStage_le (config : GrfpoConfig) :
    config.groupsPerStage ≤ config.concurrentCandidateGroups := by
  cases hpartition : config.partition with
  | stage =>
    have hone := config.groupsPerStage_eq
    rw [hpartition] at hone
    have hvalue : 1 = config.groupsPerStage := Except.ok.inj hone
    rw [← hvalue]
    exact config.concurrent_pos
  | workerStage =>
    exact Nat.le_of_dvd config.concurrent_pos
      (config.concurrent_dvd hpartition)

theorem freshWindow_continues (hattempt : window.candidateAttempt = 1)
    (haccepted : window.accepted = []) :
    nextGroupCount config window ≠ .ok 0 := by
  have hconcurrent := config.concurrent_pos
  have haccept := config.concurrent_le_accepted
  have hmax := config.accepted_le_max
  have hstage := groupsPerStage_le config
  have hgroups : 0 < config.groupsPerStage :=
    Nat.pos_of_mul_pos_left config.groupsPerWave_pos
  have hopen : window.candidateAttempt ≤ config.maxCandidateGroupsPerUpdate ∧
      window.accepted.length < config.acceptedGroupsPerUpdate := by
    rw [hattempt, haccepted, List.length_nil]
    omega
  have hbudget : config.maxCandidateGroupsPerUpdate - 1 + 1 =
      config.maxCandidateGroupsPerUpdate := by omega
  intro hzero
  unfold nextGroupCount at hzero
  rw [if_pos hopen, mapError_eq_ok, hattempt, haccepted, List.length_nil,
    Nat.sub_zero, hbudget] at hzero
  unfold quantizedCandidateBatchSize at hzero
  rw [require_bind_eq_ok] at hzero
  by_cases hone : config.groupsPerStage = 1
  · rw [if_pos hone, boundedCandidateBatchSize, require_bind_eq_ok] at hzero
    have hsize := Except.ok.inj hzero.2.2
    omega
  · rw [if_neg hone, require_bind_eq_ok, if_neg (by omega)] at hzero
    have hsize := Except.ok.inj hzero.2.2
    have hdiv : 0 < min (min config.concurrentCandidateGroups
        config.maxCandidateGroupsPerUpdate)
        (max config.acceptedGroupsPerUpdate config.groupsPerStage) /
          config.groupsPerStage := by
      apply Nat.div_pos _ hgroups
      omega
    have hpositive := Nat.mul_pos hdiv hgroups
    omega

theorem emptyWindow_continues
    (hwindow : openWindow config files globalSteps = .ok window)
    (hempty : resumeCandidateRecords (globalSteps + 1) globalSteps
      files.evidence = []) :
    nextGroupCount config window ≠ .ok 0 := by
  obtain ⟨hholds, hattempt⟩ := openWindow_spec hwindow
  have hrecords : window.records = [] := hholds.records.trans hempty
  have haccepted := hholds.accepted
  rw [hrecords] at hattempt haccepted
  apply freshWindow_continues hattempt
  exact List.map_eq_nil_iff.mp haccepted.map_record

/-! ## One step of twins -/

theorem WellPlaced.advance (hsingle : config.SingleWave)
    {trainer next : Trainer config} {wave : ℕ}
    (hplaced : WellPlaced trainer wave)
    (hopening : trainer.phase = .opening →
      resumeCandidateRecords (trainer.globalSteps + 1) trainer.globalSteps
        files.evidence = [])
    {oracle : RolloutOracle} {batches : ℕ}
    {progress : TrainerProgress config}
    (hprogress : trainer.advance oracle batches files = .ok progress)
    (hnext : progress.process = .running next) :
    ∃ wave, WellPlaced next wave := by
  obtain ⟨steps, slot, cluster, phase⟩ := trainer
  obtain ⟨hslot, hstands, hahead⟩ := hplaced
  simp only at hslot hopening
  cases phase with
  | opening =>
    simp only [Trainer.advance] at hprogress
    split_ifs at hprogress with hsteps
    · obtain ⟨window, hwindow, hprogress⟩ := bind_eq_ok.mp hprogress
      cases hprogress
      cases hnext
      have hcontinues := emptyWindow_continues hwindow (hopening rfl)
      exact ⟨wave, hslot, hstands, fun _ => .inl hcontinues⟩
    · cases hprogress
      cases hnext
  | collecting window =>
    obtain ⟨count, hcount, hprogress⟩ := bind_eq_ok.mp hprogress
    split_ifs at hprogress with hzero
    · cases hprogress
      cases hnext
      refine ⟨wave, hslot, hstands, fun hfresh => ?_⟩
      cases hahead hfresh with
      | inl hcontinues => exact absurd (hzero ▸ hcount) hcontinues
      | inr hskips => exact hskips
    · obtain ⟨⟨batch, moved⟩, hbatch, hprogress⟩ := bind_eq_ok.mp hprogress
      cases hprogress
      cases hnext
      obtain ⟨after, hafter, hfuture, hcollect⟩ :=
        @collectBatch_stands config (oracle.informative batches) count
          wave cluster hsingle slot hstands
      simp only [hcollect, map_eq_ok] at hbatch
      obtain ⟨_, _, hsame⟩ := hbatch
      cases hsame
      refine ⟨wave, hslot, hafter, fun hfresh => ?_⟩
      rw [hfresh] at hfuture
      cases hfuture
  | recording window batch =>
    simp only [Trainer.advance] at hprogress
    cases hpending : batch.pending with
    | nil =>
      simp only [hpending, Trainer.commitBatch] at hprogress
      obtain ⟨written, _, hprogress⟩ := bind_eq_ok.mp hprogress
      cases hprogress
      cases hnext
      refine ⟨wave + 1, ?_, ?_, fun hfresh => (hahead hfresh).elim⟩
      · simp only
        rw [hslot, add_mul, one_mul]
      · split_ifs <;> exact hstands
    | cons first pending =>
      simp only [hpending, Trainer.recordGroup, require_bind_eq_ok]
        at hprogress
      obtain ⟨_, hprogress⟩ := hprogress
      split_ifs at hprogress
      · cases hprogress
        cases hnext
        exact ⟨wave, hslot, hstands, hahead⟩
      · cases hprogress
        cases hnext
        exact ⟨wave, hslot, hstands, hahead⟩
  | spooled window batch group =>
    cases hprogress
    cases hnext
    exact ⟨wave, hslot, hstands, hahead⟩
  | collected window =>
    simp only [Trainer.advance, Trainer.useWindow] at hprogress
    split_ifs at hprogress with hcollection hfew
    · cases hprogress
      cases hnext
    · cases hprogress
      cases hnext
      exact ⟨wave, hslot, hstands, fun _ hupdated => by cases hupdated⟩
    · simp only [require_bind_eq_ok] at hprogress
      obtain ⟨_, _, hprogress⟩ := hprogress
      cases hprogress
      cases hnext
      refine ⟨wave, hslot, hstands, fun hfresh => ?_⟩
      rcases hahead hfresh with honly | hless | hskips
      · exact absurd honly hcollection
      · exact absurd hless hfew
      · exact hskips
  | trained =>
    cases hprogress
    cases hnext
    exact ⟨wave, hslot, hstands, hahead⟩
  | saved =>
    cases hprogress
    cases hnext
    exact ⟨wave, hslot, hstands, fun hfresh _ => hahead hfresh⟩
  | closed updated =>
    cases hprogress
    cases hnext
    exact ⟨wave, hslot, hstands, hahead⟩
  | cleaned updated =>
    obtain ⟨written, _, hprogress⟩ := bind_eq_ok.mp hprogress
    cases hprogress
    cases hnext
    refine ⟨wave, hslot, ?_, fun hfresh => ?_⟩
    · simp only
      split_ifs <;> exact hstands
    · simp only
      split_ifs with hdue
      · have hskips := hahead hfresh hdue.1
        rw [hdue.2] at hskips
        cases hskips
      · trivial
  | evaluating =>
    obtain ⟨slot, hmoved, hprogress⟩ := bind_eq_ok.mp hprogress
    cases hprogress
    cases hnext
    have hfuture : cluster.resetFuture.isSome = true := by
      cases hreset : cluster.resetFuture with
      | none => exact (hahead hreset).elim
      | some drawn => rfl
    have heval := EnvCluster.eval_spec hstands hfuture
      (oracle.evalResets steps)
    rw [mapError_eq_ok, candidateScheduleSlotAfterFixedEval,
      require_bind_eq_ok] at hmoved
    cases hmoved.2
    refine ⟨wave + 1, ?_, heval.1, fun _ => trivial⟩
    simp only
    rw [hslot, add_mul, one_mul]

/-- Processes that differ in their simulators at most. -/
inductive SameProcess : TrainerProcess config → TrainerProcess config → Prop
  | running {trainer other : Trainer config} (htwin : Twin trainer other) :
      SameProcess (.running trainer) (.running other)
  | finished : SameProcess .finished .finished

/-- Steps with the same effect, up to the simulators. -/
def SameStep : Except TrainerError (TrainerProgress config) →
    Except TrainerError (TrainerProgress config) → Prop
  | .ok progress, .ok other => progress.output = other.output ∧
      progress.files = other.files ∧
      SameProcess progress.process other.process
  | .error error, .error other => error = other
  | _, _ => False

theorem SameStep.bind {α : Type} (first : Except TrainerError α)
    {rest other : α → Except TrainerError (TrainerProgress config)}
    (hrest : ∀ value, SameStep (rest value) (other value)) :
    SameStep (first >>= rest) (first >>= other) := by
  cases first with
  | error error => rfl
  | ok value => exact hrest value

theorem SameStep.goOn {trainer other : Trainer config}
    (hsteps : trainer.globalSteps = other.globalSteps)
    (hslot : trainer.scheduleSlot = other.scheduleSlot)
    (written : DurableFiles) (phase : TrainerPhase) :
    SameStep (.ok (trainer.goOn written phase))
      (.ok (other.goOn written phase)) :=
  ⟨rfl, rfl, .running ⟨hsteps, hslot, rfl⟩⟩

theorem Twin.advance (hsingle : config.SingleWave)
    {trainer other : Trainer config} {wave otherWave : ℕ}
    (htwin : Twin trainer other) (hplaced : WellPlaced trainer wave)
    (hother : WellPlaced other otherWave) (oracle : RolloutOracle)
    (batches : ℕ) (files : DurableFiles) :
    SameStep (trainer.advance oracle batches files)
      (other.advance oracle batches files) := by
  obtain rfl := hplaced.wave_eq hother htwin
  have hstands := hplaced.stands
  have hotherStands := hother.stands
  obtain ⟨steps, slot, cluster, phase⟩ := trainer
  obtain ⟨_, _, otherCluster, _⟩ := other
  obtain ⟨rfl, rfl, rfl⟩ := htwin
  unfold Trainer.advance
  cases phase with
  | opening =>
    dsimp only
    by_cases hsteps : steps < config.totalTrainingSteps
    · rw [if_pos hsteps, if_pos hsteps]
      exact SameStep.bind _ fun window => SameStep.goOn (by rfl) (by rfl) _ _
    · rw [if_neg hsteps, if_neg hsteps]
      exact ⟨rfl, rfl, .finished⟩
  | collecting window =>
    apply SameStep.bind
    intro count
    by_cases hzero : count = 0
    · rw [if_pos hzero, if_pos hzero]
      exact SameStep.goOn (by rfl) (by rfl) _ _
    · rw [if_neg hzero, if_neg hzero]
      obtain ⟨next, _, _, hbatch⟩ :=
        @collectBatch_stands config (oracle.informative batches) count
          wave cluster hsingle slot hstands
      obtain ⟨otherNext, _, _, hotherBatch⟩ :=
        @collectBatch_stands config (oracle.informative batches) count
          wave otherCluster hsingle slot hotherStands
      dsimp only
      rw [hbatch, hotherBatch]
      cases batchOfWave config (oracle.informative batches) count slot
          (waveAt config.robodojo config.topology wave) with
      | error error => rfl
      | ok batch => exact ⟨rfl, rfl, .running ⟨rfl, rfl, rfl⟩⟩
  | recording window batch =>
    dsimp only
    cases batch.pending with
    | nil => exact SameStep.bind _ fun written => SameStep.goOn (by rfl) (by rfl) _ _
    | cons first pending =>
      apply SameStep.bind
      intro _
      dsimp only
      split_ifs
      · exact SameStep.goOn (by rfl) (by rfl) _ _
      · exact SameStep.goOn (by rfl) (by rfl) _ _
  | spooled window batch group => exact SameStep.goOn (by rfl) (by rfl) _ _
  | collected window =>
    dsimp only [Trainer.useWindow]
    split_ifs
    · exact ⟨rfl, rfl, .finished⟩
    · exact SameStep.goOn (by rfl) (by rfl) _ _
    · apply SameStep.bind
      intro _
      apply SameStep.bind
      intro _
      exact ⟨rfl, rfl, .running ⟨rfl, rfl, rfl⟩⟩
  | trained | saved | closed updated =>
    exact SameStep.goOn (by rfl) (by rfl) _ _
  | cleaned updated =>
    exact SameStep.bind _ fun written => SameStep.goOn (by rfl) (by rfl) _ _
  | evaluating =>
    exact SameStep.bind _ fun next => SameStep.goOn (by rfl) (by rfl) _ _

/-! ## A process that never crashed -/

def lastAttempt (records : List CandidateRecord) : ℕ :=
  (records.map (·.candidateAttempt)).foldl max 0

theorem lastAttempt_append (records : List CandidateRecord)
    (record : CandidateRecord) :
    lastAttempt (records ++ [record]) =
      max (lastAttempt records) record.candidateAttempt := by
  simp [lastAttempt]

/-- No group of the next update is recorded yet. -/
def OpenEmpty (files : DurableFiles) (globalSteps : ℕ) : Prop :=
  resumeCandidateRecords (globalSteps + 1) globalSteps files.evidence = []

theorem openEmpty_of_versions
    (hversions : ∀ record ∈ historicalCandidates files.evidence,
      record.rolloutPolicyVersion < globalSteps) :
    OpenEmpty files globalSteps := by
  apply List.eq_nil_iff_forall_not_mem.mpr
  intro record hrecord
  have hwindow := inWindow_of_mem_resume hrecord
  have hmem := (resumeCandidateRecords_sublist _ _ _).subset hrecord
  have hversion := hversions record hmem
  simp only [CandidateRecord.inWindow, decide_eq_true_eq] at hwindow
  omega

/-- In a process that never crashed the attempts of a window are numbered in
turn, and a closed window leaves nothing open. -/
def UninterruptedPhase (config : GrfpoConfig) (files : DurableFiles)
    (globalSteps : ℕ) : TrainerPhase → Prop
  | .collecting window => globalSteps < config.totalTrainingSteps ∧
      window.candidateAttempt = lastAttempt window.records + 1
  | .recording window batch => globalSteps < config.totalTrainingSteps ∧
      window.candidateAttempt + batch.recorded =
        lastAttempt window.records + 1 ∧
      batch.recorded + batch.pending.length = batch.groupCount
  | .spooled window batch group =>
    globalSteps < config.totalTrainingSteps ∧
    window.candidateAttempt + batch.recorded = lastAttempt window.records + 1 ∧
    group.record.candidateAttempt = window.candidateAttempt + batch.recorded ∧
    batch.recorded + batch.pending.length + 1 = batch.groupCount
  | .collected window => globalSteps < config.totalTrainingSteps ∧
      window.candidateAttempt = lastAttempt window.records + 1
  | .opening => OpenEmpty files globalSteps
  | .trained => OpenEmpty files globalSteps
  | .saved => OpenEmpty files globalSteps
  | .closed _ => OpenEmpty files globalSteps
  | .cleaned _ => OpenEmpty files globalSteps
  | .evaluating => OpenEmpty files globalSteps

structure Uninterrupted (files : DurableFiles) (trainer : Trainer config) :
    Prop where
  inv : TrainerInv files trainer
  placed : ∃ wave, WellPlaced trainer wave
  versions : ∀ record ∈ historicalCandidates files.evidence,
    record.rolloutPolicyVersion ≤ trainer.globalSteps
  phase : UninterruptedPhase config files trainer.globalSteps trainer.phase

def CursorInv (config : GrfpoConfig) (files : DurableFiles) : Prop :=
  launcherCursor files = resumedTrainCaseCursor config.topology
    config.groupsPerWave (resumeSlot files)

theorem CursorInv.write {version intended attempt slot : ℕ}
    {written : DurableFiles}
    (hwritten : writeCandidateResumeState config version intended attempt
      slot files = .ok written) : CursorInv config written := by
  unfold writeCandidateResumeState at hwritten
  rw [require_bind_eq_ok] at hwritten
  cases hwritten.2
  rfl

theorem evidence_of_write
    (hwritten : writeCandidateResumeState config version intended attempt
      slot files = .ok written) : written.evidence = files.evidence := by
  unfold writeCandidateResumeState at hwritten
  rw [require_bind_eq_ok] at hwritten
  cases hwritten.2
  rfl

theorem OpenEmpty.close {globalSteps : ℕ} (intended version : ℕ)
    (hempty : OpenEmpty files globalSteps) :
    OpenEmpty (appendEvidence (.collectionWindowClosed intended version)
      files) globalSteps := by
  change resumeCandidateRecords _ _ (files.evidence ++ _) = []
  have hopen : resumeCandidateRecords (globalSteps + 1) globalSteps
      files.evidence = [] := hempty
  rw [resumeCandidateRecords_append, hopen]
  simp only [resumeLine]
  split_ifs <;> rfl

theorem Uninterrupted.advance (hsingle : config.SingleWave)
    (hfiles : FilesInv config files) (hcursor : CursorInv config files)
    {trainer : Trainer config} (htrainer : Uninterrupted files trainer)
    {oracle : RolloutOracle} {batches : ℕ}
    {progress : TrainerProgress config}
    (hprogress : trainer.advance oracle batches files = .ok progress) :
    CursorInv config progress.files ∧
      ∀ next, progress.process = .running next →
        Uninterrupted progress.files next := by
  have hinv := advance_inv hfiles htrainer.inv hprogress
  obtain ⟨htrainerInv, ⟨wave, hplaced⟩, hversions, hphaseInv⟩ := htrainer
  have hopening : trainer.phase = .opening →
      resumeCandidateRecords (trainer.globalSteps + 1) trainer.globalSteps
        files.evidence = [] := by
    intro hphase
    rw [hphase] at hphaseInv
    exact hphaseInv
  -- what is left of the invariant, with the part of the files it reads
  suffices hrest : CursorInv config progress.files ∧
      ∀ next, progress.process = .running next →
        (∀ record ∈ historicalCandidates progress.files.evidence,
          record.rolloutPolicyVersion ≤ next.globalSteps) ∧
        UninterruptedPhase config progress.files next.globalSteps next.phase by
    refine ⟨hrest.1, fun next hnext => ?_⟩
    have hprocess := hinv.2
    rw [hnext] at hprocess
    exact ⟨hprocess, hplaced.advance hsingle hopening hprogress hnext,
      (hrest.2 next hnext).1, (hrest.2 next hnext).2⟩
  have hstands := hplaced.stands
  obtain ⟨steps, slot, cluster, phase⟩ := trainer
  simp only at hversions
  cases phase with
  | opening =>
    simp only [Trainer.advance] at hprogress
    split_ifs at hprogress with hsteps
    · obtain ⟨window, hwindow, hprogress⟩ := bind_eq_ok.mp hprogress
      cases hprogress
      refine ⟨hcursor, fun next hnext => ?_⟩
      cases hnext
      exact ⟨hversions, hsteps, (openWindow_spec hwindow).2⟩
    · cases hprogress
      exact ⟨hcursor, fun next hnext => by cases hnext⟩
  | collecting window =>
    obtain ⟨count, _, hprogress⟩ := bind_eq_ok.mp hprogress
    split_ifs at hprogress
    · cases hprogress
      refine ⟨hcursor, fun next hnext => ?_⟩
      cases hnext
      exact ⟨hversions, hphaseInv⟩
    · obtain ⟨⟨batch, moved⟩, hbatch, hprogress⟩ := bind_eq_ok.mp hprogress
      cases hprogress
      refine ⟨hcursor, fun next hnext => ?_⟩
      cases hnext
      obtain ⟨after, _, _, hcollect⟩ :=
        @collectBatch_stands config (oracle.informative batches) count
          wave cluster hsingle slot hstands
      simp only [hcollect, map_eq_ok] at hbatch
      obtain ⟨rows, hrows, hsame⟩ := hbatch
      cases hsame
      have hlength := length_batchOfWave hrows
      exact ⟨hversions, hphaseInv.1, hphaseInv.2, by simp [hlength]⟩
  | recording window batch =>
    obtain ⟨hsteps, hattempt, hcount⟩ := hphaseInv
    cases hpending : batch.pending with
    | nil =>
      rw [hpending, List.length_nil] at hcount
      simp only [Trainer.advance, hpending, Trainer.commitBatch] at hprogress
      obtain ⟨written, hwritten, hprogress⟩ := bind_eq_ok.mp hprogress
      cases hprogress
      refine ⟨CursorInv.write hwritten, fun next hnext => ?_⟩
      cases hnext
      simp only [Trainer.goOn]
      rw [evidence_of_write hwritten]
      refine ⟨hversions, ?_⟩
      split_ifs
      · exact ⟨hsteps, by simp only; omega⟩
      · exact ⟨hsteps, by simp only; omega⟩
    | cons first pending =>
      rw [hpending, List.length_cons] at hcount
      simp only [Trainer.advance, hpending, Trainer.recordGroup,
        require_bind_eq_ok] at hprogress
      obtain ⟨_, hprogress⟩ := hprogress
      split_ifs at hprogress
      · cases hprogress
        refine ⟨hcursor, fun next hnext => ?_⟩
        cases hnext
        exact ⟨hversions, hsteps, hattempt, rfl, by simp only; omega⟩
      · cases hprogress
        refine ⟨hcursor, fun next hnext => ?_⟩
        cases hnext
        refine ⟨forall_historicalCandidates_append hversions le_rfl, hsteps, ?_, ?_⟩
        · simp only [lastAttempt_append, candidateRecord]
          omega
        · simp only
          omega
  | spooled window batch group =>
    have hgroup := htrainerInv.phase
    obtain ⟨hsteps, hattempt, hrecord, hcount⟩ := hphaseInv
    have hwindow := hgroup.2.2.2.inWindow
    simp only [CandidateRecord.inWindow, decide_eq_true_eq] at hwindow
    cases hprogress
    refine ⟨hcursor, fun next hnext => ?_⟩
    cases hnext
    refine ⟨forall_historicalCandidates_append hversions hwindow.2.le, hsteps, ?_, ?_⟩
    · simp only [lastAttempt_append]
      omega
    · simp only
      omega
  | collected window =>
    have hwindow := htrainerInv.phase
    simp only [Trainer.advance, Trainer.useWindow] at hprogress
    split_ifs at hprogress
    · cases hprogress
      exact ⟨hcursor, fun next hnext => by cases hnext⟩
    · cases hprogress
      refine ⟨hcursor, fun next hnext => ?_⟩
      cases hnext
      refine ⟨?_, ?_⟩
      · simp only [Trainer.goOn]
        rw [historicalCandidates_close]
        exact hversions
      · change resumeCandidateRecords _ _ (files.evidence ++ _) = []
        rw [resumeCandidateRecords_append]
        simp [resumeLine]
    · simp only [require_bind_eq_ok] at hprogress
      obtain ⟨_, _, hprogress⟩ := hprogress
      cases hprogress
      refine ⟨hcursor, fun next hnext => ?_⟩
      cases hnext
      refine ⟨fun record hrecord => ?_, ?_⟩
      · exact (hversions record hrecord).trans (Nat.le_succ _)
      · apply openEmpty_of_versions
        intro record hrecord
        exact Nat.lt_succ_of_le (hversions record hrecord)
  | trained =>
    cases hprogress
    have hevidence : (if checkpointDue config steps = true
        then { files with checkpoint := steps }
        else files).evidence = files.evidence := by
      split_ifs <;> rfl
    refine ⟨?_, fun next hnext => ?_⟩
    · simp only [Trainer.goOn]
      split_ifs <;> exact hcursor
    · cases hnext
      simp only [Trainer.goOn, OpenEmpty, UninterruptedPhase, hevidence]
      exact ⟨hversions, hphaseInv⟩
  | saved =>
    cases hprogress
    refine ⟨hcursor, fun next hnext => ?_⟩
    cases hnext
    refine ⟨?_, hphaseInv.close _ _⟩
    simp only [Trainer.goOn]
    rw [historicalCandidates_close]
    exact hversions
  | closed updated =>
    cases hprogress
    refine ⟨hcursor, fun next hnext => ?_⟩
    cases hnext
    exact ⟨hversions, hphaseInv⟩
  | cleaned updated =>
    obtain ⟨written, hwritten, hprogress⟩ := bind_eq_ok.mp hprogress
    cases hprogress
    refine ⟨CursorInv.write hwritten, fun next hnext => ?_⟩
    cases hnext
    have hopen : OpenEmpty written steps := by
      unfold OpenEmpty
      rw [evidence_of_write hwritten]
      exact hphaseInv
    simp only [Trainer.goOn]
    rw [evidence_of_write hwritten]
    refine ⟨hversions, ?_⟩
    split_ifs <;> exact hopen
  | evaluating =>
    obtain ⟨slot, _, hprogress⟩ := bind_eq_ok.mp hprogress
    cases hprogress
    refine ⟨hcursor, fun next hnext => ?_⟩
    cases hnext
    exact ⟨hversions, hphaseInv⟩

/-! ## Restarts -/

/-- The next thing the process does is to collect, or its window is complete
and ends without an evaluation. -/
def RestartPhase (config : GrfpoConfig) (globalSteps : ℕ) : TrainerPhase → Prop
  | .opening => True
  | .collecting window => WindowContinues config globalSteps window
  | .collected window => nextGroupCount config window = .ok 0 ∧
      WindowSkipsEval config globalSteps window
  | _ => False

/-- A process is given up only where the resume state has its current slot and
its next step is of the kind above. -/
def restartContinues (state : TrainerState config)
    (label : TrainerLabel) : Prop :=
  label = .crash → match state.process with
    | .running trainer =>
      resumeSlot state.files = trainer.scheduleSlot ∧
        RestartPhase config trainer.globalSteps trainer.phase
    | _ => False

instance (globalSteps : ℕ) (window : CandidateWindow) :
    Decidable (WindowSkipsEval config globalSteps window) := by
  unfold WindowSkipsEval
  infer_instance

instance (globalSteps : ℕ) (window : CandidateWindow) :
    Decidable (WindowContinues config globalSteps window) := by
  unfold WindowContinues
  infer_instance

instance (globalSteps : ℕ) (phase : TrainerPhase) :
    Decidable (RestartPhase config globalSteps phase) := by
  cases phase <;> unfold RestartPhase <;> infer_instance

instance (state : TrainerState config) (label : TrainerLabel) :
    Decidable (restartContinues state label) := by
  obtain ⟨_, process, _⟩ := state
  cases process <;> unfold restartContinues <;> infer_instance

def Reference (state : TrainerState config) : Prop :=
  FilesInv config state.files ∧ CursorInv config state.files ∧
    match state.process with
    | .down => SettledSlots state.files ∧ state.files.evidence = []
    | .running trainer => Uninterrupted state.files trainer
    | _ => True

inductive Follows (config : GrfpoConfig) (files : DurableFiles) :
    TrainerProcess config → TrainerProcess config → Prop
  | launch : Follows config files .down .down
  | twins {trainer other : Trainer config} {wave : ℕ}
      (htwin : Twin trainer other) (hplaced : WellPlaced trainer wave) :
      Follows config files (.running trainer) (.running other)
  | failed {error : TrainerError} {trainer other : Trainer config} :
      Follows config files (.failed error trainer) (.failed error other)
  | finished : Follows config files .finished .finished
  | stopped {other : Trainer config}
      (hslot : resumeSlot files = other.scheduleSlot)
      (hphase : RestartPhase config other.globalSteps other.phase) :
      Follows config files .down (.running other)
  | relaunched {other : Trainer config}
      (hslot : resumeSlot files = other.scheduleSlot)
      (hphase : RestartPhase config other.globalSteps other.phase)
      (hopened : other.phase ≠ .opening) :
      Follows config files (.running (launchedTrainer config files))
        (.running other)
  | recovered {trainer other : Trainer config} {window : CandidateWindow}
      {wave : ℕ} (hsteps : trainer.globalSteps = other.globalSteps)
      (hslot : trainer.scheduleSlot = other.scheduleSlot)
      (hphase : trainer.phase = .collecting window)
      (hother : other.phase = .collected window)
      (hrestart : RestartPhase config other.globalSteps other.phase)
      (hplaced : WellPlaced trainer wave) :
      Follows config files (.running trainer) (.running other)

theorem launchedTrainer_placed (hfiles : FilesInv config files)
    (hcursor : CursorInv config files) :
    WellPlaced (launchedTrainer config files)
      (resumeSlot files / config.groupsPerWave) where
  slot := (Nat.div_mul_cancel hfiles.slot_dvd).symm
  stands := by
    have hlauncher : launcherCursor files =
        resumeSlot files / config.groupsPerWave *
          config.topology.numEnvs := hcursor
    simp only [launchedTrainer]
    rw [hlauncher]
    exact EnvCluster.fresh_standsAt _
  ahead _ := trivial

theorem RestartPhase.recorded (hphase : RestartPhase config globalSteps phase) :
    phase.recorded = 0 := by
  cases phase <;> first | rfl | exact hphase.elim

theorem openWindow_eq (hwindow : HoldsWindow config files globalSteps window)
    (hattempt : window.candidateAttempt = lastAttempt window.records + 1) :
    openWindow config files globalSteps = .ok window := by
  obtain ⟨records, accepted, attempt⟩ := window
  obtain ⟨hrecords, haccepted⟩ := hwindow
  simp only at hrecords haccepted hattempt
  subst hrecords hattempt
  exact bind_eq_ok.mpr ⟨accepted, mapM_eq_ok.mpr haccepted, rfl⟩

variable {oracle : RolloutOracle} {batches : ℕ}

theorem Follows.start_stopped (hfiles : FilesInv config files)
    (hcursor : CursorInv config files) (hother : Uninterrupted files other)
    (hslot : resumeSlot files = other.scheduleSlot)
    (hphase : RestartPhase config other.globalSteps other.phase) :
    Follows config files (.running (launchedTrainer config files))
      (.running other) := by
  cases hat : other.phase with
  | opening =>
    have hsteps := hother.inv.phase
    rw [hat] at hsteps
    exact .twins ⟨hsteps.symm, hslot, hat.symm⟩
      (launchedTrainer_placed hfiles hcursor)
  | _ => exact .relaunched hslot hphase (by simp [hat])

theorem launchedTrainer_recovers {other : Trainer config}
    {window : CandidateWindow} (hsteps : other.globalSteps = files.checkpoint)
    (htotal : other.globalSteps < config.totalTrainingSteps)
    (hwindow : HoldsWindow config files other.globalSteps window)
    (hattempt : window.candidateAttempt = lastAttempt window.records + 1) :
    (launchedTrainer config files).advance oracle batches files =
      .ok ⟨.quiet, files, .running
        { launchedTrainer config files with phase := .collecting window }⟩ := by
  have hopen := openWindow_eq hwindow hattempt
  rw [hsteps] at htotal hopen
  simp only [Trainer.advance, launchedTrainer, if_pos htotal, hopen]
  rfl

theorem Follows.recover_relaunched {other : Trainer config}
    (hfiles : FilesInv config files) (hcursor : CursorInv config files)
    (hother : Uninterrupted files other)
    (hslot : resumeSlot files = other.scheduleSlot)
    (hphase : RestartPhase config other.globalSteps other.phase)
    (hopened : other.phase ≠ .opening) :
    ∃ next, (launchedTrainer config files).advance oracle batches files =
        .ok ⟨.quiet, files, .running next⟩ ∧
      Follows config files (.running next) (.running other) := by
  have hinv := hother.inv.phase
  have hwindow := hother.phase
  have hplaced := launchedTrainer_placed hfiles hcursor
  cases hat : other.phase with
  | opening => exact absurd hat hopened
  | collecting window =>
    rw [hat] at hinv hwindow hphase
    refine ⟨_, launchedTrainer_recovers hinv.1 hwindow.1 hinv.2 hwindow.2,
      .twins ⟨hinv.1.symm, hslot, hat.symm⟩
        ⟨hplaced.slot, hplaced.stands, fun _ => ?_⟩⟩
    rw [hinv.1] at hphase
    exact hphase
  | collected window =>
    have hrestart := hphase
    rw [hat] at hinv hwindow hphase
    refine ⟨_, launchedTrainer_recovers hinv.1 hwindow.1 hinv.2 hwindow.2,
      .recovered hinv.1.symm hslot rfl hat hrestart
        ⟨hplaced.slot, hplaced.stands, fun _ => ?_⟩⟩
    have hskips := hphase.2
    rw [hinv.1] at hskips
    exact .inr hskips
  | _ =>
    rw [hat] at hphase
    exact hphase.elim

theorem Follows.use_recovered (hsingle : config.SingleWave)
    {trainer other : Trainer config} {window : CandidateWindow} {wave : ℕ}
    (hsteps : trainer.globalSteps = other.globalSteps)
    (hslot : trainer.scheduleSlot = other.scheduleSlot)
    (hphase : trainer.phase = .collecting window)
    (hother : other.phase = .collected window)
    (hrestart : RestartPhase config other.globalSteps other.phase)
    (hplaced : WellPlaced trainer wave) :
    ∃ next, trainer.advance oracle batches files =
        .ok ⟨.quiet, files, .running next⟩ ∧
      Follows config files (.running next) (.running other) := by
  rw [hother] at hrestart
  have hadvance : trainer.advance oracle batches files =
      .ok (trainer.goOn files (.collected window)) := by
    unfold Trainer.advance
    simp only [hphase, hrestart.1]
    rfl
  have hopening : trainer.phase = .opening →
      resumeCandidateRecords (trainer.globalSteps + 1) trainer.globalSteps
        files.evidence = [] := by
    intro hopen
    simp [hphase] at hopen
  obtain ⟨_, hnext⟩ := hplaced.advance hsingle hopening hadvance rfl
  exact ⟨_, hadvance, .twins ⟨hsteps, hslot, hother.symm⟩ hnext⟩

theorem Follows.of_same (hsame : SameProcess process answer)
    (hplaced : ∀ next, process = .running next →
      ∃ wave, WellPlaced next wave) :
    Follows config files process answer := by
  cases hsame with
  | running htwin =>
    obtain ⟨_, hwave⟩ := hplaced _ rfl
    exact .twins htwin hwave
  | finished => exact .finished

theorem Reference.of_same {process answer : TrainerProcess config}
    (hsame : SameProcess process answer) (hfiles : FilesInv config files)
    (hcursor : CursorInv config files)
    (hrunning : ∀ next, answer = .running next → Uninterrupted files next) :
    Reference ⟨files, answer, batches⟩ := by
  refine ⟨hfiles, hcursor, ?_⟩
  cases hsame with
  | running htwin => exact hrunning _ rfl
  | finished => trivial

theorem Follows.step (hsingle : config.SingleWave)
    (hfollows : Follows config files process other)
    (href : Reference ⟨files, other, batches⟩)
    (hguard : restartContinues ⟨files, process, batches⟩ label)
    (hstep : (grfpoTrainer config oracle).step ⟨files, process, batches⟩
      label = some (output, next)) :
    (output = .quiet ∧ next.files = files ∧ next.batches = batches ∧
      Follows config files next.process other) ∨
    ∃ same answer, same ≠ .crash ∧
      (grfpoTrainer config oracle).step ⟨files, other, batches⟩ same =
        some (output, ⟨next.files, answer, next.batches⟩) ∧
      Reference ⟨next.files, answer, next.batches⟩ ∧
      Follows config next.files next.process answer := by
  obtain ⟨hfiles, hcursor, hother⟩ := href
  unfold grfpoTrainer at hstep
  cases hfollows with
  | launch =>
    cases label with
    | start =>
      have hlaunched := @launchedTrainer_inv config files hother.1
      have hplaced := launchedTrainer_placed hfiles hcursor
      have hok := startTrainer_ok hfiles hother.1
      simp only [hok] at hstep
      cases hstep
      refine .inr ⟨.start, .running (launchedTrainer config files),
        by decide, ?_, ⟨hfiles, hcursor, ?_⟩,
        .twins ⟨rfl, rfl, rfl⟩ hplaced⟩
      · simp only [grfpoTrainer, hok]
      · have hevidence : files.evidence = [] := hother.2
        refine ⟨hlaunched, ⟨_, hplaced⟩, ?_, ?_⟩
        · intro record hrecord
          rw [hevidence] at hrecord
          cases hrecord
        · simp only [launchedTrainer, UninterruptedPhase, OpenEmpty, hevidence]
          rfl
    | advance => simp at hstep
    | crash => exact (hguard rfl).elim
  | @twins trainer reference wave htwin hplaced =>
    have hreference : Uninterrupted files reference := hother
    cases label with
    | start => simp at hstep
    | crash =>
      cases hstep
      have hcut := hguard rfl
      refine .inl ⟨rfl, rfl, rfl, .stopped ?_ ?_⟩
      · rw [← htwin.slot]
        exact hcut.1
      · rw [← htwin.steps, ← htwin.phase]
        exact hcut.2
    | advance =>
      obtain ⟨otherWave, hotherPlaced⟩ := hreference.placed
      have hsame := htwin.advance hsingle hplaced hotherPlaced oracle
        batches files
      simp only at hstep
      cases hadvance : trainer.advance oracle batches files with
      | error error =>
        cases hanswer : reference.advance oracle batches files with
        | ok result => simp [hadvance, hanswer, SameStep] at hsame
        | error cause =>
          rw [hadvance, hanswer] at hsame
          obtain rfl : error = cause := hsame
          rw [hadvance] at hstep
          cases hstep
          refine .inr ⟨.advance, .failed error reference,
            by decide, ?_, ⟨hfiles, hcursor, trivial⟩, .failed⟩
          simp only [grfpoTrainer, hanswer]
      | ok progress =>
        cases hanswer : reference.advance oracle batches files with
        | error cause => simp [hadvance, hanswer, SameStep] at hsame
        | ok result =>
          rw [hadvance, hanswer] at hsame
          obtain ⟨houtput, hwritten, hprocess⟩ := hsame
          rw [hadvance] at hstep
          cases hstep
          have hfilesNext := (advance_inv hfiles hreference.inv hanswer).1
          have hnext := hreference.advance hsingle hfiles hcursor hanswer
          have hopening : trainer.phase = .opening →
              resumeCandidateRecords (trainer.globalSteps + 1)
                trainer.globalSteps files.evidence = [] := by
            intro hphase
            have hopen := hreference.phase
            rw [← htwin.phase, hphase] at hopen
            rw [htwin.steps]
            exact hopen
          rw [← hwritten] at hfilesNext hnext
          refine .inr ⟨.advance, result.process, by decide, ?_,
            .of_same hprocess hfilesNext hnext.1 hnext.2,
            .of_same hprocess fun after hafter =>
              hplaced.advance hsingle hopening hadvance hafter⟩
          simp only [grfpoTrainer, hanswer, houtput, hwritten]
  | failed =>
    cases label with
    | start | advance => simp at hstep
    | crash => exact (hguard rfl).elim
  | finished => cases label <;> simp at hstep
  | @stopped reference hslot hphase =>
    have hreference : Uninterrupted files reference := hother
    cases label with
    | start =>
      have hok := startTrainer_ok hfiles
        (hreference.inv.settled hphase.recorded)
      simp only [hok] at hstep
      cases hstep
      exact .inl ⟨rfl, rfl, rfl,
        .start_stopped hfiles hcursor hreference hslot hphase⟩
    | advance => simp at hstep
    | crash => exact (hguard rfl).elim
  | @relaunched reference hslot hphase hopened =>
    have hreference : Uninterrupted files reference := hother
    cases label with
    | start => simp at hstep
    | crash =>
      cases hstep
      exact .inl ⟨rfl, rfl, rfl, .stopped hslot hphase⟩
    | advance =>
      obtain ⟨after, hadvance, hafter⟩ :=
        @Follows.recover_relaunched config files oracle batches reference
          hfiles hcursor hreference hslot hphase hopened
      simp only [hadvance] at hstep
      cases hstep
      exact .inl ⟨rfl, rfl, rfl, hafter⟩
  | @recovered trainer reference window wave hsteps hslot hphase hcollected
      hrestart hplaced =>
      cases label with
      | start => simp at hstep
      | crash =>
        cases hstep
        have hcut := hguard rfl
        refine .inl ⟨rfl, rfl, rfl, .stopped ?_ hrestart⟩
        rw [← hslot]
        exact hcut.1
      | advance =>
        obtain ⟨after, hadvance, hafter⟩ :=
          @Follows.use_recovered config files oracle batches hsingle
            trainer reference window wave hsteps hslot hphase hcollected
            hrestart hplaced
        simp only [hadvance] at hstep
        cases hstep
        exact .inl ⟨rfl, rfl, rfl, hafter⟩

/-! ## Whole runs -/

def TrainerOutput.cases : TrainerOutput → List (ℤ × List ℤ)
  | .collected _ groups =>
    groups.map fun group => (group.layout, group.policySeeds)
  | _ => []

abbrev TrainerEvent (config : GrfpoConfig) :=
  Event (TrainerState config) TrainerLabel TrainerOutput

def collectedCases (events : List (TrainerEvent config)) : List (ℤ × List ℤ) :=
  events.flatMap fun event => event.output.cases

theorem collectedCases_append (events other : List (TrainerEvent config)) :
    collectedCases (events ++ other) =
      collectedCases events ++ collectedCases other :=
  List.flatMap_append

/-- Some run without crashes collects the same groups, writes the same files
and fails if the given one does. -/
def ContinuesUninterrupted (config : GrfpoConfig) (oracle : RolloutOracle)
    (events : List (TrainerEvent config)) (final : TrainerState config) :
    Prop :=
  ∃ reference finalReference,
    Run (grfpoTrainer config oracle) (TrainerState.initial config) reference
      finalReference ∧
    (∀ event ∈ reference, event.label ≠ .crash) ∧
    collectedCases events = collectedCases reference ∧
    final.files = finalReference.files ∧
    ∀ error trainer, final.process = .failed error trainer →
      ∃ other, finalReference.process = .failed error other

theorem Reference.initial : Reference (TrainerState.initial config) := by
  refine ⟨FilesInv.initial, ?_, ?_, rfl⟩
  · simp [CursorInv, launcherCursor, resumeSlot, TrainerState.initial,
      resumedTrainCaseCursor]
  · intro _ hrecord
    cases hrecord

theorem exists_reference (hsingle : config.SingleWave)
    {events : List (TrainerEvent config)} {final : TrainerState config}
    (hrun : Run (grfpoTrainer config oracle) (TrainerState.initial config)
      events final)
    (hguard : ∀ event ∈ events, restartContinues event.before event.label) :
    ∃ reference answer,
      Run (grfpoTrainer config oracle) (TrainerState.initial config)
        reference ⟨final.files, answer, final.batches⟩ ∧
      (∀ event ∈ reference, event.label ≠ .crash) ∧
      collectedCases events = collectedCases reference ∧
      Reference ⟨final.files, answer, final.batches⟩ ∧
      Follows config final.files final.process answer := by
  induction hrun with
  | nil =>
    refine ⟨[], .down, .nil, ?_, rfl, Reference.initial, .launch⟩
    intro event hevent
    cases hevent
  | @snoc state next prior label output hprior hstep ih =>
    obtain ⟨reference, answer, hreference, hlabels, hcases, href,
      hfollows⟩ := ih fun event hevent =>
        hguard event (List.mem_append_left _ hevent)
    have hlast := hguard _ (List.mem_append_right prior
      (List.mem_singleton_self _))
    have hone : collectedCases (prior ++ [⟨state, label, output, next⟩]) =
        collectedCases reference ++ output.cases := by
      rw [collectedCases_append, hcases]
      simp [collectedCases]
    rcases hfollows.step hsingle href hlast hstep with
      ⟨hquiet, hfiles, hbatches, hsame⟩ |
      ⟨same, after, hsame, hanswer, hrefNext, hnext⟩
    · rw [← hfiles, ← hbatches] at hreference href
      rw [← hfiles] at hsame
      refine ⟨reference, answer, hreference, hlabels, ?_, href, hsame⟩
      rw [hone, hquiet]
      exact List.append_nil _
    · refine ⟨_, after, hreference.snoc hanswer, ?_, ?_, hrefNext, hnext⟩
      · intro event hevent
        rcases List.mem_append.mp hevent with hold | hnew
        · exact hlabels event hold
        · rw [List.mem_singleton.mp hnew]
          exact hsame
      · rw [hone, collectedCases_append]
        simp [collectedCases]

/-- A run whose restarts take over where the process would have collected next
is indistinguishable from a run without restarts. -/
theorem restarts_continue_stream (hsingle : config.SingleWave)
    {events : List (TrainerEvent config)} {final : TrainerState config}
    (hrun : Run (grfpoTrainer config oracle) (TrainerState.initial config)
      events final)
    (hguard : ∀ event ∈ events, restartContinues event.before event.label) :
    ContinuesUninterrupted config oracle events final := by
  obtain ⟨reference, answer, hreference, hlabels, hcases, _, hfollows⟩ :=
    exists_reference hsingle hrun hguard
  refine ⟨reference, _, hreference, hlabels, hcases, rfl, ?_⟩
  intro error trainer hfailed
  rw [hfailed] at hfollows
  cases hfollows with
  | @failed _ _ other => exact ⟨other, rfl⟩

/-! ## Runs of one simulator -/

/-- Every crash of the run comes right behind a resume-state write. -/
def crashesBehindWrites : List (TrainerEvent config) → Bool
  | write :: next :: rest =>
    (next.label ≠ .crash ||
        write.after.files.resumeState ≠ write.before.files.resumeState) &&
      crashesBehindWrites (next :: rest)
  | _ => true

theorem label_unique (state : TrainerState config) (hlabel : label ≠ .crash)
    (hother : other ≠ .crash)
    (hstep : ((grfpoTrainer config oracle).step state label).isSome)
    (hanswer : ((grfpoTrainer config oracle).step state other).isSome) :
    label = other := by
  unfold grfpoTrainer at hstep hanswer
  cases label <;> cases other <;> cases hprocess : state.process <;> simp_all

theorem collectedCases_mono (hcontinues : events <+: other) :
    collectedCases events <+: collectedCases other := by
  obtain ⟨rest, rfl⟩ := hcontinues
  rw [collectedCases_append]
  exact List.prefix_append _ _

theorem collectedCases_unique {events other : List (TrainerEvent config)}
    {final answer : TrainerState config}
    (hrun : Run (grfpoTrainer config oracle) (TrainerState.initial config)
      events final)
    (hother : Run (grfpoTrainer config oracle) (TrainerState.initial config)
      other answer)
    (hlabels : ∀ event ∈ events, event.label ≠ .crash)
    (hotherLabels : ∀ event ∈ other, event.label ≠ .crash)
    (hlength : (collectedCases events).length =
      (collectedCases other).length) :
    collectedCases events = collectedCases other := by
  rcases hrun.one_continues_other (· ≠ .crash)
      (fun state _ _ => label_unique state) hother hlabels hotherLabels with
    hshort | hlong
  · exact (collectedCases_mono hshort).eq_of_length hlength
  · exact ((collectedCases_mono hlong).eq_of_length hlength.symm).symm

theorem uninterrupted_exec :
    (soloExec 1 (.start :: List.replicate 22 .advance)).isSome := by
  decide +kernel

theorem crashBeforeEval_exec : (soloExec 1 (crashAfter 19 2)).isSome := by
  decide +kernel

/-- A restart behind the resume-state write of an update that is followed by an
evaluation collects the wave that the evaluation would have discarded. -/
theorem restart_collects_discarded_wave :
    ∃ events final, Run (grfpoTrainer (soloConfig 1) everyGroupInformative)
        (TrainerState.initial _) events final ∧
      crashesBehindWrites events = true ∧
      ¬ContinuesUninterrupted (soloConfig 1) everyGroupInformative events
        final := by
  refine ⟨_, _, soloExec_run crashBeforeEval_exec, by decide +kernel, ?_⟩
  rintro ⟨reference, answer, hreference, hlabels, hcases, _⟩
  have huninterrupted : ∀ event ∈
      ((soloExec 1 (.start :: List.replicate 22 .advance)).get
        uninterrupted_exec).1, event.label ≠ .crash := by decide +kernel
  have hsame := collectedCases_unique hreference
    (soloExec_run uninterrupted_exec) hlabels huninterrupted
    (by rw [← hcases]; decide +kernel)
  rw [← hcases] at hsame
  revert hsame
  decide +kernel

theorem crashBehindBatch_exec : (soloExec 1 (crashAfter 5 20)).isSome := by
  decide +kernel

theorem restarts_continue_stream_solo :
    ContinuesUninterrupted (soloConfig 1) everyGroupInformative
      ((soloExec 1 (crashAfter 5 20)).get crashBehindBatch_exec).1
      ((soloExec 1 (crashAfter 5 20)).get crashBehindBatch_exec).2 := by
  have hsingle : (soloConfig 1).SingleWave := rfl
  exact restarts_continue_stream hsingle
    (soloExec_run crashBehindBatch_exec) (by decide +kernel)

end VerlVla
