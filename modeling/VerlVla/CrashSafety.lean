import VerlVla.CandidateRecovery
import VerlVla.ShardedStream

/-!
# Crashes of the group-relative trainer

A batch appends its groups to the evidence one by one and moves the schedule
slot of the resume state only after the last one.  A process that dies between
the two writes leaves recorded groups at slots that the next process collects
again.  In every run whose crashes stay out of that gap, no slot is collected
twice, no update trains on a slot twice, and every restart is accepted.
-/

namespace VerlVla

open Transition

/-- The groups of the running batch that are in the evidence already. -/
def TrainerPhase.recorded : TrainerPhase → ℕ
  | .recording _ batch => batch.recorded
  | .spooled _ batch _ => batch.recorded
  | _ => 0

variable {config : GrfpoConfig} {files : DurableFiles}

structure HoldsWindow (config : GrfpoConfig) (files : DurableFiles)
    (globalSteps : ℕ) (window : CandidateWindow) : Prop where
  records : window.records =
    resumeCandidateRecords (globalSteps + 1) globalSteps files.evidence
  accepted : Recovers config files.spool window.records window.accepted

structure HoldsBatch (config : GrfpoConfig) (batch : CandidateBatch)
    (inHand : ℕ) : Prop where
  fits : batch.recorded + batch.pending.length + inHand ≤ config.groupsPerWave
  complete : ∀ group ∈ batch.pending, group.1.rollout.length = config.groupSize

structure HoldsGroup (config : GrfpoConfig) (files : DurableFiles)
    (globalSteps slot : ℕ) (group : AcceptedCandidate) : Prop where
  load : loadSpooledCandidate config files.spool group.record = .ok group
  selected : group.record.selectedForTraining = true
  inWindow : group.record.inWindow (globalSteps + 1) globalSteps = true
  slot_eq : group.record.candidateScheduleSlot = slot

def PhaseInv (config : GrfpoConfig) (files : DurableFiles)
    (globalSteps slot : ℕ) : TrainerPhase → Prop
  | .opening => globalSteps = files.checkpoint
  | .collecting window =>
    globalSteps = files.checkpoint ∧
      HoldsWindow config files globalSteps window
  | .recording window batch =>
    globalSteps = files.checkpoint ∧
      HoldsWindow config files globalSteps window ∧
      HoldsBatch config batch 0
  | .spooled window batch group =>
    globalSteps = files.checkpoint ∧
      HoldsWindow config files globalSteps window ∧
      HoldsBatch config batch 1 ∧
      HoldsGroup config files globalSteps (slot + batch.recorded) group
  | .collected window =>
    globalSteps = files.checkpoint ∧
      HoldsWindow config files globalSteps window
  | .trained => globalSteps = files.checkpoint + 1
  | .saved => globalSteps = files.checkpoint ∧ 0 < globalSteps
  | .closed updated =>
    globalSteps = files.checkpoint ∧ (updated = true → 0 < globalSteps) ∧
      let version := if updated then globalSteps - 1 else globalSteps
      resumeCandidateRecords (version + 1) version files.evidence = []
  | .cleaned _ => globalSteps = files.checkpoint
  | .evaluating => globalSteps = files.checkpoint

def SettledSlots (files : DurableFiles) : Prop :=
  ∀ record ∈ historicalCandidates files.evidence,
    record.candidateScheduleSlot < resumeSlot files

structure TrainerInv (files : DurableFiles) (trainer : Trainer config) :
    Prop where
  phase : PhaseInv config files trainer.globalSteps trainer.scheduleSlot
    trainer.phase
  slots_lt : ∀ record ∈ historicalCandidates files.evidence,
    record.candidateScheduleSlot <
      trainer.scheduleSlot + trainer.phase.recorded
  settled : trainer.phase.recorded = 0 → SettledSlots files

def ProcessInv (files : DurableFiles) : TrainerProcess config → Prop
  | .down => SettledSlots files
  | .running trainer => TrainerInv files trainer
  | .failed _ trainer => TrainerInv files trainer
  | .finished => True

/-! ## What the parts of a step return -/

theorem openWindow_spec
    (hwindow : openWindow config files globalSteps = .ok window) :
    HoldsWindow config files globalSteps window ∧ window.candidateAttempt =
        (window.records.map (·.candidateAttempt)).foldl max 0 + 1 := by
  unfold openWindow at hwindow
  obtain ⟨accepted, haccepted, hwindow⟩ := bind_eq_ok.mp hwindow
  cases hwindow
  exact ⟨⟨rfl, mapM_eq_ok.mp haccepted⟩, rfl⟩

theorem openWindow_ok (hfiles : FilesInv config files) (globalSteps : ℕ) :
    ∃ window, openWindow config files globalSteps = .ok window := by
  obtain ⟨accepted, haccepted⟩ := hfiles.recoverable globalSteps
  exact ⟨_, bind_eq_ok.mpr ⟨accepted, mapM_eq_ok.mpr haccepted, rfl⟩⟩

theorem nextGroupCount_le (hcount : nextGroupCount config window = .ok count) :
    count ≤ config.groupsPerWave := by
  unfold nextGroupCount at hcount
  split_ifs at hcount
  · have hspec := quantizedCandidateBatchSize_spec (mapError_eq_ok.mp hcount)
    exact hspec.2.1.trans config.concurrent_le_slots
  · cases hcount
    exact Nat.zero_le _

theorem validateSameConditionGroup_length
    (hgroup : validateSameConditionGroup config rollout informative =
      .ok group) : group.rollout.length = config.groupSize := by
  unfold validateSameConditionGroup at hgroup
  rw [require_bind_eq_ok] at hgroup
  obtain ⟨hlength, hgroup⟩ := hgroup
  cases rollout with
  | nil => cases hgroup
  | cons first rest =>
    simp only [require_bind_eq_ok] at hgroup
    obtain ⟨_, _, hgroup⟩ := hgroup
    cases hgroup
    exact hlength

theorem collectCandidateGroup_complete
    (hgroups : collectCandidateGroup config informative cluster =
      .ok (groups, next)) :
    ∀ group ∈ groups, group.rollout.length = config.groupSize := by
  unfold collectCandidateGroup at hgroups
  obtain ⟨rows, _, hgroups⟩ := bind_eq_ok.mp hgroups
  obtain ⟨group, hgroup, hgroups⟩ := bind_eq_ok.mp hgroups
  cases hgroups
  intro other hother
  rw [List.mem_singleton.mp hother]
  exact validateSameConditionGroup_length hgroup

theorem collectCandidateGroups_complete
    (hgroups : collectCandidateGroups config informative count cluster =
      .ok (groups, next)) :
    ∀ group ∈ groups, group.rollout.length = config.groupSize := by
  unfold collectCandidateGroups at hgroups
  simp only [require_bind_eq_ok] at hgroups
  obtain ⟨_, _, _, hgroups⟩ := hgroups
  obtain ⟨found, hfound, hgroups⟩ := bind_eq_ok.mp hgroups
  rw [require_bind_eq_ok] at hgroups
  cases hgroups.2
  intro group hgroup
  obtain ⟨index, _, hindex⟩ := mem_of_mapM_eq_ok hfound hgroup
  exact validateSameConditionGroup_length hindex

theorem collectGroups_complete
    (hgroups : collectGroups config informative count cluster =
      .ok (groups, next)) :
    ∀ group ∈ groups, group.rollout.length = config.groupSize := by
  unfold collectGroups at hgroups
  split_ifs at hgroups with hconcurrent
  · exact collectCandidateGroups_complete (mapError_eq_ok.mp hgroups)
  · rw [require_bind_eq_ok] at hgroups
    exact collectCandidateGroup_complete (mapError_eq_ok.mp hgroups.2)

theorem collectBatch_spec
    (hbatch : collectBatch config informative slot count cluster =
      .ok (batch, next)) :
    batch.length ≤ count ∧
      ∀ group ∈ batch, group.1.rollout.length = config.groupSize := by
  unfold collectBatch at hbatch
  obtain ⟨planned, _, hbatch⟩ := bind_eq_ok.mp hbatch
  obtain ⟨⟨groups, after⟩, hgroups, hbatch⟩ := bind_eq_ok.mp hbatch
  rw [require_bind_eq_ok] at hbatch
  obtain ⟨hlength, hbatch⟩ := hbatch
  cases hbatch
  constructor
  · rw [List.length_zip]
    exact (Nat.min_le_left _ _).trans hlength.le
  · intro group hgroup
    exact collectGroups_complete hgroups group.1 (List.of_mem_zip hgroup).1

/-! ## One step keeps the invariant -/

theorem HoldsWindow.reject
    (hwindow : HoldsWindow config files globalSteps window)
    (hin : record.inWindow (globalSteps + 1) globalSteps = true)
    (hrejected : record.selectedForTraining = false) :
    HoldsWindow config (appendEvidence (.candidateGroup record) files)
      globalSteps { window with records := window.records ++ [record] } where
  records := by
    change window.records ++ [record] =
      resumeCandidateRecords _ _ (files.evidence ++ _)
    rw [resumeCandidateRecords_append, ← hwindow.records]
    exact (if_pos hin).symm
  accepted := hwindow.accepted.reject hrejected

theorem HoldsWindow.select
    (hwindow : HoldsWindow config files globalSteps window)
    (hgroup : HoldsGroup config files globalSteps slot group) :
    HoldsWindow config (appendEvidence (.candidateGroup group.record) files)
      globalSteps { window with
        records := window.records ++ [group.record]
        accepted := window.accepted ++ [group] } where
  records := by
    change window.records ++ [group.record] =
      resumeCandidateRecords _ _ (files.evidence ++ _)
    rw [resumeCandidateRecords_append, ← hwindow.records]
    exact (if_pos hgroup.inWindow).symm
  accepted := hwindow.accepted.select hgroup.selected hgroup.load

theorem TrainerInv.move {trainer next : Trainer config}
    {written : DurableFiles} (hinv : TrainerInv files trainer)
    (hrecorded : trainer.phase.recorded = 0)
    (hslot : next.scheduleSlot = trainer.scheduleSlot)
    (hnext : next.phase.recorded = 0)
    (hhistory : historicalCandidates written.evidence =
      historicalCandidates files.evidence)
    (hstate : resumeSlot written = resumeSlot files)
    (hphase : PhaseInv config written next.globalSteps next.scheduleSlot
      next.phase) : TrainerInv written next where
  phase := hphase
  slots_lt := by
    rw [hhistory, hslot, hnext, ← hrecorded]
    exact hinv.slots_lt
  settled _ := by
    unfold SettledSlots
    rw [hhistory, hstate]
    exact hinv.settled hrecorded

theorem forall_historicalCandidates_append {p : CandidateRecord → Prop}
    (hold : ∀ other ∈ historicalCandidates files.evidence, p other)
    (hrecord : p record) :
    ∀ other ∈ historicalCandidates
        (appendEvidence (.candidateGroup record) files).evidence, p other := by
  intro other hother
  change other ∈ historicalCandidates (files.evidence ++ _) at hother
  rw [historicalCandidates_append] at hother
  rcases List.mem_append.mp hother with hbefore | hnew
  · exact hold other hbefore
  · obtain rfl : other = record := by
      simpa [EvidenceLine.record?] using hnew
    exact hrecord

theorem historicalCandidates_close (intended version : ℕ) :
    historicalCandidates
        (appendEvidence (.collectionWindowClosed intended version)
          files).evidence =
      historicalCandidates files.evidence := by
  change historicalCandidates (files.evidence ++ _) = _
  rw [historicalCandidates_append]
  simp [EvidenceLine.record?]

theorem slots_lt_append
    (hslots : ∀ other ∈ historicalCandidates files.evidence,
      other.candidateScheduleSlot < slot + recorded)
    (hrecord : record.candidateScheduleSlot = slot + recorded) :
    ∀ other ∈ historicalCandidates
        (appendEvidence (.candidateGroup record) files).evidence,
      other.candidateScheduleSlot < slot + (recorded + 1) :=
  forall_historicalCandidates_append
    (fun other hother => (hslots other hother).trans (Nat.lt_succ_self _))
    (hrecord ▸ Nat.lt_succ_self _)

section Advance

variable (hfiles : FilesInv config files) {trainer : Trainer config}
  (hinv : TrainerInv files trainer)

include hfiles hinv

theorem recordGroup_inv (hphase : trainer.phase = .recording window batch)
    (hpending : batch.pending = (group, layout) :: pending)
    (hprogress : trainer.recordGroup files window batch group layout
      pending = .ok progress) :
    FilesInv config progress.files ∧
      ProcessInv progress.files progress.process := by
  obtain ⟨hphaseInv, hslots, hsettled⟩ := hinv
  rw [hphase] at hphaseInv hslots hsettled
  obtain ⟨hsteps, hwindow, hbatch⟩ := hphaseInv
  have hfits := hbatch.fits
  have hcomplete := hbatch.complete
  rw [hpending] at hfits hcomplete
  rw [List.length_cons] at hfits
  unfold Trainer.recordGroup at hprogress
  rw [require_bind_eq_ok] at hprogress
  obtain ⟨_, hprogress⟩ := hprogress
  have hunused : ∀ other ∈ historicalCandidates files.evidence,
      other.candidateScheduleSlot ≠ trainer.scheduleSlot + batch.recorded :=
    fun other hother => (hslots other hother).ne
  dsimp only at hprogress
  split_ifs at hprogress with hselected
  · cases hprogress
    have hgroup : HoldsGroup config (persistAcceptedCandidate config files
          (candidateRecord config trainer.globalSteps trainer.scheduleSlot
            window batch group) group.rollout).1
        trainer.globalSteps (trainer.scheduleSlot + batch.recorded)
        ⟨_, group.rollout⟩ :=
      { load := load_persisted hfiles.paths_lt _
          (hcomplete _ List.mem_cons_self)
        selected := hselected
        inWindow := by
          simp [persistAcceptedCandidate, candidateRecord,
            CandidateRecord.inWindow]
        slot_eq := rfl }
    refine ⟨hfiles.persist _ _, ?_, hslots, hsettled⟩
    refine ⟨hsteps, ⟨hwindow.records, ?_⟩, ⟨?_, ?_⟩, hgroup⟩
    · exact hwindow.accepted.mono fun _ _ _ => load_append
    · simp only
      omega
    · exact fun other hother => hcomplete other (List.mem_cons_of_mem _ hother)
  · cases hprogress
    have hrejected := Bool.eq_false_iff.mpr hselected
    refine ⟨hfiles.record hunused fun hcontra => absurd hcontra hselected,
      ?_, slots_lt_append hslots rfl, ?_⟩
    · refine ⟨hsteps, hwindow.reject ?_ hrejected, ?_, ?_⟩
      · simp [candidateRecord, CandidateRecord.inWindow]
      · simp only
        omega
      · exact fun other hother =>
          hcomplete other (List.mem_cons_of_mem _ hother)
    · intro hphase
      cases hphase

theorem commitBatch_inv (hphase : trainer.phase = .recording window batch)
    (hprogress : trainer.commitBatch files window batch = .ok progress) :
    FilesInv config progress.files ∧
      ProcessInv progress.files progress.process := by
  obtain ⟨hphaseInv, hslots, _⟩ := hinv
  rw [hphase] at hphaseInv hslots
  obtain ⟨hsteps, hwindow, hbatch⟩ := hphaseInv
  have hfits := hbatch.fits
  unfold Trainer.commitBatch at hprogress
  obtain ⟨written, hwritten, hprogress⟩ := bind_eq_ok.mp hprogress
  have hinvWritten := hfiles.writeState hwritten hsteps.le
  cases hprogress
  unfold writeCandidateResumeState at hwritten
  rw [require_bind_eq_ok] at hwritten
  cases hwritten.2
  have hbehind : ∀ record ∈ historicalCandidates files.evidence,
      record.candidateScheduleSlot <
        trainer.scheduleSlot + config.groupsPerWave := by
    intro record hrecord
    have hlt := hslots record hrecord
    simp only [TrainerPhase.recorded] at hlt
    omega
  refine ⟨hinvWritten, ?_⟩
  unfold Trainer.goOn ProcessInv
  by_cases hrefill : refillIsUnnecessary config { window with
      candidateAttempt := window.candidateAttempt + batch.groupCount } = true
  · rw [if_pos hrefill]
    exact ⟨⟨hsteps, hwindow.records, hwindow.accepted⟩, hbehind,
      fun _ => hbehind⟩
  · rw [if_neg hrefill]
    exact ⟨⟨hsteps, hwindow.records, hwindow.accepted⟩, hbehind,
      fun _ => hbehind⟩

theorem useWindow_inv (hphase : trainer.phase = .collected window)
    (hprogress : trainer.useWindow files window = .ok progress) :
    FilesInv config progress.files ∧
      ProcessInv progress.files progress.process := by
  have hphaseInv := hinv.phase
  rw [hphase] at hphaseInv
  have hrecorded : trainer.phase.recorded = 0 := by
    rw [hphase]
    rfl
  unfold Trainer.useWindow at hprogress
  dsimp only at hprogress
  split_ifs at hprogress with hcollection hfew
  · cases hprogress
    exact ⟨hfiles.close _ _, trivial⟩
  · cases hprogress
    refine ⟨hfiles.close _ _, hinv.move hrecorded rfl rfl
      (historicalCandidates_close _ _) rfl ⟨hphaseInv.1, by simp, ?_⟩⟩
    change resumeCandidateRecords _ _ (files.evidence ++ _) = []
    rw [resumeCandidateRecords_append]
    simp [resumeLine]
  · simp only [require_bind_eq_ok] at hprogress
    obtain ⟨_, _, hprogress⟩ := hprogress
    cases hprogress
    refine ⟨hfiles, hinv.move hrecorded rfl rfl rfl rfl ?_⟩
    exact congrArg (· + 1) hphaseInv.1

variable {oracle : RolloutOracle}

theorem advance_inv
    (hprogress : trainer.advance oracle batches files = .ok progress) :
    FilesInv config progress.files ∧
      ProcessInv progress.files progress.process := by
  obtain ⟨steps, slot, cluster, phase⟩ := trainer
  have hphaseInv := hinv.phase
  cases phase with
  | opening =>
    simp only [Trainer.advance] at hprogress
    split_ifs at hprogress with hsteps
    · obtain ⟨window, hwindow, hprogress⟩ := bind_eq_ok.mp hprogress
      cases hprogress
      refine ⟨hfiles, hinv.move rfl rfl rfl rfl rfl ?_⟩
      exact ⟨hphaseInv, (openWindow_spec hwindow).1⟩
    · cases hprogress
      exact ⟨hfiles, trivial⟩
  | collecting window =>
    obtain ⟨count, hcount, hprogress⟩ := bind_eq_ok.mp hprogress
    split_ifs at hprogress with hzero
    · cases hprogress
      exact ⟨hfiles, hinv.move rfl rfl rfl rfl rfl hphaseInv⟩
    · obtain ⟨⟨batch, cluster⟩, hbatch, hprogress⟩ := bind_eq_ok.mp hprogress
      cases hprogress
      refine ⟨hfiles, hinv.move rfl rfl rfl rfl rfl ?_⟩
      have hspec := collectBatch_spec hbatch
      have hfits := nextGroupCount_le hcount
      refine ⟨hphaseInv.1, hphaseInv.2, ?_, hspec.2⟩
      simp only
      omega
  | recording window batch =>
    simp only [Trainer.advance] at hprogress
    cases hpending : batch.pending with
    | nil =>
      simp only [hpending] at hprogress
      exact commitBatch_inv hfiles hinv rfl hprogress
    | cons first pending =>
      simp only [hpending] at hprogress
      exact recordGroup_inv hfiles hinv rfl hpending hprogress
  | spooled window batch group =>
    have hslots := hinv.slots_lt
    obtain ⟨hsteps, hwindow, hbatch, hgroup⟩ := hphaseInv
    have hfits := hbatch.fits
    cases hprogress
    refine ⟨hfiles.record ?_ fun _ => ⟨group, hgroup.load⟩,
      ⟨hsteps, hwindow.select hgroup, ?_, hbatch.complete⟩,
      slots_lt_append hslots hgroup.slot_eq, ?_⟩
    · intro other hother
      have hlt := hslots other hother
      simp only [TrainerPhase.recorded] at hlt
      rw [hgroup.slot_eq]
      exact hlt.ne
    · simp only
      omega
    · exact nofun
  | collected window =>
    exact useWindow_inv hfiles hinv rfl hprogress
  | trained =>
    have hdue : checkpointDue config steps = true := by
      simp [checkpointDue, config.saveFreq_one, Nat.mod_one]
    simp only [Trainer.advance, if_pos hdue] at hprogress
    cases hprogress
    have hraise : files.checkpoint ≤ steps := by
      have hstep : steps = files.checkpoint + 1 := hphaseInv
      omega
    refine ⟨hfiles.save hraise, hinv.move rfl rfl rfl rfl rfl ?_⟩
    have hstep : steps = files.checkpoint + 1 := hphaseInv
    exact ⟨rfl, by simp only; omega⟩
  | saved =>
    cases hprogress
    refine ⟨hfiles.close _ _, hinv.move rfl rfl rfl
      (historicalCandidates_close _ _) rfl
      ⟨hphaseInv.1, fun _ => hphaseInv.2, ?_⟩⟩
    change resumeCandidateRecords _ _ (files.evidence ++ _) = []
    have hprevious : steps - 1 + 1 = steps := Nat.sub_add_cancel hphaseInv.2
    rw [resumeCandidateRecords_append]
    simp [resumeLine, hprevious]
  | closed updated =>
    cases hprogress
    refine ⟨hfiles.cleanup hphaseInv.2.2, hinv.move rfl rfl rfl rfl rfl ?_⟩
    exact hphaseInv.1
  | cleaned updated =>
    obtain ⟨written, hwritten, hprogress⟩ := bind_eq_ok.mp hprogress
    have hinvWritten := hfiles.writeState hwritten (le_of_eq hphaseInv)
    cases hprogress
    unfold writeCandidateResumeState at hwritten
    rw [require_bind_eq_ok] at hwritten
    cases hwritten.2
    have hbehind : ∀ record ∈ historicalCandidates files.evidence,
        record.candidateScheduleSlot < slot := by
      exact hinv.slots_lt
    refine ⟨hinvWritten, ?_⟩
    unfold Trainer.goOn ProcessInv
    split_ifs with hdue
    · exact ⟨hphaseInv, hbehind, fun _ => hbehind⟩
    · exact ⟨hphaseInv, hbehind, fun _ => hbehind⟩
  | evaluating =>
    obtain ⟨after, hslot, hprogress⟩ := bind_eq_ok.mp hprogress
    cases hprogress
    have hmoved := mapError_eq_ok.mp hslot
    unfold candidateScheduleSlotAfterFixedEval at hmoved
    rw [require_bind_eq_ok] at hmoved
    cases hmoved.2
    refine ⟨hfiles, hphaseInv, ?_, fun _ => hinv.settled rfl⟩
    intro record hrecord
    have hlt : record.candidateScheduleSlot < slot :=
      hinv.slots_lt record hrecord
    simp only [TrainerPhase.recorded]
    omega

end Advance

/-! ## Errors -/

theorem collectBatch_error
    (hbatch : collectBatch config informative slot count cluster =
      .error error) : error.isResumeConsistency = false := by
  unfold collectBatch at hbatch
  rcases bind_eq_error.mp hbatch with hplanned | ⟨_, _, hbatch⟩
  · obtain ⟨_, _, rfl⟩ := mapError_eq_error.mp hplanned
    rfl
  · rcases bind_eq_error.mp hbatch with hgroups | ⟨_, _, hbatch⟩
    · unfold collectGroups at hgroups
      split_ifs at hgroups
      · obtain ⟨_, _, rfl⟩ := mapError_eq_error.mp hgroups
        rfl
      · rcases bind_eq_error.mp hgroups with hone | ⟨_, _, hgroups⟩
        · obtain ⟨_, rfl⟩ := require_eq_error.mp hone
          rfl
        · obtain ⟨_, _, rfl⟩ := mapError_eq_error.mp hgroups
          rfl
    · rcases bind_eq_error.mp hbatch with hlength | ⟨_, _, hbatch⟩
      · obtain ⟨_, rfl⟩ := require_eq_error.mp hlength
        rfl
      · cases hbatch

theorem writeState_error
    (hwritten : writeCandidateResumeState config version intended attempt
      slot files = .error error) : error.isResumeConsistency = false := by
  unfold writeCandidateResumeState at hwritten
  rcases bind_eq_error.mp hwritten with hwave | ⟨_, _, hwritten⟩
  · obtain ⟨_, rfl⟩ := require_eq_error.mp hwave
    rfl
  · cases hwritten

theorem advance_error (hfiles : FilesInv config files)
    {trainer : Trainer config} {error : TrainerError}
    (herror : trainer.advance oracle batches files = .error error) :
    error.isResumeConsistency = false := by
  obtain ⟨steps, slot, cluster, phase⟩ := trainer
  cases phase with
  | opening =>
    obtain ⟨window, hwindow⟩ := openWindow_ok hfiles steps
    simp only [Trainer.advance, hwindow] at herror
    split_ifs at herror
    cases herror
  | collecting window =>
    rcases bind_eq_error.mp herror with hcount | ⟨count, _, herror⟩
    · unfold nextGroupCount at hcount
      split_ifs at hcount
      obtain ⟨_, _, rfl⟩ := mapError_eq_error.mp hcount
      rfl
    · split_ifs at herror
      · cases herror
      · rcases bind_eq_error.mp herror with hbatch | ⟨_, _, herror⟩
        · exact collectBatch_error hbatch
        · cases herror
  | recording window batch =>
    simp only [Trainer.advance] at herror
    cases hpending : batch.pending with
    | nil =>
      simp only [hpending, Trainer.commitBatch] at herror
      rcases bind_eq_error.mp herror with hwritten | ⟨_, _, herror⟩
      · exact writeState_error hwritten
      · cases herror
    | cons first pending =>
      simp only [hpending, Trainer.recordGroup] at herror
      rcases bind_eq_error.mp herror with hlayout | ⟨_, _, herror⟩
      · obtain ⟨_, rfl⟩ := require_eq_error.mp hlayout
        rfl
      · split_ifs at herror <;> cases herror
  | spooled | trained | saved | closed => cases herror
  | collected window =>
    simp only [Trainer.advance, Trainer.useWindow] at herror
    split_ifs at herror
    rcases bind_eq_error.mp herror with hversions | ⟨_, _, herror⟩
    · obtain ⟨_, rfl⟩ := require_eq_error.mp hversions
      rfl
    · rcases bind_eq_error.mp herror with hlengths | ⟨_, _, herror⟩
      · obtain ⟨_, rfl⟩ := require_eq_error.mp hlengths
        rfl
      · cases herror
  | cleaned updated =>
    rcases bind_eq_error.mp herror with hwritten | ⟨_, _, herror⟩
    · exact writeState_error hwritten
    · cases herror
  | evaluating =>
    rcases bind_eq_error.mp herror with hslot | ⟨_, _, herror⟩
    · obtain ⟨_, _, rfl⟩ := mapError_eq_error.mp hslot
      rfl
    · cases herror

theorem startTrainer_ok (hfiles : FilesInv config files)
    (hsettled : SettledSlots files) :
    startTrainer config files (launcherCursor files) = .ok () := by
  cases hstate : files.resumeState with
  | none =>
    have hnone : historicalCandidates files.evidence = [] := by
      apply List.eq_nil_iff_forall_not_mem.mpr
      intro record hrecord
      have hlt := hsettled record hrecord
      simp only [resumeSlot, hstate] at hlt
      omega
    unfold startTrainer readCandidateResumeState
    simp only [hstate]
    exact require_of hnone _
  | some state =>
    have hread : readCandidateResumeState config files = .ok (some state) := by
      unfold readCandidateResumeState
      simp only [hstate]
      rw [require_bind_eq_ok]
      exact ⟨hfiles.state_base state hstate, rfl⟩
    have hcursor : launcherCursor files = state.trainCaseCursorStart := by
      simp only [launcherCursor, hstate]
    apply bind_eq_ok.mpr
    refine ⟨some state, hread, ?_⟩
    rw [require_bind_eq_ok]
    exact ⟨hfiles.state_old state hstate, require_of hcursor _⟩

theorem launchedTrainer_inv (hsettled : SettledSlots files) :
    TrainerInv files (launchedTrainer config files) where
  phase := rfl
  slots_lt := hsettled
  settled _ := hsettled

/-! ## Whole runs -/

def StateInv (state : TrainerState config) : Prop :=
  FilesInv config state.files ∧ ProcessInv state.files state.process

theorem StateInv.initial : StateInv (TrainerState.initial config) := by
  refine ⟨FilesInv.initial, ?_⟩
  exact nofun

def crashBetweenBatches (state : TrainerState config)
    (label : TrainerLabel) : Prop :=
  label = .crash → match state.process with
    | .running trainer => trainer.phase.recorded = 0
    | .failed _ trainer => trainer.phase.recorded = 0
    | _ => True

instance (state : TrainerState config) (label : TrainerLabel) :
    Decidable (crashBetweenBatches state label) := by
  unfold crashBetweenBatches
  cases state.process <;> infer_instance

variable {oracle : RolloutOracle}

/-! ## What the outputs say -/

theorem writeThenGo_output {computation : Except TrainerError DurableFiles}
    {trainer : Trainer config} {phase : TrainerPhase}
    {progress : TrainerProgress config}
    (hprogress : (computation >>= fun written =>
      pure (trainer.goOn written phase)) = .ok progress) :
    progress.output = .quiet := by
  obtain ⟨_, _, hprogress⟩ := bind_eq_ok.mp hprogress
  cases hprogress
  rfl

theorem recordGroup_output {trainer : Trainer config}
    {progress : TrainerProgress config}
    (hprogress : trainer.recordGroup files window batch group layout
      pending = .ok progress) : progress.output = .quiet := by
  unfold Trainer.recordGroup at hprogress
  rw [require_bind_eq_ok] at hprogress
  obtain ⟨_, hprogress⟩ := hprogress
  dsimp only at hprogress
  split_ifs at hprogress <;> cases hprogress <;> rfl

theorem advance_output {trainer : Trainer config} {batches : ℕ}
    {progress : TrainerProgress config}
    (hprogress : trainer.advance oracle batches files = .ok progress) :
    progress.output = .quiet ∨
      (∃ window groups, trainer.phase = .collecting window ∧
        progress.output = .collected trainer.scheduleSlot groups) ∨
      ∃ window, trainer.phase = .collected window ∧
        progress.output = .trained (window.accepted.map (·.record)) := by
  obtain ⟨steps, slot, cluster, phase⟩ := trainer
  cases phase with
  | opening =>
    simp only [Trainer.advance] at hprogress
    split_ifs at hprogress
    · obtain ⟨window, _, hprogress⟩ := bind_eq_ok.mp hprogress
      cases hprogress
      exact .inl rfl
    · cases hprogress
      exact .inl rfl
  | collecting window =>
    obtain ⟨count, _, hprogress⟩ := bind_eq_ok.mp hprogress
    split_ifs at hprogress
    · cases hprogress
      exact .inl rfl
    · obtain ⟨batch, _, hprogress⟩ := bind_eq_ok.mp hprogress
      cases hprogress
      exact .inr (.inl ⟨window, _, rfl, rfl⟩)
  | recording window batch =>
    simp only [Trainer.advance] at hprogress
    cases hpending : batch.pending with
    | nil =>
      simp only [hpending] at hprogress
      exact .inl (writeThenGo_output hprogress)
    | cons first pending =>
      simp only [hpending] at hprogress
      exact .inl (recordGroup_output hprogress)
  | collected window =>
    simp only [Trainer.advance, Trainer.useWindow] at hprogress
    split_ifs at hprogress
    · cases hprogress
      exact .inl rfl
    · cases hprogress
      exact .inl rfl
    · simp only [require_bind_eq_ok] at hprogress
      obtain ⟨_, _, hprogress⟩ := hprogress
      cases hprogress
      exact .inr (.inr ⟨window, rfl, rfl⟩)
  | cleaned updated =>
    exact .inl (writeThenGo_output hprogress)
  | evaluating =>
    obtain ⟨slot, _, hprogress⟩ := bind_eq_ok.mp hprogress
    cases hprogress
    exact .inl rfl
  | spooled window batch group | trained | saved | closed updated =>
    cases hprogress
    exact .inl rfl

def windowRecords (state : TrainerState config) : List CandidateRecord :=
  match state.process with
  | .running trainer =>
    resumeCandidateRecords (trainer.globalSteps + 1) trainer.globalSteps
      state.files.evidence
  | _ => []

/-- What is asked of every step: an update trains on no slot twice, a slot
recorded in the window is not collected again, and no process finds that its
files do not fit together. -/
def OutputSafe (state : TrainerState config) : TrainerOutput → Prop
  | .quiet => True
  | .collected slot groups =>
    ∀ record ∈ windowRecords state, ∀ index < groups.length,
      record.candidateScheduleSlot ≠ slot + index
  | .trained groups => (groups.map (·.candidateScheduleSlot)).Nodup
  | .failed error => error.isResumeConsistency = false

instance (state : TrainerState config) (output : TrainerOutput) :
    Decidable (OutputSafe state output) := by
  cases output <;> unfold OutputSafe <;> infer_instance

theorem TrainerInv.outputSafe {trainer : Trainer config}
    {progress : TrainerProgress config} (hfiles : FilesInv config files)
    (htrainer : TrainerInv files trainer)
    (hadvance : trainer.advance oracle batches files = .ok progress) :
    OutputSafe ⟨files, .running trainer, count⟩ progress.output := by
  have hphaseInv := htrainer.phase
  rcases advance_output hadvance with
    hquiet | ⟨window, groups, hphase, hout⟩ | ⟨window, hphase, hout⟩
  · rw [hquiet]
    trivial
  · rw [hout]
    intro record hrecord index _
    have hmem := (resumeCandidateRecords_sublist _ _ _).subset hrecord
    have hlt := htrainer.slots_lt record hmem
    rw [hphase] at hlt
    simp only [TrainerPhase.recorded] at hlt
    omega
  · rw [hout]
    rw [hphase] at hphaseInv
    have hwindow := hphaseInv.2
    have hsub := resumeCandidateRecords_sublist (trainer.globalSteps + 1)
      trainer.globalSteps files.evidence
    rw [← hwindow.records] at hsub
    have haccepted := hwindow.accepted.map_record
    simp only [OutputSafe]
    rw [haccepted]
    exact hfiles.slots_nodup.sublist ((List.filter_sublist.trans hsub).map _)

theorem StateInv.step (hinv : StateInv state)
    (hstep : (grfpoTrainer config oracle).step state label =
      some (output, next)) :
    OutputSafe state output ∧
      (crashBetweenBatches state label → StateInv next) := by
  obtain ⟨files, process, batches⟩ := state
  obtain ⟨hfiles, hprocess⟩ := hinv
  unfold grfpoTrainer at hstep
  cases label with
  | start =>
    cases process with
    | down =>
      simp only [startTrainer_ok hfiles hprocess] at hstep
      cases hstep
      exact ⟨trivial, fun _ => ⟨hfiles, launchedTrainer_inv hprocess⟩⟩
    | running | failed | finished => simp at hstep
  | advance =>
    cases process with
    | running trainer =>
      simp only at hstep
      cases hadvance : trainer.advance oracle batches files with
      | ok progress =>
        rw [hadvance] at hstep
        cases hstep
        exact ⟨hprocess.outputSafe hfiles hadvance,
          fun _ => advance_inv hfiles hprocess hadvance⟩
      | error error =>
        rw [hadvance] at hstep
        cases hstep
        exact ⟨advance_error hfiles hadvance, fun _ => ⟨hfiles, hprocess⟩⟩
    | down | failed | finished => simp at hstep
  | crash =>
    cases process with
    | running trainer | failed error trainer =>
      cases hstep
      exact ⟨trivial, fun hguard =>
        ⟨hfiles, hprocess.settled (hguard rfl)⟩⟩
    | down | finished => simp at hstep

def soloRobodojo : RoboDojoConfig where
  layoutIds := [0]
  trainLayoutSchedule := [0, 1, 2]
  trainPolicySeedSchedule := []
  trainLayoutRepeat := 8
  trainPolicySeedStart := some 100
  trainCaseCursorStart := 0
  evalPolicySeedSchedule := []
  seed := 7
  layoutIds_ne := by decide
  trainSeeds_aligned := by decide
  repeat_pos := by decide
  repeat_generated := by decide
  start_generated := pairedConfig.start_generated
  evalSeeds_aligned := by decide

/-- Three groups of eight for an update, one group in a wave. -/
def soloConfig (testFreq : ℕ) : GrfpoConfig where
  robodojo := soloRobodojo
  topology :=
    { worldSize := 1
      stageNum := 1
      numEnvs := 8
      numEnvs_pos := by decide }
  partition := .stage
  groupSize := 8
  acceptedGroupsPerUpdate := 3
  concurrentCandidateGroups := 1
  minAcceptedGroupsForPartialUpdate := 1
  initialCandidateGroupsPerUpdate := 0
  acceptedGroupsBeforeOptionalRefill := 0
  maxCandidateGroupsPerUpdate := 4
  totalTrainingSteps := 2
  saveFreq := 1
  testFreq := testFreq
  collectionOnly := false
  basePolicy := ⟨"base", "0"⟩
  groupsPerStage := 1
  groupsPerStage_eq := rfl
  groupSize_gt := by decide
  concurrent_pos := Nat.one_pos
  concurrent_le_accepted := by decide
  accepted_le_max := by decide
  min_pos := Nat.one_pos
  min_le_accepted := by decide
  concurrent_le_slots := by decide
  concurrent_dvd := by decide
  saveFreq_one := rfl

def everyGroupInformative : RolloutOracle where
  informative _ _ := true
  evalResets _ := 1

def soloExec (testFreq : ℕ) (labels : List TrainerLabel) :
    Option (List (Event (TrainerState (soloConfig testFreq)) TrainerLabel
      TrainerOutput) × TrainerState (soloConfig testFreq)) :=
  (grfpoTrainer (soloConfig testFreq) everyGroupInformative).exec
    (TrainerState.initial _) labels

theorem soloExec_run (hexec : (soloExec testFreq labels).isSome) :
    Run (grfpoTrainer (soloConfig testFreq) everyGroupInformative)
      (TrainerState.initial _) ((soloExec testFreq labels).get hexec).1
      ((soloExec testFreq labels).get hexec).2 :=
  Machine.run_of_exec (Option.some_get hexec).symm

/-- A launch, some steps, a crash, another launch and some steps. -/
def crashAfter (before after : ℕ) : List TrainerLabel :=
  .start :: List.replicate before .advance ++ .crash :: .start ::
    List.replicate after .advance

def trainsSlotTwice : TrainerOutput → Bool
  | .trained groups => ¬(groups.map (·.candidateScheduleSlot)).Nodup
  | _ => false

theorem crashInBatch_exec : (soloExec 0 (crashAfter 8 7)).isSome := by
  decide +kernel

theorem crashInFirstBatch_exec : (soloExec 0 (crashAfter 4 0)).isSome := by
  decide +kernel

theorem crashBetween_exec : (soloExec 0 (crashAfter 5 11)).isSome := by
  decide +kernel

end VerlVla
