import Mathlib.Data.List.Range
import VerlVla.PassLoader

/-!
# Supervised training and its resumption

The trainer submits one update after another, the next one often before the
current one is done, and saves the step together with the state of the data
loader.  A resumed run counts its epoch by division where a run that goes on
counts the ends of passes.
-/

namespace VerlVla

open List hiding count

structure SftConfig where
  totalEpochs : ℕ
  stepsPerEpoch : ℕ
  saveFreq : ℤ
  saveLast : Bool
  resumeDataloaderState : Bool
  profileSteps : List ℕ
  profileContinuousSteps : Bool

def SftConfig.totalTrainingSteps (config : SftConfig) : ℕ :=
  config.totalEpochs * config.stepsPerEpoch

structure SftCheckpoint where
  globalSteps : ℕ
  dataloader : PassPosition
  deriving DecidableEq

/-- What the submission of an update reads and changes. -/
structure SftFeed where
  loader : PassLoader
  epoch : ℕ
  submitted : List (BatchIndex × ℕ)
  deriving DecidableEq

structure SftTrainer where
  globalSteps : ℕ
  feed : SftFeed
  actorOutputFuture : Option BatchIndex
  actorOutputEpoch : ℕ
  reported : List ℕ
  saved : List SftCheckpoint
  deriving DecidableEq

namespace SftTrainer

variable (config : SftConfig)

/-- Draw a batch, from the next pass where the current one has no more. -/
def submitSftUpdate (feed : SftFeed) : Option (BatchIndex × ℕ × SftFeed) :=
  match feed.loader.next config.stepsPerEpoch with
  | some (batch, loader) =>
    some (batch, feed.epoch,
      ⟨loader, feed.epoch, feed.submitted ++ [(batch, feed.epoch)]⟩)
  | none =>
    let epoch := feed.epoch + 1
    match feed.loader.iter.next config.stepsPerEpoch with
    | some (batch, loader) =>
      some (batch, epoch, ⟨loader, epoch, feed.submitted ++ [(batch, epoch)]⟩)
    | none => none

structure StepControlFlags where
  isLastStep : Bool
  shouldSave : Bool

def getStepControlFlags (expiring : Bool) (globalSteps : ℕ) :
    StepControlFlags :=
  let currentStep := globalSteps + 1
  let isLastStep := decide (config.totalTrainingSteps ≤ currentStep)
  { isLastStep
    shouldSave := (decide (0 < config.saveFreq) &&
        (isLastStep || decide ((currentStep : ℤ) % config.saveFreq = 0) ||
          expiring)) ||
      (config.saveLast && isLastStep) }

def canPrefetchNext (flags : StepControlFlags) (currentStep : ℕ) : Bool :=
  let currentStepProfile := config.profileSteps.contains currentStep
  let nextStepProfile := config.profileSteps.contains (currentStep + 1)
  !flags.isLastStep && !flags.shouldSave &&
    (currentStepProfile == nextStepProfile) &&
    (config.profileContinuousSteps || !currentStepProfile)

def submitCurrent (trainer : SftTrainer) : Option SftTrainer :=
  match trainer.actorOutputFuture with
  | some _ => some trainer
  | none =>
    match submitSftUpdate config trainer.feed with
    | none => none
    | some (batch, epoch, feed) => some { trainer with
        feed
        actorOutputFuture := some batch
        actorOutputEpoch := epoch }

def completeStep (shouldSave : Bool) (nextFuture : Option BatchIndex)
    (nextEpoch : ℕ) (trainer : SftTrainer) : SftTrainer :=
  { globalSteps := trainer.globalSteps + 1
    feed := trainer.feed
    actorOutputFuture := nextFuture
    actorOutputEpoch := nextEpoch
    reported := trainer.reported ++ [trainer.actorOutputEpoch]
    saved := if shouldSave then
        trainer.saved ++
          [⟨trainer.globalSteps + 1, trainer.feed.loader.stateDict⟩]
      else trainer.saved }

def finishStep (expiring : Bool) (trainer : SftTrainer) : Option SftTrainer :=
  let flags := getStepControlFlags config expiring trainer.globalSteps
  if canPrefetchNext config flags (trainer.globalSteps + 1) then
    match submitSftUpdate config trainer.feed with
    | none => none
    | some (batch, epoch, feed) =>
      some (completeStep flags.shouldSave (some batch) epoch
        { trainer with feed })
  else
    some (completeStep flags.shouldSave none trainer.feed.epoch trainer)

def trainStep (expiring : Bool) (trainer : SftTrainer) : Option SftTrainer :=
  match submitCurrent config trainer with
  | none => none
  | some trainer => finishStep config expiring trainer

def trainLoop (expiring : ℕ → Bool) : ℕ → SftTrainer → Option SftTrainer
  | 0, trainer => some trainer
  | rounds + 1, trainer =>
    if trainer.globalSteps < config.totalTrainingSteps then
      match trainStep config (expiring trainer.globalSteps) trainer with
      | none => none
      | some trainer => trainLoop expiring rounds trainer
    else some trainer

def start : Option SftCheckpoint → SftTrainer
  | none =>
    ⟨0, ⟨PassLoader.fresh.iter, 0, []⟩, none, 0, [], []⟩
  | some checkpoint =>
    let loader := if config.resumeDataloaderState then
        PassLoader.loadStateDict checkpoint.dataloader
      else PassLoader.fresh
    let epoch := if 0 < config.stepsPerEpoch then
        checkpoint.globalSteps / config.stepsPerEpoch
      else 0
    ⟨checkpoint.globalSteps, ⟨loader.iter, epoch, []⟩, none, epoch, [], []⟩

def fit (expiring : ℕ → Bool) (checkpoint : Option SftCheckpoint) :
    Option SftTrainer :=
  let trainer := start config checkpoint
  trainLoop config expiring
    (config.totalTrainingSteps - trainer.globalSteps) trainer

/-- Checkpoints of runs that begin afresh or from such a checkpoint. -/
inductive SavedBy : SftCheckpoint → Prop
  | fresh {expiring : ℕ → Bool} {trainer : SftTrainer}
      {checkpoint : SftCheckpoint}
      (hfit : fit config expiring none = some trainer)
      (hsaved : checkpoint ∈ trainer.saved) : SavedBy checkpoint
  | resumed {earlier : SftCheckpoint} {expiring : ℕ → Bool}
      {trainer : SftTrainer} {checkpoint : SftCheckpoint}
      (hearlier : SavedBy earlier)
      (hfit : fit config expiring (some earlier) = some trainer)
      (hsaved : checkpoint ∈ trainer.saved) : SavedBy checkpoint

/-! ## What a run submits -/

section Runs

variable {config : SftConfig}

/-- The update of a run after so many others, in a run whose loader is at an
offset and whose epoch is ahead of its passes. -/
def updateAt (config : SftConfig) (offset ahead index : ℕ) : BatchIndex × ℕ :=
  (batchAt config.stepsPerEpoch (offset + index),
    (offset + index) / config.stepsPerEpoch + ahead)

def updates (config : SftConfig) (offset ahead count : ℕ) :
    List (BatchIndex × ℕ) :=
  (range count).map (updateAt config offset ahead)

theorem updates_succ (count : ℕ) : updates config offset ahead (count + 1) =
      updates config offset ahead count ++
        [updateAt config offset ahead count] := by
  unfold updates
  rw [range_succ, map_append]
  rfl

theorem updateAt_of_updates_eq (hcount : 0 < count)
    (heq : updates config offset ahead count =
      updates config other further count) :
    updateAt config offset ahead 0 = updateAt config other further 0 :=
  map_inj_left.mp heq 0 (mem_range.mpr hcount)

/-- The feed after so many updates. -/
structure Fed (config : SftConfig) (offset ahead count : ℕ)
    (feed : SftFeed) : Prop where
  loader : feed.loader =
    ⟨afterDraws config.stepsPerEpoch (offset + count), false⟩
  epoch : feed.epoch =
    (afterDraws config.stepsPerEpoch (offset + count)).pass + ahead
  submitted : feed.submitted = updates config offset ahead count

theorem Fed.drawn {feed : SftFeed} {epoch : ℕ}
    (hfed : Fed config offset ahead count feed)
    (hepoch : epoch = (updateAt config offset ahead count).2) :
    Fed config offset ahead (count + 1)
      ⟨⟨afterDraws config.stepsPerEpoch (offset + count + 1), false⟩, epoch,
        feed.submitted ++
          [(batchAt config.stepsPerEpoch (offset + count), epoch)]⟩ := by
  constructor
  · rfl
  · exact hepoch
  · rw [hfed.submitted, updates_succ, hepoch]
    rfl

theorem Fed.submit {feed : SftFeed} (hsteps : 0 < config.stepsPerEpoch)
    (hfed : Fed config offset ahead count feed) :
    ∃ next, submitSftUpdate config feed =
        some ((updateAt config offset ahead count).1,
          (updateAt config offset ahead count).2, next) ∧
      Fed config offset ahead (count + 1) next := by
  by_cases hinside : offset + count = 0 ∨
      ¬ config.stepsPerEpoch ∣ offset + count
  · have hnext := next_inside hsteps hinside false
    have hepoch : feed.epoch = (updateAt config offset ahead count).2 := by
      rw [hfed.epoch, afterDraws_inside hinside]
      rfl
    refine ⟨_, ?_, hfed.drawn hepoch⟩
    unfold submitSftUpdate
    rw [hfed.loader, hnext, ← hepoch]
    rfl
  · have hdraws : 0 < offset + count := by omega
    have hdvd : config.stepsPerEpoch ∣ offset + count := by
      by_contra hdvd
      exact hinside (Or.inr hdvd)
    obtain ⟨hnone, hnext⟩ := next_end hsteps hdraws hdvd
    have hepoch : feed.epoch + 1 = (updateAt config offset ahead count).2 := by
      rw [hfed.epoch, Nat.add_right_comm, (afterDraws_end hdraws hdvd).1]
      rfl
    refine ⟨_, ?_, hfed.drawn hepoch⟩
    unfold submitSftUpdate
    rw [hfed.loader, hnone, ← hepoch]
    simp only [hnext]
    rfl

/-- A run between two rounds: the updates done and the one submitted ahead. -/
structure Trained (config : SftConfig) (offset ahead first done : ℕ)
    (trainer : SftTrainer) : Prop where
  steps : trainer.globalSteps = first + done
  feed : Fed config offset ahead
    (done + trainer.actorOutputFuture.toList.length) trainer.feed
  future : ∀ batch, trainer.actorOutputFuture = some batch →
    (batch, trainer.actorOutputEpoch) = updateAt config offset ahead done ∧
      first + done < config.totalTrainingSteps
  reported : trainer.reported = (updates config offset ahead done).map Prod.snd
  saved : ∀ checkpoint ∈ trainer.saved, ∃ count, 0 < count ∧ count ≤ done ∧
    checkpoint = ⟨first + count,
      afterDraws config.stepsPerEpoch (offset + count)⟩

/-- A run within a round, with the update of the round submitted. -/
structure Submitted (config : SftConfig) (offset ahead first done : ℕ)
    (trainer : SftTrainer) : Prop where
  steps : trainer.globalSteps = first + done
  feed : Fed config offset ahead (done + 1) trainer.feed
  epoch : trainer.actorOutputEpoch = (updateAt config offset ahead done).2
  reported : trainer.reported = (updates config offset ahead done).map Prod.snd
  saved : ∀ checkpoint ∈ trainer.saved, ∃ count, 0 < count ∧ count ≤ done ∧
    checkpoint = ⟨first + count,
      afterDraws config.stepsPerEpoch (offset + count)⟩

theorem Trained.submitCurrent (hsteps : 0 < config.stepsPerEpoch)
    (htrained : Trained config offset ahead first done trainer) :
    ∃ submitted, trainer.submitCurrent config = some submitted ∧
      Submitted config offset ahead first done submitted := by
  unfold SftTrainer.submitCurrent
  cases hfuture : trainer.actorOutputFuture with
  | some batch =>
    have hfed := htrained.feed
    rw [hfuture] at hfed
    have hepoch := (htrained.future batch hfuture).1
    exact ⟨trainer, rfl, htrained.steps, hfed, congrArg Prod.snd hepoch,
      htrained.reported, htrained.saved⟩
  | none =>
    have hfed := htrained.feed
    rw [hfuture] at hfed
    obtain ⟨feed, hsubmit, hnext⟩ := hfed.submit hsteps
    simp only [hsubmit]
    exact ⟨_, rfl, htrained.steps, hnext, rfl, htrained.reported,
      htrained.saved⟩

theorem not_shouldSave_of_canPrefetchNext
    (hprefetch : canPrefetchNext config flags currentStep) :
    flags.shouldSave = false ∧ flags.isLastStep = false := by
  unfold canPrefetchNext at hprefetch
  simp only [Bool.and_eq_true, Bool.not_eq_true'] at hprefetch
  exact ⟨hprefetch.1.1.2, hprefetch.1.1.1⟩

theorem Submitted.reported_complete
    (hsubmitted : Submitted config offset ahead first done trainer) :
    trainer.reported ++ [trainer.actorOutputEpoch] =
      (updates config offset ahead (done + 1)).map Prod.snd := by
  rw [updates_succ, map_append, hsubmitted.reported, hsubmitted.epoch]
  rfl

theorem Submitted.saved_complete
    (hsubmitted : Submitted config offset ahead first done trainer)
    (shouldSave : Bool) (nextFuture : Option BatchIndex) (nextEpoch : ℕ) :
    ∀ checkpoint ∈
        (completeStep shouldSave nextFuture nextEpoch trainer).saved,
      ∃ count, 0 < count ∧ count ≤ done + 1 ∧ checkpoint = ⟨first + count,
          afterDraws config.stepsPerEpoch (offset + count)⟩ := by
  intro checkpoint hcheckpoint
  have hearlier : checkpoint ∈ trainer.saved → ∃ count, 0 < count ∧
      count ≤ done + 1 ∧ checkpoint = ⟨first + count,
        afterDraws config.stepsPerEpoch (offset + count)⟩ := by
    intro hsaved
    obtain ⟨count, hpositive, hcount, hcheckpoint⟩ :=
      hsubmitted.saved checkpoint hsaved
    exact ⟨count, hpositive, Nat.le_succ_of_le hcount, hcheckpoint⟩
  cases shouldSave with
  | false => exact hearlier hcheckpoint
  | true =>
    cases mem_append.mp hcheckpoint with
    | inl hsaved => exact hearlier hsaved
    | inr hlast =>
      rw [mem_singleton.mp hlast, hsubmitted.steps]
      unfold PassLoader.stateDict
      rw [hsubmitted.feed.loader]
      exact ⟨done + 1, Nat.succ_pos done, le_rfl, rfl⟩

theorem Submitted.finishStep (hsteps : 0 < config.stepsPerEpoch)
    (hsubmitted : Submitted config offset ahead first done trainer)
    (expiring : Bool) :
    ∃ next, trainer.finishStep config expiring = some next ∧
      Trained config offset ahead first (done + 1) next := by
  have hcomplete : trainer.globalSteps + 1 = first + (done + 1) := by
    rw [hsubmitted.steps]
    rfl
  unfold SftTrainer.finishStep
  simp only
  by_cases hprefetch : canPrefetchNext config
      (getStepControlFlags config expiring trainer.globalSteps)
      (trainer.globalSteps + 1) = true
  · obtain ⟨hsave, hlast⟩ := not_shouldSave_of_canPrefetchNext hprefetch
    obtain ⟨feed, hsubmit, hnext⟩ := hsubmitted.feed.submit hsteps
    have hbound := of_decide_eq_false hlast
    rw [if_pos hprefetch, hsubmit]
    refine ⟨completeStep _ (some (updateAt config offset ahead (done + 1)).1)
      (updateAt config offset ahead (done + 1)).2 { trainer with feed }, rfl,
      hcomplete, hnext, ?_, hsubmitted.reported_complete, ?_⟩
    · intro batch hbatch
      cases hbatch
      exact ⟨rfl, by omega⟩
    · rw [hsave]
      exact hsubmitted.saved_complete false none 0
  · rw [if_neg hprefetch]
    exact ⟨completeStep _ none trainer.feed.epoch trainer, rfl, hcomplete,
      hsubmitted.feed, nofun, hsubmitted.reported_complete,
      hsubmitted.saved_complete _ _ _⟩

theorem Trained.trainStep (hsteps : 0 < config.stepsPerEpoch)
    (htrained : Trained config offset ahead first done trainer)
    (expiring : Bool) :
    ∃ next, trainer.trainStep config expiring = some next ∧
      Trained config offset ahead first (done + 1) next := by
  obtain ⟨submitted, hsubmit, hsubmitted⟩ := htrained.submitCurrent hsteps
  unfold SftTrainer.trainStep
  rw [hsubmit]
  exact hsubmitted.finishStep hsteps expiring

theorem Trained.trainLoop (hsteps : 0 < config.stepsPerEpoch)
    (expiring : ℕ → Bool) (rounds : ℕ)
    (htrained : Trained config offset ahead first done trainer)
    (hrounds : first + done + rounds ≤ config.totalTrainingSteps) :
    ∃ final, trainer.trainLoop config expiring rounds = some final ∧
      Trained config offset ahead first (done + rounds) final := by
  induction rounds generalizing done trainer with
  | zero => exact ⟨trainer, rfl, htrained⟩
  | succ rounds ih =>
    obtain ⟨next, hstep, hnext⟩ :=
      htrained.trainStep hsteps (expiring trainer.globalSteps)
    have hbefore : trainer.globalSteps < config.totalTrainingSteps := by
      rw [htrained.steps]
      omega
    obtain ⟨final, hloop, hfinal⟩ := ih hnext (by omega)
    unfold SftTrainer.trainLoop
    rw [if_pos hbefore, hstep]
    rw [show done + (rounds + 1) = done + 1 + rounds by omega]
    exact ⟨final, hloop, hfinal⟩

theorem updates_drop (config : SftConfig) (start rest : ℕ) :
    (updates config 0 0 (start + rest)).drop start =
      updates config start 0 rest := by
  have hsplit : updates config 0 0 (start + rest) =
      updates config 0 0 start ++ updates config start 0 rest := by
    unfold updates
    rw [range_add, map_append, map_map]
    congr 1
    apply map_congr_left
    intro index _
    simp only [Function.comp_apply, updateAt, Nat.zero_add]
  have hlength : (updates config 0 0 start).length = start := by
    simp [updates]
  rw [hsplit, drop_left' hlength]

theorem Trained.submitted_eq
    (htrained : Trained config offset ahead first done trainer)
    (hover : config.totalTrainingSteps ≤ first + done) :
    trainer.feed.submitted = updates config offset ahead done := by
  cases hfuture : trainer.actorOutputFuture with
  | none =>
    have hsubmitted := htrained.feed.submitted
    rw [hfuture] at hsubmitted
    exact hsubmitted
  | some batch =>
    have hbound := (htrained.future batch hfuture).2
    omega

theorem fit_of_start (hsteps : 0 < config.stepsPerEpoch) (expiring : ℕ → Bool)
    (htrained : Trained config offset ahead first 0 (start config checkpoint))
    (hfirst : first ≤ config.totalTrainingSteps) :
    ∃ trainer, fit config expiring checkpoint = some trainer ∧
      Trained config offset ahead first
        (config.totalTrainingSteps - first) trainer := by
  have hstart : (start config checkpoint).globalSteps = first := htrained.steps
  obtain ⟨trainer, hloop, hfinal⟩ := htrained.trainLoop hsteps expiring
    (config.totalTrainingSteps - first) (by omega)
  rw [Nat.zero_add] at hfinal
  unfold fit
  simp only [hstart]
  exact ⟨trainer, hloop, hfinal⟩

theorem trained_fresh (config : SftConfig) :
    Trained config 0 0 0 0 (start config none) := by
  refine ⟨rfl, ⟨rfl, rfl, rfl⟩, nofun, rfl, nofun⟩

theorem trained_resumed (hsteps : 0 < config.stepsPerEpoch)
    (hresume : config.resumeDataloaderState = true)
    (hposition : checkpoint.dataloader =
      afterDraws config.stepsPerEpoch checkpoint.globalSteps)
    (hepoch : checkpoint.globalSteps / config.stepsPerEpoch =
      (afterDraws config.stepsPerEpoch checkpoint.globalSteps).pass + ahead) :
    Trained config checkpoint.globalSteps ahead checkpoint.globalSteps 0
      (start config (some checkpoint)) := by
  unfold start
  simp only [if_pos hresume, if_pos hsteps, hposition]
  exact ⟨rfl, ⟨rfl, hepoch, rfl⟩, nofun, rfl, nofun⟩

theorem trained_restarted (hsteps : 0 < config.stepsPerEpoch)
    (checkpoint : SftCheckpoint)
    (hresume : config.resumeDataloaderState = false) :
    Trained config 0 (checkpoint.globalSteps / config.stepsPerEpoch)
      checkpoint.globalSteps 0 (start config (some checkpoint)) := by
  unfold start
  simp only [hresume, if_pos hsteps]
  exact ⟨rfl, ⟨rfl, (Nat.zero_add _).symm, rfl⟩, nofun, rfl, nofun⟩

theorem exists_trained_resumed (hsteps : 0 < config.stepsPerEpoch)
    (hresume : config.resumeDataloaderState = true)
    (hposition : checkpoint.dataloader =
      afterDraws config.stepsPerEpoch checkpoint.globalSteps)
    (hstep : 0 < checkpoint.globalSteps) :
    Trained config checkpoint.globalSteps
      (if config.stepsPerEpoch ∣ checkpoint.globalSteps then 1 else 0)
      checkpoint.globalSteps 0 (start config (some checkpoint)) := by
  apply trained_resumed hsteps hresume hposition
  by_cases hdvd : config.stepsPerEpoch ∣ checkpoint.globalSteps
  · rw [if_pos hdvd]
    exact (afterDraws_end hstep hdvd).1.symm
  · rw [if_neg hdvd, afterDraws_inside (Or.inr hdvd)]
    rfl

/-- A checkpoint of a run: its step is one of the training, and its loader has
drawn as many batches. -/
structure Recorded (config : SftConfig) (checkpoint : SftCheckpoint) :
    Prop where
  positive : 0 < checkpoint.globalSteps
  le_total : checkpoint.globalSteps ≤ config.totalTrainingSteps
  position : config.resumeDataloaderState = true → checkpoint.dataloader =
      afterDraws config.stepsPerEpoch checkpoint.globalSteps

theorem Recorded.stepsPerEpoch_pos (hrecorded : Recorded config checkpoint) :
    0 < config.stepsPerEpoch := by
  apply Nat.pos_of_ne_zero
  intro hzero
  have hpositive := hrecorded.positive
  have hle := hrecorded.le_total
  unfold SftConfig.totalTrainingSteps at hle
  rw [hzero] at hle
  omega

theorem Trained.recorded
    (htrained : Trained config offset ahead first done trainer)
    (hdone : first + done ≤ config.totalTrainingSteps)
    (hoffset : config.resumeDataloaderState = true → offset = first)
    (hsaved : checkpoint ∈ trainer.saved) :
    Recorded config checkpoint := by
  obtain ⟨count, hpositive, hcount, rfl⟩ := htrained.saved checkpoint hsaved
  constructor
  · exact Nat.lt_of_lt_of_le hpositive (Nat.le_add_left count first)
  · exact Nat.le_trans (Nat.add_le_add_left hcount first) hdone
  · intro hresume
    rw [hoffset hresume]

theorem SavedBy.recorded (hsaved : SavedBy config checkpoint) :
    Recorded config checkpoint := by
  induction hsaved with
  | @fresh expiring trainer checkpoint hfit hsaved =>
    by_cases hsteps : 0 < config.stepsPerEpoch
    · obtain ⟨other, hother, htrained⟩ :=
        fit_of_start hsteps expiring (trained_fresh config) (Nat.zero_le _)
      obtain rfl := Option.some.inj (hfit.symm.trans hother)
      exact htrained.recorded (by omega) (fun _ => rfl) hsaved
    · have htotal : config.totalTrainingSteps = 0 := by
        unfold SftConfig.totalTrainingSteps
        rw [Nat.eq_zero_of_not_pos hsteps]
        rfl
      have hloop : trainLoop config expiring
          (config.totalTrainingSteps - 0) (start config none) =
          some trainer := hfit
      rw [htotal] at hloop
      cases hloop
      cases hsaved
  | @resumed earlier expiring trainer checkpoint _ hfit hsaved ih =>
    have hsteps := ih.stepsPerEpoch_pos
    have hle := ih.le_total
    by_cases hresume : config.resumeDataloaderState = true
    · obtain ⟨other, hother, htrained⟩ := fit_of_start hsteps expiring
        (exists_trained_resumed hsteps hresume (ih.position hresume)
          ih.positive) hle
      obtain rfl := Option.some.inj (hfit.symm.trans hother)
      exact htrained.recorded (by omega) (fun _ => rfl) hsaved
    · obtain ⟨other, hother, htrained⟩ := fit_of_start hsteps expiring
        (trained_restarted hsteps earlier (Bool.eq_false_of_not_eq_true
          hresume)) hle
      obtain rfl := Option.some.inj (hfit.symm.trans hother)
      exact htrained.recorded (by omega) (fun h => absurd h hresume) hsaved

/-- The rest of an uninterrupted run is submitted and reported after a
checkpoint. -/
def ContinuesRun (config : SftConfig) (expiring resumedExpiring : ℕ → Bool)
    (checkpoint : SftCheckpoint) : Prop :=
  ∃ whole rest, fit config expiring none = some whole ∧
    fit config resumedExpiring (some checkpoint) = some rest ∧
    rest.feed.submitted = whole.feed.submitted.drop checkpoint.globalSteps ∧
    rest.reported = whole.reported.drop checkpoint.globalSteps

theorem continuesRun_iff_updates (hrecorded : Recorded config checkpoint)
    (htrained : Trained config offset ahead checkpoint.globalSteps 0
      (start config (some checkpoint))) (expiring resumedExpiring : ℕ → Bool) :
    ContinuesRun config expiring resumedExpiring checkpoint ↔
      updates config offset ahead
          (config.totalTrainingSteps - checkpoint.globalSteps) =
        updates config checkpoint.globalSteps 0
          (config.totalTrainingSteps - checkpoint.globalSteps) := by
  have hsteps := hrecorded.stepsPerEpoch_pos
  have hle := hrecorded.le_total
  obtain ⟨whole, hwhole, hall⟩ :=
    fit_of_start hsteps expiring (trained_fresh config) (Nat.zero_le _)
  obtain ⟨rest, hrest, hremaining⟩ :=
    fit_of_start hsteps resumedExpiring htrained hle
  have hsubmitted := hall.submitted_eq (by omega)
  have hresubmitted := hremaining.submitted_eq (by omega)
  have hdrop := updates_drop config checkpoint.globalSteps
    (config.totalTrainingSteps - checkpoint.globalSteps)
  rw [Nat.add_sub_cancel' hle] at hdrop
  rw [Nat.sub_zero] at hsubmitted
  constructor
  · rintro ⟨other, resumed, hother, hresumed, heq, -⟩
    obtain rfl := Option.some.inj (hwhole.symm.trans hother)
    obtain rfl := Option.some.inj (hrest.symm.trans hresumed)
    rw [← hresubmitted, heq, hsubmitted, hdrop]
  · intro heq
    refine ⟨whole, rest, hwhole, hrest, ?_, ?_⟩
    · rw [hresubmitted, heq, hsubmitted, hdrop]
    · rw [hremaining.reported, hall.reported, heq, ← map_drop,
        Nat.sub_zero, hdrop]

/-- A resumed run goes on as the uninterrupted one exactly where nothing is
left, or its loader was resumed inside a pass. -/
theorem resumed_run_continues_iff {checkpoint : SftCheckpoint}
    (hsaved : SavedBy config checkpoint)
    (expiring resumedExpiring : ℕ → Bool) :
    ContinuesRun config expiring resumedExpiring checkpoint ↔
      checkpoint.globalSteps = config.totalTrainingSteps ∨
        (config.resumeDataloaderState = true ∧
          ¬ config.stepsPerEpoch ∣ checkpoint.globalSteps) := by
  have hrecorded := hsaved.recorded
  have hsteps := hrecorded.stepsPerEpoch_pos
  have hle := hrecorded.le_total
  have hpositive := hrecorded.positive
  by_cases hover : checkpoint.globalSteps = config.totalTrainingSteps
  · have hrest : config.totalTrainingSteps - checkpoint.globalSteps = 0 := by
      omega
    simp only [hover, true_or, iff_true]
    by_cases hresume : config.resumeDataloaderState = true
    · apply (continuesRun_iff_updates hrecorded (exists_trained_resumed hsteps
        hresume (hrecorded.position hresume) hpositive) _ _).mpr
      rw [hrest]
      rfl
    · apply (continuesRun_iff_updates hrecorded (trained_restarted hsteps
        checkpoint (Bool.eq_false_of_not_eq_true hresume)) _ _).mpr
      rw [hrest]
      rfl
  · have hfirst : 0 < config.totalTrainingSteps - checkpoint.globalSteps := by
      omega
    simp only [hover, false_or]
    by_cases hresume : config.resumeDataloaderState = true
    · rw [continuesRun_iff_updates hrecorded (exists_trained_resumed hsteps
        hresume (hrecorded.position hresume) hpositive)]
      by_cases hdvd : config.stepsPerEpoch ∣ checkpoint.globalSteps
      · simp only [hdvd, not_true_eq_false, and_false, iff_false, if_true]
        intro heq
        have hhead := updateAt_of_updates_eq hfirst heq
        have hepoch := congrArg Prod.snd hhead
        simp only [updateAt] at hepoch
        omega
      · simp only [hresume, hdvd, not_false_eq_true, and_self, if_false]
    · rw [continuesRun_iff_updates hrecorded (trained_restarted hsteps
        checkpoint (Bool.eq_false_of_not_eq_true hresume))]
      simp only [hresume, false_and, iff_false, Bool.false_eq_true]
      intro heq
      have hhead := updateAt_of_updates_eq hfirst heq
      have hbatch := congrArg Prod.fst hhead
      simp only [updateAt, batchAt, Nat.add_zero, Nat.zero_div,
        Nat.zero_mod, BatchIndex.mk.injEq] at hbatch
      have hdivision :=
        Nat.div_add_mod checkpoint.globalSteps config.stepsPerEpoch
      rw [← hbatch.1, ← hbatch.2] at hdivision
      omega

end Runs

def twoPasses : SftConfig where
  totalEpochs := 2
  stepsPerEpoch := 2
  saveFreq := 1
  saveLast := true
  resumeDataloaderState := true
  profileSteps := []
  profileContinuousSteps := false

/-- Inside a pass the run goes on. -/
theorem resumed_inside_first_pass :
    ContinuesRun twoPasses (fun _ => false) (fun _ => true) ⟨1, ⟨0, 1⟩⟩ :=
  (resumed_run_continues_iff
    (@SavedBy.fresh twoPasses (fun _ => false) _ _ rfl mem_cons_self)
    _ _).mpr (Or.inr ⟨rfl, by decide⟩)

/-- At the end of a pass the resumed run counts the epoch twice. -/
theorem resumed_at_end_of_pass : ∃ checkpoint, SavedBy twoPasses checkpoint ∧
      checkpoint = ⟨2, ⟨0, 2⟩⟩ ∧
      (∃ whole, fit twoPasses (fun _ => false) none = some whole ∧
        whole.feed.submitted.drop 2 = [(⟨1, 0⟩, 1), (⟨1, 1⟩, 1)]) ∧
      (∃ rest, fit twoPasses (fun _ => false) (some checkpoint) = some rest ∧
        rest.feed.submitted = [(⟨1, 0⟩, 2), (⟨1, 1⟩, 2)]) ∧
      ¬ ContinuesRun twoPasses (fun _ => false) (fun _ => false)
        checkpoint := by
  have hsaved : SavedBy twoPasses ⟨2, ⟨0, 2⟩⟩ :=
    @SavedBy.fresh twoPasses (fun _ => false) _ _ rfl
      (mem_cons_of_mem _ mem_cons_self)
  refine ⟨_, hsaved, rfl, ⟨_, rfl, rfl⟩, ⟨_, rfl, rfl⟩, ?_⟩
  rintro ⟨whole, rest, hwhole, hrest, hsubmitted, -⟩
  cases hwhole
  cases hrest
  revert hsubmitted
  decide

end SftTrainer

end VerlVla
