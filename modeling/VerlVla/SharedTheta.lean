import VerlVla.ActorDirectory
import VerlVla.CheckpointResume

/-!
# One theta for rollouts and training

After a completed save the trainer reads the files of that save only.  A
collector does so unless an earlier attempt left the file of a single rank.
-/

namespace VerlVla

open Finset

section Theta

variable {α O B S R : Type} {optimizers : ℤ → Sharding O B}

def tensorsUnder (pattern : String) (model : List (ModelTensor α)) :
    List (String × List α) :=
  (model.filter fun tensor => startsWith pattern tensor.name).map
    fun tensor => (removePattern pattern tensor.name, tensor.rows)

/-- Collectors and trainers read the tensors of the last save and no file of
an earlier attempt, or raise. -/
structure OneTheta (optimizers : ℤ → Sharding O B)
    (last : SaveAttempt α O S R) (directory : ActorDirectory α O B S R) :
    Prop where
  collected : ∀ digits source payload,
    loadActorIntoNativePolicy digits source directory = .ok payload →
      payload.mot = tensorsUnder motPrefix last.snapshot.model ∧
      payload.proprioEncoder = tensorsUnder proprioPrefix last.snapshot.model
  restored : ∀ fsdpSize world ranks,
    directory.loadCheckpoint (actorSharding fsdpSize) (optimizers fsdpSize)
      world = .ok ranks →
        (actorSharding last.fsdpSize).gather world ranks.model =
          last.snapshot.model
  collector_fresh : ∀ shard state,
    resolveActorCheckpoint directory = .ok shard →
      loadVerlActorState directory shard = .ok state → shard.1 = last.worldSize
  trainer_fresh : ∀ fsdpSize world ranks,
    directory.loadCheckpoint (actorSharding fsdpSize) (optimizers fsdpSize)
      world = .ok ranks → world = last.worldSize

/-! ## Saves and files -/

namespace SaveAttempt

theorem directory_snoc (attempts : List (SaveAttempt α O S R))
    (last : SaveAttempt α O S R) :
    directory optimizers (attempts ++ [last]) =
      last.apply optimizers (directory optimizers attempts) := by
  rw [directory, List.foldl_append]
  rfl

theorem portableModel_directory (attempts : List (SaveAttempt α O S R)) :
    (directory optimizers attempts).portableModel = none := by
  induction attempts using List.reverseRecOn with
  | nil => rfl
  | append_singleton attempts last ih =>
    rw [directory_snoc]
    exact ih

variable {last : SaveAttempt α O S R} (directory : ActorDirectory α O B S R)

theorem apply_model_of_ne (hworld : world ≠ last.worldSize) (rank : ℕ) :
    (last.apply optimizers directory).model world rank =
      directory.model world rank := by
  apply dif_neg
  rintro ⟨heq, _⟩
  exact hworld heq

variable (hcompleted : last.Completed)
include hcompleted

theorem rankFiles : RankFiles
    (last.apply optimizers directory).toCheckpointFiles last.worldSize
    (last.ranks optimizers) := by
  intro rank
  have hown : last.worldSize = last.worldSize ∧ ↑rank < last.worldSize :=
    ⟨rfl, rank.2⟩
  refine ⟨?_, ?_, ?_⟩
  · refine (dif_pos hown).trans ?_
    rw [hcompleted.model rank rank.2]
  · refine (dif_pos hown).trans ?_
    rw [hcompleted.optimizer rank rank.2]
  · refine (dif_pos hown).trans ?_
    rw [hcompleted.extra rank rank.2]

theorem fsdpConfig : (last.apply optimizers directory).fsdpConfig =
    some last.worldSize := if_pos hcompleted.config

theorem mem_listing (hrank : rank < last.worldSize) :
    (last.worldSize, rank) ∈ (last.apply optimizers directory).listing := by
  apply mem_union_right
  rw [mem_writtenShards, hcompleted.model rank hrank]
  exact ⟨rfl, hrank, by decide⟩

end SaveAttempt

theorem loadCheckpoint_after_save (attempts : List (SaveAttempt α O S R))
    {last : SaveAttempt α O S R} (hcompleted : last.Completed)
    {ranks : RankStates (Written (StateDict α)) B S R world}
    (hranks : ((last.apply optimizers (SaveAttempt.directory optimizers
      attempts)).loadCheckpoint (actorSharding fsdpSize)
        (optimizers fsdpSize) world) = .ok ranks) :
    world = last.worldSize ∧
      (actorSharding last.fsdpSize).gather world ranks.model =
        last.snapshot.model := by
  have hportable : (last.apply optimizers (SaveAttempt.directory optimizers
      attempts)).portableModel = none :=
    SaveAttempt.portableModel_directory attempts
  rw [CheckpointFiles.loadCheckpoint, SaveAttempt.fsdpConfig _ hcompleted]
    at hranks
  by_cases hworld : last.worldSize = world
  · subst hworld
    have hfiles : RankFiles (last.apply optimizers (SaveAttempt.directory
        optimizers attempts)).toCheckpointFiles last.worldSize
          (last.ranks optimizers) := SaveAttempt.rankFiles _ hcompleted
    have hshards := loadShards_of_rankFiles hfiles
    simp only [ne_eq, not_true_eq_false, if_false] at hranks
    rw [hshards] at hranks
    cases hranks
    exact ⟨rfl, (actorSharding last.fsdpSize).gather_distribute _ _
      last.world_pos⟩
  · simp only [ne_eq, hworld, not_false_eq_true, if_true,
      CheckpointFiles.loadPortableCheckpoint, hportable] at hranks
    cases hranks

/-! ## The collector -/

theorem nativeLocalTensor_stored {tensor : ModelTensor α}
    (hrows : nativeLocalTensor name (tensor.stored group 0) = .ok rows) :
    tensor.rows = rows := by
  obtain ⟨own, sharded, all⟩ := tensor
  cases sharded with
  | false => exact Except.ok.inj hrows
  | true =>
    have hrows : nativeLocalTensor name (.dtensor all.length
        (shardRows group 0 all)) = .ok rows := hrows
    rw [nativeLocalTensor, require_bind_eq_ok] at hrows
    obtain ⟨hlength, hresult⟩ := hrows
    rw [shardRows_eq_self hlength] at hresult
    exact Except.ok.inj hresult

theorem localTensors_rankState
    (htensors : localTensors pattern (rankState group 0 model) =
      .ok tensors) : tensors = tensorsUnder pattern model := by
  have hfilter : (rankState group 0 model).filter (fun entry =>
      startsWith pattern entry.1) =
      (model.filter fun tensor => startsWith pattern tensor.name).map
        fun tensor => (tensor.name, tensor.stored group 0) := by
    rw [rankState, List.filter_map, Nat.zero_mod]
    rfl
  rw [localTensors, hfilter, mapM_eq_ok, List.forall₂_map_left_iff] at htensors
  have hequal : List.Forall₂ (· = ·)
      ((model.filter fun tensor => startsWith pattern tensor.name).map
        fun tensor => (removePattern pattern tensor.name, tensor.rows))
      tensors := by
    rw [List.forall₂_map_left_iff]
    apply htensors.imp
    intro tensor value hvalue
    rw [bind_eq_ok] at hvalue
    obtain ⟨rows, hrows, hresult⟩ := hvalue
    rw [nativeLocalTensor_stored hrows]
    exact Except.ok.inj hresult
  rw [List.forall₂_eq_eq_eq] at hequal
  exact hequal.symm

theorem buildNativeFastwamPayload_rankState {payload : NativePayload α}
    (hpayload : buildNativeFastwamPayload (rankState group 0 model) step
      torchDtype = .ok payload) :
    payload.mot = tensorsUnder motPrefix model ∧
      payload.proprioEncoder = tensorsUnder proprioPrefix model := by
  simp only [buildNativeFastwamPayload, bind_eq_ok, require_eq_ok] at hpayload
  obtain ⟨mot, hmot, proprio, hproprio, _, _, _, _, _, _, hresult⟩ := hpayload
  cases hresult
  exact ⟨localTensors_rankState hmot, localTensors_rankState hproprio⟩

theorem resolveActorCheckpoint_cases {directory : ActorDirectory α O B S R}
    (hshard : resolveActorCheckpoint directory = .ok shard) :
    (1, 0) ∈ directory.listing ∧ shard = (1, 0) ∨
      (1, 0) ∉ directory.listing ∧ shard.2 = 0 ∧
        ∀ listed ∈ directory.listing, listed.1 = shard.1 := by
  unfold resolveActorCheckpoint at hshard
  by_cases hsingle : (1, 0) ∈ directory.listing
  · rw [if_pos hsingle] at hshard
    exact .inl ⟨hsingle, (Except.ok.inj hshard).symm⟩
  · rw [if_neg hsingle] at hshard
    by_cases hempty : directory.listing = ∅
    · rw [if_pos hempty] at hshard
      cases hshard
    · rw [if_neg hempty] at hshard
      cases hsizes : (directory.listing.image Prod.fst).sort (· ≤ ·) with
      | nil =>
        simp [hsizes] at hshard
      | cons saved others =>
        cases others with
        | cons other others =>
          simp [hsizes] at hshard
        | nil =>
          rw [hsizes] at hshard
          simp only [require_bind_eq_ok] at hshard
          obtain ⟨_, hresult⟩ := hshard
          cases hresult
          refine .inr ⟨hsingle, rfl, ?_⟩
          intro listed hlisted
          have hmem : listed.1 ∈
              (directory.listing.image Prod.fst).sort (· ≤ ·) := by
            rw [mem_sort]
            exact mem_image_of_mem _ hlisted
          rw [hsizes] at hmem
          exact List.mem_singleton.mp hmem

def HoldsSingleRank (directory : ActorDirectory α O B S R) : Prop :=
  ∃ state, directory.model 1 0 = some (.complete state)

theorem collector_reads_last {directory : ActorDirectory α O B S R}
    {last : SaveAttempt α O S R} (hcompleted : last.Completed)
    (hstale : last.worldSize = 1 ∨ ¬HoldsSingleRank directory)
    (hshard : resolveActorCheckpoint (last.apply optimizers directory) =
      .ok shard)
    (hstate : loadVerlActorState (last.apply optimizers directory) shard =
      .ok state) :
    shard.1 = last.worldSize ∧ state = rankState
      (fsdpGroup last.fsdpSize last.worldSize) 0 last.snapshot.model := by
  have hfirst : (last.worldSize, 0) ∈
      (last.apply optimizers directory).listing :=
    SaveAttempt.mem_listing directory hcompleted last.world_pos
  have hcontent : (last.apply optimizers directory).model last.worldSize 0 =
      some (.complete (rankState (fsdpGroup last.fsdpSize last.worldSize) 0
        last.snapshot.model)) :=
    (SaveAttempt.rankFiles directory hcompleted ⟨0, last.world_pos⟩).1
  have hown : shard.1 = last.worldSize ∧ shard.2 = 0 := by
    rcases resolveActorCheckpoint_cases hshard with
      ⟨hsingle, rfl⟩ | ⟨hsingle, hzero, hall⟩
    · by_cases hworld : last.worldSize = 1
      · exact ⟨hworld.symm, rfl⟩
      · have hold : (last.apply optimizers directory).model 1 0 =
            directory.model 1 0 :=
          SaveAttempt.apply_model_of_ne directory (Ne.symm hworld) 0
        have hnone := hstale.resolve_left hworld
        rw [loadVerlActorState, hold] at hstate
        cases hmodel : directory.model 1 0 with
        | none =>
          simp [hmodel] at hstate
        | some written =>
          cases written with
          | torn =>
            simp [hmodel] at hstate
          | complete content => exact absurd ⟨content, hmodel⟩ hnone
    · exact ⟨(hall _ hfirst).symm, hzero⟩
  refine ⟨hown.1, ?_⟩
  rw [loadVerlActorState, hown.1, hown.2, hcontent] at hstate
  exact (Except.ok.inj hstate).symm

/-- Whatever the attempts before a completed save, rollouts and training share
theta exactly if the save is of one rank or no attempt left the file of one. -/
theorem one_theta_iff (optimizers : ℤ → Sharding O B)
    (attempts : List (SaveAttempt α O S R)) (last : SaveAttempt α O S R)
    (hcompleted : last.Completed) :
    OneTheta optimizers last
        (SaveAttempt.directory optimizers (attempts ++ [last])) ↔
      last.worldSize = 1 ∨
        ¬HoldsSingleRank (SaveAttempt.directory optimizers attempts) := by
  rw [SaveAttempt.directory_snoc]
  constructor
  · intro htheta
    by_contra hnot
    push Not at hnot
    obtain ⟨hworld, state, hstate⟩ := hnot
    have hmodel : (last.apply optimizers (SaveAttempt.directory optimizers
        attempts)).model 1 0 = some (.complete state) := by
      rw [SaveAttempt.apply_model_of_ne _ (Ne.symm hworld), hstate]
    have hlisted : (1, 0) ∈ (last.apply optimizers (SaveAttempt.directory
        optimizers attempts)).listing := by
      rw [ActorDirectory.listed, hmodel]
      rfl
    have hresolved := htheta.collector_fresh (1, 0) state (if_pos hlisted)
      (by rw [loadVerlActorState, hmodel])
    exact hworld hresolved.symm
  · intro hstale
    constructor
    · intro digits source payload hpayload
      simp only [loadActorIntoNativePolicy, bind_eq_ok] at hpayload
      obtain ⟨shard, hshard, state, hstate, hbuild⟩ := hpayload
      obtain ⟨_, rfl⟩ := collector_reads_last hcompleted hstale hshard hstate
      exact buildNativeFastwamPayload_rankState hbuild
    · intro fsdpSize world ranks hranks
      exact (loadCheckpoint_after_save attempts hcompleted hranks).2
    · intro shard state hshard hstate
      exact (collector_reads_last hcompleted hstale hshard hstate).1
    · intro fsdpSize world ranks hranks
      exact (loadCheckpoint_after_save attempts hcompleted hranks).1

end Theta

/-! ## A run of one rank before a run of two -/

def noOptimizer : Sharding Unit Unit :=
  ⟨fun _ _ _ => (), fun _ _ => (), fun _ _ _ => rfl⟩

/-- A small actor with one value everywhere. -/
def valueModel (value : ℕ) : List (ModelTensor ℕ) :=
  [⟨"policy.mot.mixtures.video.weight", true, [value, value]⟩,
    ⟨"policy.mot.mixtures.action.weight", true, [value, value]⟩,
    ⟨"policy.proprio_encoder.weight", true, [value]⟩]

def valueSave (worldSize value : ℕ) (hworld : 0 < worldSize)
    (progress : WriteProgress) : SaveAttempt ℕ Unit Unit Unit where
  worldSize := worldSize
  world_pos := hworld
  fsdpSize := 1
  snapshot := ⟨valueModel value, (), (), fun _ => ()⟩
  modelProgress _ := progress
  optimizerProgress _ := progress
  extraProgress _ := progress
  configWritten := progress = .complete

theorem valueSave_completed (worldSize value : ℕ) (hworld : 0 < worldSize) :
    (valueSave worldSize value hworld .complete).Completed :=
  ⟨fun _ _ => rfl, fun _ _ => rfl, fun _ _ => rfl, rfl⟩

theorem one_theta_after_torn_save :
    OneTheta (fun _ => noOptimizer) (valueSave 2 7 (by decide) .complete)
      (SaveAttempt.directory (fun _ => noOptimizer)
        ([valueSave 1 3 (by decide) .torn] ++
          [valueSave 2 7 (by decide) .complete])) := by
  apply (one_theta_iff (fun _ => noOptimizer)
    [valueSave 1 3 (by decide) .torn] (valueSave 2 7 (by decide) .complete)
    (valueSave_completed 2 7 (by decide))).mpr
  right
  rintro ⟨state, hstate⟩
  cases hstate

/-- Collectors read the run of one rank, the trainer the run of two. -/
theorem collector_reads_stale_shard :
    let directory := SaveAttempt.directory (fun _ => noOptimizer)
      [valueSave 1 3 (by decide) .complete,
        valueSave 2 7 (by decide) .complete]
    (∃ payload, loadActorIntoNativePolicy asciiDigits
        "global_step_3".toList directory = .ok payload ∧
      payload.mot = tensorsUnder motPrefix (valueModel 3)) ∧
    (∃ ranks, directory.loadCheckpoint (actorSharding 1) noOptimizer 2 =
        .ok ranks ∧
      (actorSharding 1).gather 2 ranks.model = valueModel 7) ∧
    tensorsUnder motPrefix (valueModel 3) ≠
      tensorsUnder motPrefix (valueModel 7) := by
  refine ⟨⟨_, rfl, rfl⟩, ⟨_, rfl, rfl⟩, by decide⟩

end VerlVla
