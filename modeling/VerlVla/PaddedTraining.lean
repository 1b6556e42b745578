import VerlVla.PaddingInvariance
import VerlVla.RowLibrary

/-!
# Training on padded groups

The padded concatenation of groups is prepared without error, the transitions
of every group are those of the group alone, and the rewards that were recorded
for a group before padding are the ones the trainer reads.
-/

namespace VerlVla

open List hiding after cons mem_keys nil

variable {ω : Type}

structure PaddedFrom (group : RolloutGroup ω) (offset wholeSteps : ℕ)
    (prepared alone : DataProto ω) : Prop where
  reported : ∀ key ∈ chunkKeys ++ trajectoryKeys,
    (alone.batch.lookup key).isSome
  tensors : ∀ key ∉ trajectoryKeys, ∀ i < group.size, ∀ step < group.steps,
      slotOf (prepared.batch.lookup key) (offset + i) step =
        slotOf (alone.batch.lookup key) i step
  arrays : ∀ key, ∀ i < group.size, ∀ step < group.steps,
    slotOf (prepared.nonTensorBatch.lookup key) (offset + i) step =
      slotOf (alone.nonTensorBatch.lookup key) i step
  idle : ∀ key ∈ chunkKeys, ∀ tensor,
    prepared.batch.lookup key = some tensor → ∀ i < group.size, ∀ step,
      group.steps ≤ step → step < wholeSteps → ∀ rest,
        tensor.entry ((offset + i) :: step :: rest) = 0
  trajectories : ∀ key ∈ trajectoryKeys, ∀ i < group.size,
    rowOf (prepared.batch.lookup key) (offset + i) =
      rowOf (alone.batch.lookup key) i

structure RecordedBeforePadding (rewardSource : String) (groupSize : ℕ)
    (group : RolloutGroup ω) (record : GroupRecord ω) : Prop where
  size : group.size = groupSize
  rewards : ∃ rewards, (groupTrainingRewards group.rollout.batch groupSize
      rewardSource : Except (TrainingError ω) (List ℚ)) = .ok rewards ∧
    record.rewardVector = some rewards

section Recorded

variable {contract : FieldContract} {group : RolloutGroup ω}
  {config : TrainerConfig} {feedback : Feedback} {alone : DataProto ω}

def trajectoryReward (rewardSource : String)
    (score : Option (Tensor ℚ)) (feedback : Feedback) (trajectory : ℕ) : ℚ :=
  if rewardSource = "binary_success" then
    float (anyOf feedback.success trajectory)
  else trajectoryProcessScore (scoresOf score feedback) feedback.success
    trajectory

theorem processScores_of_terminal
    (hscores : (terminalTrajectoryScores rollout :
      Except (TrainingError ω) (ℕ → ℚ)) = .ok scores) :
    (processScores rollout : Except (TrainingError ω) (ℕ → ℚ)) =
      .ok scores := by
  have hread := hscores
  simp only [terminalTrajectoryScores, bind_eq_ok, Dict.fetch_eq_ok] at hread
  obtain ⟨score, hscore, _⟩ := hread
  rw [processScores, hscore]
  exact hscores

theorem groupTrainingRewards_eq (hvalid : contract.Valid)
    (hconforms : group.Conforms contract)
    (hprepared : Prepared contract group config feedback alone)
    (hrewards : (groupTrainingRewards group.rollout.batch groupSize
      rewardSource : Except (TrainingError ω) (List ℚ)) = .ok rewards) :
    rewards = (range groupSize).map (trajectoryReward rewardSource
      (group.rollout.batch.lookup "next.score") feedback) := by
  have hknown : (processScores group.rollout.batch :
      Except (TrainingError ω) (ℕ → ℚ)) =
        .ok (scoresOf (group.rollout.batch.lookup "next.score") feedback) :=
    processScores_ok feedback hprepared.terminated hprepared.truncated
      hprepared.success
      (feedback_shape hvalid hconforms (by decide) hprepared.terminated)
      fun score hscore => feedback_shape hvalid hconforms (by decide) hscore
  simp only [groupTrainingRewards, bind_eq_ok, Dict.fetch_eq_ok] at hrewards
  obtain ⟨success, hsuccess, hrewards⟩ := hrewards
  rw [hprepared.success, Option.some.injEq] at hsuccess
  obtain ⟨scores, hscores, hpure⟩ : ∃ scores,
      (processScores group.rollout.batch :
        Except (TrainingError ω) (ℕ → ℚ)) = .ok scores ∧
      (range groupSize).map (fun trajectory =>
        if rewardSource = "binary_success" then
          float (anyOf success trajectory)
        else trajectoryProcessScore scores success trajectory) = rewards := by
    by_cases hsource : rewardSource = "process_score"
    · rw [if_pos hsource] at hrewards
      obtain ⟨scores, hscores, hpure⟩ := bind_eq_ok.mp hrewards
      exact ⟨scores, processScores_of_terminal hscores, Except.ok.inj hpure⟩
    · rw [if_neg hsource] at hrewards
      obtain ⟨scores, hscores, hpure⟩ := bind_eq_ok.mp hrewards
      exact ⟨scores, hscores, Except.ok.inj hpure⟩
  rw [hknown, Except.ok.injEq] at hscores
  rw [← hpure, ← hsuccess, ← hscores]
  rfl

theorem lookup_rewardKey (hprepared :
    Prepared contract group config feedback alone) (rewardSource : String) :
    alone.batch.lookup (rewardKey rewardSource) =
      some (.vector group.size (trajectoryReward rewardSource
        (group.rollout.batch.lookup "next.score") feedback)) := by
  rw [hprepared.tensors]
  unfold rewardKey trajectoryReward
  split_ifs <;> rfl

end Recorded

section Training

variable {contract : FieldContract} {groups : List (RolloutGroup ω)}
  {whole : RolloutGroup ω} {config : TrainerConfig}
  {wholeFeedback feedback : Feedback} {prepared alone : DataProto ω}

theorem BothPrepared.paddedFrom {group : RolloutGroup ω} {offset : ℕ}
    (both : BothPrepared contract whole group config offset wholeFeedback
      feedback prepared alone) :
    PaddedFrom group offset whole.steps prepared alone := by
  constructor
  case reported =>
    intro key hkey
    rw [both.prepared.tensors]
    simp only [chunkKeys, trajectoryKeys, cons_append, nil_append,
      mem_cons, not_mem_nil, or_false] at hkey
    rcases hkey with rfl | rfl | rfl | rfl | rfl | rfl | rfl | rfl | rfl <;>
      rfl
  case tensors =>
    intro key hkey i hi step hstep
    exact both.slotOf_tensors hkey hi hstep
  case arrays =>
    intro key i hi step hstep
    exact both.slotOf_arrays key hi hstep
  case idle =>
    intro key hkey tensor htensor i hi step hstep hwhole rest
    exact both.idle_chunkKeys hkey htensor hi hstep hwhole rest
  case trajectories =>
    intro key hkey i hi
    exact both.rowOf_trajectoryKeys hkey hi

theorem BothPrepared.recorded_eq_slice {group : RolloutGroup ω}
    {groupSize index : ℕ} {record : GroupRecord ω} {outcomes : Tensor ℚ}
    (both : BothPrepared contract whole group config (index * groupSize)
      wholeFeedback feedback prepared alone)
    (hrecord : RecordedBeforePadding config.groupRewardSource groupSize group
      record)
    (houtcomes : prepared.batch.lookup (rewardKey config.groupRewardSource) =
      some outcomes) :
    record.rewardVector = some (groupSlice outcomes index groupSize) := by
  obtain ⟨rewards, hrewards, hrecorded⟩ := hrecord.rewards
  have hkey : rewardKey config.groupRewardSource ∈ trajectoryKeys := by
    unfold rewardKey
    split_ifs <;> simp [trajectoryKeys]
  rw [hrecorded, groupTrainingRewards_eq both.valid both.conforms
    both.prepared hrewards, groupSlice, Option.some.injEq]
  apply map_congr_left
  intro i hi
  rw [mem_range, ← hrecord.size] at hi
  have hrow := both.rowOf_trajectoryKeys hkey hi
  rw [houtcomes, lookup_rewardKey both.prepared] at hrow
  exact (entry_eq_of_rowOf hrow []).symm

structure TrainsAlike [DecidableEq ω] (library : TrainingLibrary ω)
    (groups : List (RolloutGroup ω)) (config : TrainerConfig)
    (globalSteps : ℤ) (prepared : DataProto ω) : Prop where
  alone : ∀ before group after, groups = before ++ group :: after →
    ∃ alone, prepareFpoActorInput group.rollout group.endObs config
        globalSteps = .ok alone ∧
      PaddedFrom group (rowOffset before) (maxSteps groups) prepared alone
  agree : ∀ groupRecord groupRecords groupSize,
    Forall₂ (RecordedBeforePadding config.groupRewardSource groupSize)
      groups (assembledRecords groupRecord groupRecords) →
    ∀ reduction groupId,
      applyGrpoOutcomeAdvantages library prepared groupRecord groupRecords
        groupSize config.groupRewardSource reduction ≠
          .error (.rewardsDisagree groupId)

theorem rowOffset_eq {groupSize : ℕ} {before : List (RolloutGroup ω)}
    (hsize : ∀ group ∈ before, group.size = groupSize) :
    rowOffset before = before.length * groupSize := by
  rw [rowOffset, map_congr_left hsize, map_const', sum_replicate, smul_eq_mul]

theorem forall₂_getElem? {α β : Type} {relation : α → β → Prop}
    {items : List α} {others : List β}
    (hrelated : Forall₂ relation items others) {index : ℕ} {other : β}
    (hother : others[index]? = some other) :
    ∃ item, items[index]? = some item ∧ relation item other := by
  induction hrelated generalizing index with
  | nil => cases hother
  | cons hfirst _ ih =>
    cases index with
    | zero =>
      cases hother
      exact ⟨_, rfl, hfirst⟩
    | succ index => exact ih hother

/-- Padding groups to one length does not change what they train. -/
theorem padding_preserves_training [Inhabited ω] [DecidableEq ω]
    {library : TrainingLibrary ω} (hlibrary : library.Documented)
    (hvalid : contract.Valid) (hne : groups ≠ [])
    (hconforms : ∀ group ∈ groups, group.Conforms contract)
    (hscore : config.groupRewardSource = "process_score" →
      (contract.tensors "next.score").isSome)
    (hfinished : ∀ group ∈ groups, group.steps < maxSteps groups →
      ∀ i < group.size, group.Finished i) (globalSteps : ℤ) :
    ∃ joined joinedEnd prepared, concatenateRolloutGroupsWithPadding library
        (groups.map RolloutGroup.rollout) (groups.map RolloutGroup.endObs) =
          .ok (joined, joinedEnd) ∧
      prepareFpoActorInput joined joinedEnd config globalSteps = .ok prepared ∧
      TrainsAlike library groups config globalSteps prepared := by
  obtain ⟨whole, hconcat, hjoined⟩ :=
    concatenateRolloutGroupsWithPadding_ok hlibrary hvalid hne hconforms
  obtain ⟨wholeFeedback, prepared, hprepare, hprepared⟩ :=
    prepareFpoActorInput_ok hvalid hjoined.conforms hscore globalSteps
  have hboth : ∀ before group after, groups = before ++ group :: after →
      ∃ feedback alone, prepareFpoActorInput group.rollout group.endObs config
          globalSteps = .ok alone ∧
        BothPrepared contract whole group config (rowOffset before)
          wholeFeedback feedback prepared alone := by
    intro before group after hgroups
    have hmem : group ∈ groups := by simp [hgroups]
    obtain ⟨feedback, alone, halone, haloneFields⟩ :=
      prepareFpoActorInput_ok hvalid (hconforms group hmem) hscore globalSteps
    refine ⟨feedback, alone, halone, ?_⟩
    constructor
    case valid => exact hvalid
    case wholeConforms => exact hjoined.conforms
    case conforms => exact hconforms group hmem
    case embedded => exact hjoined.extends hvalid hconforms hgroups
    case wholePrepared => exact hprepared
    case prepared => exact haloneFields
    case finished =>
      intro hshort
      rw [hjoined.steps] at hshort
      exact hfinished group hmem hshort
  refine ⟨whole.rollout, whole.endObs, prepared, hconcat, hprepare, ?_⟩
  constructor
  case alone =>
    intro before group after hgroups
    obtain ⟨feedback, alone, halone, both⟩ := hboth before group after hgroups
    have hpadded := both.paddedFrom
    rw [hjoined.steps] at hpadded
    exact ⟨alone, halone, hpadded⟩
  case agree =>
    intro groupRecord groupRecords groupSize hrecords reduction groupId herror
    obtain ⟨outcomes, record, index, houtcomes, hrecord, hne⟩ :=
      rewards_ne_of_disagree herror
    obtain ⟨group, hgroup, hrecorded⟩ := forall₂_getElem? hrecords hrecord
    obtain ⟨hindex, hget⟩ := List.getElem?_eq_some_iff.mp hgroup
    have hgroups : groups =
        groups.take index ++ group :: groups.drop (index + 1) := by
      rw [← hget, cons_getElem_drop_succ, take_append_drop]
    obtain ⟨feedback, alone, _, both⟩ := hboth _ group _ hgroups
    have hsize : ∀ other ∈ groups.take index, other.size = groupSize := by
      intro other hother
      obtain ⟨i, hi, hgetOther⟩ := mem_iff_getElem.mp (mem_of_mem_take hother)
      obtain ⟨otherRecord, _, hrelated⟩ := forall₂_getElem? hrecords.flip
        (List.getElem?_eq_some_iff.mpr ⟨hi, hgetOther⟩)
      exact hrelated.size
    have hoffset : rowOffset (groups.take index) = index * groupSize := by
      rw [rowOffset_eq hsize, length_take, min_eq_left hindex.le]
    rw [hoffset] at both
    exact hne (both.recorded_eq_slice hrecorded houtcomes)

end Training

/-! ## Two groups of different lengths -/

namespace TwoLengths

def shapes : Dict (List ℕ) :=
  toAList [⟨"action.action", [2, 1]⟩, ⟨"action.full_action", [3, 1]⟩,
    ⟨"next.terminated", [2]⟩, ⟨"next.truncated", [2]⟩, ⟨"next.reward", [2]⟩,
    ⟨"next.success", [2]⟩, ⟨"next.score", [2]⟩, ⟨"obs.state", [1]⟩]

def arrayShapes : Dict (List ℕ) := toAList [⟨"obs.task", []⟩]

def endShapes : Dict (List ℕ) := toAList [⟨"state", [1]⟩]

def endArrayShapes : Dict (List ℕ) := toAList [⟨"task", []⟩]

def contract : FieldContract where
  tensors key := shapes.lookup key
  arrays key := arrayShapes.lookup key
  endTensors field := endShapes.lookup field
  endArrays field := endArrayShapes.lookup field
  metaInfo := ∅
  endMetaInfo := ∅
  substeps := 2
  horizon := 3

/-- One trajectory that terminates at the last substep of its last chunk. -/
def entries (steps : ℕ) (key : String) (index : List ℕ) : ℚ :=
  if key = "next.terminated" then
    if index = [0, steps - 1, 1] then 1 else 0
  else index.getD 1 0 + 1

def group (steps : ℕ) : RolloutGroup String where
  rollout :=
    { batch := shapes.map fun key shape =>
        ⟨1 :: steps :: shape, entries steps key⟩
      nonTensorBatch := arrayShapes.map fun _ shape =>
        ⟨1 :: steps :: shape, fun _ => "stack the bowls"⟩
      metaInfo := ∅ }
  endObs :=
    { batch := endShapes.map fun _ shape => ⟨1 :: shape, fun _ => steps⟩
      nonTensorBatch := endArrayShapes.map fun _ shape =>
        ⟨1 :: shape, fun _ => "stack the bowls"⟩
      metaInfo := ∅ }

def config : TrainerConfig where
  gamma := 99 / 100
  gaeLambda := 95 / 100
  stepPenalty := 1 / 100
  groupRewardSource := "process_score"

theorem mem_keys {α : Type} {dict : Dict α} {key : String} {value : α}
    (hlookup : dict.lookup key = some value) : key ∈ dict.keys :=
  AList.lookup_isSome.mp (by simp [hlookup])

theorem eq_of_endShapes {field : String} {shape : List ℕ}
    (hshape : endShapes.lookup field = some shape) : field = "state" :=
  mem_singleton.mp (mem_keys hshape)

theorem eq_of_endArrayShapes {field : String} {shape : List ℕ}
    (hshape : endArrayShapes.lookup field = some shape) : field = "task" :=
  mem_singleton.mp (mem_keys hshape)

theorem eq_of_obsKey {field : String} {shape : List ℕ}
    (hshape : shapes.lookup (obsKey field) = some shape) :
    field = "state" := by
  have hmem : obsKey field ∈ shapes.keys.filter isObs :=
    mem_filter.mpr ⟨mem_keys hshape, isObs_obsKey field⟩
  have hkey : obsKey field = "obs.state" := mem_singleton.mp hmem
  rw [← fieldOf_obsKey field, hkey]
  decide

theorem eq_of_obsArray {field : String} {shape : List ℕ}
    (hshape : arrayShapes.lookup (obsKey field) = some shape) :
    field = "task" := by
  have hkey : obsKey field = "obs.task" := mem_singleton.mp (mem_keys hshape)
  rw [← fieldOf_obsKey field, hkey]
  decide

theorem contract_valid : contract.Valid := by
  constructor
  case action => exact ⟨[1], rfl⟩
  case fullAction => exact ⟨[1], rfl⟩
  case horizon_le => decide
  case feedback =>
    intro key hkey hne
    simp only [feedbackKeys, mem_cons, not_mem_nil, or_false] at hkey
    rcases hkey with rfl | rfl | rfl | rfl | rfl <;> rfl
  case score =>
    intro shape hshape
    exact (Option.some.inj hshape).symm
  case endTensors =>
    intro field shape endShape hshape hend
    have hfield := eq_of_endShapes hend
    subst hfield
    cases hshape
    cases hend
    rfl
  case endArrays =>
    intro field shape endShape hshape hend
    have hfield := eq_of_endArrayShapes hend
    subst hfield
    cases hshape
    cases hend
    rfl

theorem group_conforms (hsteps : 0 < steps) :
    (group steps).Conforms contract := by
  have hend : ∀ {α : Type} {dict : Dict (List ℕ)} {f : List ℕ → Tensor α}
      {field : String} {tensor : Tensor α},
      (∀ shape, (f shape).shape = 1 :: shape) →
      (dict.map fun _ shape => f shape).lookup field = some tensor →
      ∃ shape, dict.lookup field = some shape ∧ tensor.shape = 1 :: shape := by
    intro α dict f field tensor hf htensor
    rw [Dict.lookup_map, Option.map_eq_some_iff] at htensor
    obtain ⟨shape, hshape, rfl⟩ := htensor
    exact ⟨shape, hshape, hf shape⟩
  constructor
  case steps_pos => exact hsteps
  case tensors =>
    intro key
    show ((shapes.map _).lookup key).map _ = _
    rw [Dict.lookup_map, Option.map_map]
    rfl
  case arrays =>
    intro key
    show ((arrayShapes.map _).lookup key).map _ = _
    rw [Dict.lookup_map, Option.map_map]
    rfl
  case endTensors =>
    intro field tensor htensor
    exact hend (fun _ => rfl) htensor
  case endArrays =>
    intro field array harray
    exact hend (fun _ => rfl) harray
  case policyTensors =>
    intro field hfield _
    obtain ⟨shape, hshape⟩ := Option.isSome_iff_exists.mp hfield
    rw [eq_of_obsKey hshape]
    rfl
  case policyArrays =>
    intro field hfield _
    obtain ⟨shape, hshape⟩ := Option.isSome_iff_exists.mp hfield
    rw [eq_of_obsArray hshape]
    rfl
  case otherTensors =>
    intro field hfield
    obtain ⟨shape, hshape⟩ := Option.isSome_iff_exists.mp hfield
    rw [eq_of_endShapes hshape]
    exact .inl rfl
  case otherArrays =>
    intro field hfield
    obtain ⟨shape, hshape⟩ := Option.isSome_iff_exists.mp hfield
    rw [eq_of_endArrayShapes hshape]
    exact .inl rfl
  case metaInfo => rfl
  case endMetaInfo => rfl

theorem group_finished (hsteps : 0 < steps) : (group steps).Finished 0 := by
  refine ⟨"next.terminated", mem_cons_self, _, rfl, steps - 1,
    Nat.sub_lt hsteps Nat.one_pos, 1, Nat.one_lt_two, ?_⟩
  simp [entries]

end TwoLengths

theorem padding_preserves_training_two_lengths : ∃ joined joinedEnd prepared,
      concatenateRolloutGroupsWithPadding (rowLibrary String)
        ([TwoLengths.group 1, TwoLengths.group 2].map RolloutGroup.rollout)
        ([TwoLengths.group 1, TwoLengths.group 2].map RolloutGroup.endObs) =
          .ok (joined, joinedEnd) ∧
      prepareFpoActorInput joined joinedEnd TwoLengths.config 7 =
        .ok prepared ∧
      TrainsAlike (rowLibrary String)
        [TwoLengths.group 1, TwoLengths.group 2] TwoLengths.config 7
        prepared := by
  have hmember : ∀ group ∈ [TwoLengths.group 1, TwoLengths.group 2],
      ∃ steps, 0 < steps ∧ group = TwoLengths.group steps := by
    intro group hgroup
    rcases mem_pair.mp hgroup with rfl | rfl
    · exact ⟨1, by decide, rfl⟩
    · exact ⟨2, by decide, rfl⟩
  apply padding_preserves_training RowLibrary.rowLibrary_documented
    TwoLengths.contract_valid (cons_ne_nil _ _)
  · intro group hgroup
    obtain ⟨steps, hsteps, rfl⟩ := hmember group hgroup
    exact TwoLengths.group_conforms hsteps
  · exact fun _ => rfl
  · intro group hgroup _ i hi
    obtain ⟨steps, hsteps, rfl⟩ := hmember group hgroup
    have hzero : i = 0 := Nat.lt_one_iff.mp hi
    rw [hzero]
    exact TwoLengths.group_finished hsteps

end VerlVla
