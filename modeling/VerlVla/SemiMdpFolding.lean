import Mathlib.Algebra.BigOperators.Ring.Finset
import Mathlib.Tactic.Ring
import VerlVla.PaddedTraining

/-!
# Chunks as semi-MDP steps

A trajectory of `S` chunks with `K` actions each is also a sequence of `S * K`
actions, executed up to the first one that is done.  The chunk masks are read
off that sequence, and the discounted sum of the chunk rewards is the
discounted return of the executed actions.
-/

namespace VerlVla

open Finset

variable {ω : Type}

namespace Lane

variable (lane : Lane) (substeps : ℕ)

def flatDone (time : ℕ) : Bool := lane.done (time / substeps) (time % substeps)

def flatReward (time : ℕ) : ℚ :=
  lane.reward (time / substeps) (time % substeps)

def executed (time : ℕ) : Bool :=
  (List.range time).all fun earlier => !lane.flatDone substeps earlier

/-- The discounted return of the actions up to the first one that is done. -/
def flatReturn (gamma : ℚ) (times : ℕ) : ℚ :=
  ∑ time ∈ range times with lane.executed substeps time = true,
    gamma ^ time * lane.flatReward substeps time

variable {lane substeps} {step substep : ℕ}

theorem executed_iff : lane.executed substeps time = true ↔
    ∀ earlier < time, lane.flatDone substeps earlier = false := by
  simp [executed]

theorem flatDone_eq (hsubstep : substep < substeps) :
    lane.flatDone substeps (step * substeps + substep) =
      lane.done step substep := by
  obtain ⟨hdiv, hmod⟩ := Tensor.add_mul_div_mod hsubstep step
  rw [flatDone, hdiv, hmod]

theorem flatReward_eq (hsubstep : substep < substeps) :
    lane.flatReward substeps (step * substeps + substep) =
      lane.reward step substep := by
  obtain ⟨hdiv, hmod⟩ := Tensor.add_mul_div_mod hsubstep step
  rw [flatReward, hdiv, hmod]

theorem chunkDone_eq_false : lane.chunkDone substeps step = false ↔
    ∀ substep < substeps, lane.done step substep = false := by
  simp [chunkDone]

/-! ## The masks -/

theorem executed_add : lane.executed substeps (time + count) = true ↔
      lane.executed substeps time = true ∧
        ∀ i < count, lane.flatDone substeps (time + i) = false := by
  rw [executed_iff, executed_iff]
  constructor
  · intro hlive
    constructor
    · intro earlier hearlier
      exact hlive earlier (by omega)
    · intro i hi
      exact hlive (time + i) (by omega)
  · rintro ⟨hbefore, hinside⟩ earlier hearlier
    by_cases hlt : earlier < time
    · exact hbefore earlier hlt
    · have hi := hinside (earlier - time) (by omega)
      rwa [Nat.add_sub_cancel' (Nat.le_of_not_lt hlt)] at hi

theorem executed_substep (hsubstep : substep ≤ substeps) :
    lane.executed substeps (step * substeps + substep) = true ↔
      lane.executed substeps (step * substeps) = true ∧
        ∀ i < substep, lane.done step i = false := by
  rw [executed_add]
  constructor
  · rintro ⟨hbefore, hinside⟩
    refine ⟨hbefore, fun i hi => ?_⟩
    rw [← flatDone_eq (Nat.lt_of_lt_of_le hi hsubstep)]
    exact hinside i hi
  · rintro ⟨hbefore, hinside⟩
    refine ⟨hbefore, fun i hi => ?_⟩
    rw [flatDone_eq (Nat.lt_of_lt_of_le hi hsubstep)]
    exact hinside i hi

theorem executed_succ : lane.executed substeps ((step + 1) * substeps) = true ↔
      lane.executed substeps (step * substeps) = true ∧
        lane.chunkDone substeps step = false := by
  rw [Nat.add_mul, Nat.one_mul, executed_substep le_rfl, chunkDone_eq_false]

theorem validChunk_eq (lane : Lane) (substeps step : ℕ) :
    lane.validChunk substeps step =
      lane.executed substeps (step * substeps) := by
  apply Bool.eq_iff_iff.mpr
  rw [validChunk, unraisedBefore_iff]
  induction step with
  | zero => simp [executed]
  | succ step ih =>
    rw [executed_succ, ← ih]
    constructor
    · intro hlive
      exact ⟨fun i hi => hlive i (by omega), hlive step (by omega)⟩
    · rintro ⟨hbefore, hlast⟩ i hi
      by_cases hi' : i < step
      · exact hbefore i hi'
      · rw [show i = step by omega]
        exact hlast

theorem validSubstep_eq (hsubstep : substep < substeps) :
    lane.validSubstep substeps step substep =
      lane.executed substeps (step * substeps + substep) := by
  apply Bool.eq_iff_iff.mpr
  rw [executed_substep hsubstep.le, validSubstep, Bool.and_eq_true,
    unraisedBefore_iff, validChunk_eq, and_comm]

theorem actionValids_eq (lane : Lane) (substeps step position : ℕ) :
    lane.actionValids substeps step position = if position < substeps then
        float (lane.executed substeps (step * substeps + position))
      else 0 := by
  rw [actionValids]
  split_ifs with hposition
  · rw [validSubstep_eq hposition]
  · rfl

/-! ## Discounts -/

theorem dones_eq_one (hvalid : lane.validChunk substeps step = true)
    (hdone : lane.chunkDone substeps step = true) :
    lane.dones substeps step = 1 := by
  rw [dones, hvalid, hdone]
  exact one_mul 1

theorem discounts_terminal (rate : ℚ)
    (hdone : lane.chunkDone substeps step = true) :
    lane.discounts substeps rate step = 0 := by
  cases hvalid : lane.validChunk substeps step with
  | false => exact discounts_eq_zero hvalid rate
  | true =>
    rw [discounts, dones_eq_one hvalid hdone, sub_self, zero_mul, mul_zero]

theorem executedSteps_full (hvalid : lane.validChunk substeps step = true)
    (hlive : lane.chunkDone substeps step = false) :
    lane.executedSteps substeps step = substeps := by
  rw [validChunk_eq] at hvalid
  rw [chunkDone_eq_false] at hlive
  have hall : ∀ substep ∈ range substeps,
      (lane.validSubstep substeps step substep).toNat = 1 := by
    intro substep hsubstep
    have hlt := mem_range.mp hsubstep
    rw [validSubstep_eq hlt, (executed_substep hlt.le).mpr
      ⟨hvalid, fun i hi => hlive i (by omega)⟩]
    rfl
  rw [executedSteps, sum_congr rfl hall]
  simp

theorem discounts_live (rate : ℚ)
    (hvalid : lane.validChunk substeps step = true)
    (hlive : lane.chunkDone substeps step = false) :
    lane.discounts substeps rate step = rate ^ substeps := by
  rw [discounts, executedSteps_full hvalid hlive, dones, hvalid, hlive]
  simp [float]

theorem prod_discounts (lane : Lane) (substeps : ℕ) (rate : ℚ) (step : ℕ) :
    ∏ earlier ∈ range step, lane.discounts substeps rate earlier =
      if lane.executed substeps (step * substeps) = true then
        rate ^ (step * substeps)
      else 0 := by
  induction step with
  | zero => simp [executed]
  | succ step ih =>
    rw [prod_range_succ, ih]
    cases hvalid : lane.executed substeps (step * substeps) with
    | false =>
      have hnext : ¬lane.executed substeps ((step + 1) * substeps) = true := by
        rw [executed_succ, hvalid]
        simp
      rw [if_neg Bool.false_ne_true, if_neg hnext, zero_mul]
    | true =>
      rw [if_pos rfl]
      cases hdone : lane.chunkDone substeps step with
      | true =>
        have hnext : ¬lane.executed substeps ((step + 1) * substeps) =
            true := by
          rw [executed_succ, hdone]
          simp
        rw [discounts_terminal rate hdone, mul_zero, if_neg hnext]
      | false =>
        have hchunk : lane.validChunk substeps step = true := by
          rw [validChunk_eq, hvalid]
        rw [discounts_live rate hchunk hdone,
          if_pos (executed_succ.mpr ⟨hvalid, hdone⟩), ← pow_add,
          Nat.add_mul, Nat.one_mul]

/-! ## Returns -/

theorem rewards_eq (hpenalty : config.stepPenalty = 0) :
    lane.rewards config substeps step = ∑ substep ∈ range substeps,
        if lane.executed substeps (step * substeps + substep) = true then
          config.gamma ^ substep * lane.reward step substep
        else 0 := by
  rw [rewards, hpenalty, zero_mul, sub_zero]
  apply sum_congr rfl
  intro substep hsubstep
  rw [validSubstep_eq (mem_range.mp hsubstep)]
  cases lane.executed substeps (step * substeps + substep) with
  | false => simp [float]
  | true => simp [float, mul_comm]

theorem flatReturn_add (gamma : ℚ) (times count : ℕ) :
    lane.flatReturn substeps gamma (times + count) =
      lane.flatReturn substeps gamma times + ∑ i ∈ range count,
          if lane.executed substeps (times + i) = true then
            gamma ^ (times + i) * lane.flatReward substeps (times + i)
          else 0 := by
  rw [flatReturn, flatReturn, sum_filter, sum_filter, sum_range_add]

theorem sum_rewards (hpenalty : config.stepPenalty = 0) (steps : ℕ) :
    ∑ step ∈ range steps with lane.validChunk substeps step = true,
        (∏ earlier ∈ range step,
          lane.discounts substeps config.gamma earlier) *
            lane.rewards config substeps step =
      lane.flatReturn substeps config.gamma (steps * substeps) := by
  rw [sum_filter]
  induction steps with
  | zero => simp [flatReturn]
  | succ steps ih =>
    rw [sum_range_succ, ih, Nat.add_mul, Nat.one_mul, flatReturn_add,
      validChunk_eq, prod_discounts]
    congr 1
    cases hvalid : lane.executed substeps (steps * substeps) with
    | false =>
      rw [if_neg Bool.false_ne_true]
      symm
      apply sum_eq_zero
      intro substep hsubstep
      rw [if_neg]
      rw [executed_substep (mem_range.mp hsubstep).le, hvalid]
      simp
    | true =>
      rw [if_pos rfl, if_pos rfl, rewards_eq hpenalty, mul_sum]
      apply sum_congr rfl
      intro substep hsubstep
      rw [flatReward_eq (mem_range.mp hsubstep), mul_ite, mul_zero,
        pow_add, mul_assoc]

end Lane

/-! ## The prepared rollout -/

structure ChunkFields where
  valids : Tensor ℚ
  actionValids : Tensor ℚ
  rewards : Tensor ℚ
  discounts : Tensor ℚ
  gaeDiscounts : Tensor ℚ

structure ChunkFields.ReadFrom (fields : ChunkFields)
    (prepared : DataProto ω) : Prop where
  valids : prepared.batch.lookup "info.valids" = some fields.valids
  actionValids :
    prepared.batch.lookup "info.action_valids" = some fields.actionValids
  rewards : prepared.batch.lookup "info.rewards" = some fields.rewards
  discounts : prepared.batch.lookup "info.discounts" = some fields.discounts
  gaeDiscounts :
    prepared.batch.lookup "info.gae_discounts" = some fields.gaeDiscounts

structure FoldedExactly (config : TrainerConfig) (lane : Lane)
    (steps substeps horizon : ℕ) (fields : ChunkFields) (i : ℕ) : Prop where
  valids : ∀ step < steps, fields.valids.entry [i, step] =
    float (lane.executed substeps (step * substeps))
  actionValids : ∀ step < steps, ∀ position < horizon,
    fields.actionValids.entry [i, step, position] = if position < substeps then
        float (lane.executed substeps (step * substeps + position))
      else 0
  exactReturn : config.stepPenalty = 0 →
    ∑ step ∈ range steps with fields.valids.entry [i, step] = 1,
        (∏ earlier ∈ range step, fields.discounts.entry [i, earlier]) *
          fields.rewards.entry [i, step] =
      lane.flatReturn substeps config.gamma (steps * substeps)
  terminal : ∀ step < steps, lane.chunkDone substeps step = true →
    fields.discounts.entry [i, step] = 0 ∧
      fields.gaeDiscounts.entry [i, step] = 0
  invalid : ∀ step < steps, fields.valids.entry [i, step] = 0 →
    fields.discounts.entry [i, step] = 0 ∧
      fields.gaeDiscounts.entry [i, step] = 0

/-- Each successor is the observation of the next chunk, or the observation
at the end. -/
def IsSuccessor {α : Type} (size steps : ℕ) (obs final next : Tensor α) :
    Prop :=
  ∀ i < size, ∀ step < steps, (next.row i).row step =
      if step + 1 < steps then (obs.row i).row (step + 1) else final.row i

theorem float_eq_one : float flag = 1 ↔ flag = true := by
  cases flag with
  | false | true => simp [float]

section Prepared

variable {feedback : Feedback} {prepared : DataProto ω}

theorem Prepared.chunkFields
    (hprepared : Prepared contract group config feedback prepared) :
    ∃ fields : ChunkFields, fields.ReadFrom prepared ∧
      ∀ i, FoldedExactly config (feedback.lane i) group.steps
        contract.substeps contract.horizon fields i := by
  let perChunk := fun value : Lane → ℕ → ℚ =>
    Tensor.matrix group.size group.steps fun trajectory step =>
      value (feedback.lane trajectory) step
  refine ⟨
    { valids := perChunk fun lane step =>
        float (lane.validChunk contract.substeps step)
      actionValids := .cube group.size group.steps contract.horizon
        fun trajectory =>
          (feedback.lane trajectory).actionValids contract.substeps
      rewards := perChunk fun lane => lane.rewards config contract.substeps
      discounts := perChunk fun lane =>
        lane.discounts contract.substeps config.gamma
      gaeDiscounts := perChunk fun lane =>
        lane.discounts contract.substeps (config.gamma * config.gaeLambda) },
    ?_, ?_⟩
  · constructor
    · exact hprepared.tensors "info.valids"
    · exact hprepared.tensors "info.action_valids"
    · exact hprepared.tensors "info.rewards"
    · exact hprepared.tensors "info.discounts"
    · exact hprepared.tensors "info.gae_discounts"
  · intro i
    constructor
    case valids =>
      intro step _
      exact congrArg float (Lane.validChunk_eq _ _ _)
    case actionValids =>
      intro step _ position _
      exact Lane.actionValids_eq _ _ _ _
    case exactReturn =>
      intro hpenalty
      have hvalid : ∀ step, (perChunk fun lane step =>
          float (lane.validChunk contract.substeps step)).entry [i, step] =
            1 ↔ (feedback.lane i).validChunk contract.substeps step = true :=
        fun step => float_eq_one
      simp only [hvalid]
      exact Lane.sum_rewards hpenalty group.steps
    case terminal =>
      intro step _ hdone
      exact ⟨Lane.discounts_terminal _ hdone, Lane.discounts_terminal _ hdone⟩
    case invalid =>
      intro step _ hzero
      have hvalid : (feedback.lane i).validChunk contract.substeps step =
          false := by
        cases hflag : (feedback.lane i).validChunk contract.substeps step with
        | false => rfl
        | true =>
          have hone : float
              ((feedback.lane i).validChunk contract.substeps step) = 0 :=
            hzero
          rw [hflag] at hone
          exact absurd hone one_ne_zero
      exact ⟨Lane.discounts_eq_zero hvalid _, Lane.discounts_eq_zero hvalid _⟩

theorem isSuccessor_aligned {α : Type} {obs final : Tensor α}
    (hobs : obs.shape = size :: steps :: shape)
    (hfinal : final.shape = size :: shape) :
    IsSuccessor size steps obs final
      (obs.dropStep.catSteps (final.repeatStep 1)) := by
  intro i _ step hstep
  exact aligned_step hobs hfinal hstep i

theorem not_isInfo_nextObsKey (field : String) :
    nextObsKey field ∉ chunkKeys ++ trajectoryKeys ∧
      nextObsKey field ∉ feedbackKeys := by
  have hother : ∀ key ∈ (chunkKeys ++ trajectoryKeys) ++ feedbackKeys,
      isNextObs key = false := by decide
  constructor
  · intro hkey
    have hfalse := hother _ (List.mem_append_left _ hkey)
    rw [isNextObs_nextObsKey] at hfalse
    cases hfalse
  · intro hkey
    have hfalse := hother _ (List.mem_append_right _ hkey)
    rw [isNextObs_nextObsKey] at hfalse
    cases hfalse

theorem Prepared.nextObs (hvalid : contract.Valid)
    (hconforms : group.Conforms contract)
    (hprepared : Prepared contract group config feedback prepared)
    {field : String} {obs : Tensor ℚ} (hfield : ¬isProfile field)
    (hobs : group.rollout.batch.lookup (obsKey field) = some obs) :
    ∃ final next, group.endObs.batch.lookup field = some final ∧
      prepared.batch.lookup (nextObsKey field) = some next ∧
      IsSuccessor group.size group.steps obs final next := by
  have hpolicy : isPolicyObs (obsKey field) := by
    simp [isPolicyObs, hfield]
  obtain ⟨shape, hshape, hobsShape⟩ :=
    shape_of_some (hconforms.tensors (obsKey field)) hobs
  obtain ⟨final, hfinal⟩ := Option.isSome_iff_exists.mp
    (hconforms.policyTensors field (by rw [hshape]; rfl) hfield)
  have hreported := reported_tensor hvalid hconforms (isObs_obsKey field)
    hshape (by rw [fieldOf_obsKey]; exact hfinal)
  obtain ⟨hinfo, hfeedback⟩ := not_isInfo_nextObsKey field
  have hnext : prepared.batch.lookup (nextObsKey field) =
      some (obs.dropStep.catSteps (final.repeatStep 1)) := by
    rw [hprepared.tensors, lookup_infoFields_eq_none hinfo, Option.none_or,
      if_neg hfeedback, alignedTensor, nextFieldOf_nextObsKey,
      if_pos ⟨isNextObs_nextObsKey field, hpolicy, by rw [hobs]; rfl⟩,
      alignedField, hobs, fieldOf_obsKey, hfinal]
  exact ⟨final, _, hfinal, hnext, isSuccessor_aligned hobsShape hreported⟩

theorem Prepared.nextArray (hvalid : contract.Valid)
    (hconforms : group.Conforms contract)
    (hprepared : Prepared contract group config feedback prepared)
    {field : String} {obs : Tensor ω}
    (hfield : field ∉ trajectoryMetadataFields)
    (hobs : group.rollout.nonTensorBatch.lookup (obsKey field) = some obs) :
    ∃ final next, group.endObs.nonTensorBatch.lookup field = some final ∧
      prepared.nonTensorBatch.lookup (nextObsKey field) = some next ∧
      IsSuccessor group.size group.steps obs final next := by
  obtain ⟨shape, hshape, hobsShape⟩ :=
    shape_of_some (hconforms.arrays (obsKey field)) hobs
  obtain ⟨final, hfinal⟩ := Option.isSome_iff_exists.mp
    (hconforms.policyArrays field (by rw [hshape]; rfl) hfield)
  have hreported := reported_array hvalid hconforms (isObs_obsKey field)
    hshape (by rw [fieldOf_obsKey]; exact hfinal)
  have hnext : prepared.nonTensorBatch.lookup (nextObsKey field) =
      some (obs.dropStep.catSteps (final.repeatStep 1)) := by
    rw [hprepared.arrays, alignedArray, nextFieldOf_nextObsKey,
      if_pos ⟨isNextObs_nextObsKey field, hfield, by rw [hobs]; rfl⟩,
      alignedField, hobs, fieldOf_obsKey, hfinal]
  exact ⟨final, _, hfinal, hnext, isSuccessor_aligned hobsShape hreported⟩

end Prepared

/-- A rollout is prepared without error, and its chunks are a semi-MDP with the
return of the executed actions. -/
theorem folding_is_exact {contract : FieldContract} {group : RolloutGroup ω}
    {config : TrainerConfig} (hvalid : contract.Valid)
    (hconforms : group.Conforms contract)
    (hscore : config.groupRewardSource = "process_score" →
      (contract.tensors "next.score").isSome) (globalSteps : ℤ) :
    ∃ (feedback : Feedback) (prepared : DataProto ω) (fields : ChunkFields),
      prepareFpoActorInput group.rollout group.endObs config globalSteps =
        .ok prepared ∧
      group.rollout.batch.lookup "next.terminated" = some feedback.terminated ∧
      group.rollout.batch.lookup "next.truncated" = some feedback.truncated ∧
      group.rollout.batch.lookup "next.reward" = some feedback.reward ∧
      fields.ReadFrom prepared ∧
      (∀ i < group.size, FoldedExactly config (feedback.lane i) group.steps
        contract.substeps contract.horizon fields i) ∧
      (∀ field obs, ¬isProfile field →
        group.rollout.batch.lookup (obsKey field) = some obs →
        ∃ final next, group.endObs.batch.lookup field = some final ∧
          prepared.batch.lookup (nextObsKey field) = some next ∧
          IsSuccessor group.size group.steps obs final next) ∧
      (∀ field obs, field ∉ trajectoryMetadataFields →
        group.rollout.nonTensorBatch.lookup (obsKey field) = some obs →
        ∃ final next, group.endObs.nonTensorBatch.lookup field = some final ∧
          prepared.nonTensorBatch.lookup (nextObsKey field) = some next ∧
          IsSuccessor group.size group.steps obs final next) := by
  obtain ⟨feedback, prepared, hok, hprepared⟩ :=
    prepareFpoActorInput_ok hvalid hconforms hscore globalSteps
  obtain ⟨fields, hread, hfolded⟩ := hprepared.chunkFields
  refine ⟨feedback, prepared, fields, hok, hprepared.terminated,
    hprepared.truncated, hprepared.reward, hread, ?_, ?_, ?_⟩
  · intro i _
    exact hfolded i
  · intro field obs hfield hobs
    exact hprepared.nextObs hvalid hconforms hfield hobs
  · intro field obs hfield hobs
    exact hprepared.nextArray hvalid hconforms hfield hobs

theorem folding_is_exact_two_chunks : ∃ feedback prepared fields,
      prepareFpoActorInput (TwoLengths.group 2).rollout
        (TwoLengths.group 2).endObs TwoLengths.config 7 = .ok prepared ∧
      ChunkFields.ReadFrom fields prepared ∧
      FoldedExactly TwoLengths.config (Feedback.lane feedback 0) 2 2 3 fields
        0 := by
  have hscore : TwoLengths.config.groupRewardSource = "process_score" →
      (TwoLengths.contract.tensors "next.score").isSome := fun _ => rfl
  obtain ⟨feedback, prepared, fields, hok, _, _, _, hread, hfolded, _⟩ :=
    folding_is_exact TwoLengths.contract_valid
      (TwoLengths.group_conforms Nat.two_pos) hscore 7
  exact ⟨feedback, prepared, fields, hok, hread, hfolded 0 Nat.one_pos⟩

end VerlVla
