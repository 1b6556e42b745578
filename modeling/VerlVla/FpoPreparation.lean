import VerlVla.RolloutPadding

/-!
# Prepared transitions

A group that follows the field contract is prepared without error.  Every field
of the result is described by the fields of the group: the folded feedback of
its lanes, its observations next to their successors, and what is left alone.
-/

namespace VerlVla

open Finset

variable {ω : Type}

/-! ## Lanes that agree up to a slot -/

theorem unraisedBefore_iff (flags : ℕ → Bool) (position : ℕ) :
    unraisedBefore flags position ↔ ∀ i < position, flags i = false := by
  have hsum : (∑ i ∈ range (position + 1), (flags i).toNat) -
      (flags position).toNat = ∑ i ∈ range position, (flags i).toNat := by
    rw [sum_range_succ]
    omega
  rw [unraisedBefore, hsum, decide_eq_true_eq, sum_eq_zero_iff]
  constructor
  · intro h i hi
    have hzero := h i (mem_range.mpr hi)
    cases hflag : flags i with
    | false => rfl
    | true => simp [hflag] at hzero
  · intro h i hi
    rw [h i (mem_range.mp hi)]
    rfl

theorem unraisedBefore_congr (hflags : ∀ i ≤ position, flags i = other i) :
    unraisedBefore flags position = unraisedBefore other position := by
  apply Bool.eq_iff_iff.mpr
  rw [unraisedBefore_iff, unraisedBefore_iff]
  constructor
  · intro h i hi
    rw [← hflags i hi.le]
    exact h i hi
  · intro h i hi
    rw [hflags i hi.le]
    exact h i hi

namespace Lane

variable {config : TrainerConfig} {lane other : Lane} {substeps step : ℕ}

theorem chunkDone_congr (hdone : lane.done step = other.done step) :
    lane.chunkDone substeps step = other.chunkDone substeps step := by
  rw [chunkDone, chunkDone, hdone]

section

variable (hdone : ∀ i ≤ step, lane.done i = other.done i)

include hdone

theorem validChunk_congr :
    lane.validChunk substeps step = other.validChunk substeps step :=
  unraisedBefore_congr fun i hi => chunkDone_congr (hdone i hi)

theorem validSubstep_congr (substep : ℕ) :
    lane.validSubstep substeps step substep =
      other.validSubstep substeps step substep := by
  rw [validSubstep, validSubstep, validChunk_congr hdone, hdone step le_rfl]

theorem rewards_congr (hreward : lane.reward step = other.reward step) :
    lane.rewards config substeps step =
      other.rewards config substeps step := by
  simp only [rewards, validSubstep_congr hdone, validChunk_congr hdone,
    hreward]

theorem dones_congr :
    lane.dones substeps step = other.dones substeps step := by
  rw [dones, dones, validChunk_congr hdone,
    chunkDone_congr (hdone step le_rfl)]

theorem executedSteps_congr :
    lane.executedSteps substeps step = other.executedSteps substeps step := by
  simp only [executedSteps, validSubstep_congr hdone]

theorem discounts_congr (rate : ℚ) : lane.discounts substeps rate step =
      other.discounts substeps rate step := by
  rw [discounts, discounts, executedSteps_congr hdone, dones_congr hdone,
    validChunk_congr hdone]

theorem actionValids_congr :
    lane.actionValids substeps step = other.actionValids substeps step := by
  funext position
  rw [actionValids, actionValids, validSubstep_congr hdone]

end

/-! ### Behind the first done chunk -/

theorem validChunk_eq_false (hearlier : earlier < step)
    (hdone : lane.chunkDone substeps earlier) :
    lane.validChunk substeps step = false := by
  cases hvalid : lane.validChunk substeps step with
  | false => rfl
  | true =>
    have h := (unraisedBefore_iff _ _).mp hvalid earlier hearlier
    rw [hdone] at h
    cases h

section

variable (hvalid : lane.validChunk substeps step = false)

include hvalid

theorem validSubstep_eq_false (substep : ℕ) :
    lane.validSubstep substeps step substep = false := by
  rw [validSubstep, hvalid, Bool.and_false]

theorem rewards_eq_zero : lane.rewards config substeps step = 0 := by
  simp [rewards, validSubstep_eq_false hvalid, hvalid, float]

theorem dones_eq_zero : lane.dones substeps step = 0 := by
  simp [dones, hvalid, float]

theorem executedSteps_eq_zero : lane.executedSteps substeps step = 0 := by
  simp [executedSteps, validSubstep_eq_false hvalid]

theorem discounts_eq_zero (rate : ℚ) :
    lane.discounts substeps rate step = 0 := by
  simp [discounts, hvalid, float]

theorem actionValids_eq_zero (position : ℕ) :
    lane.actionValids substeps step position = 0 := by
  simp [actionValids, validSubstep_eq_false hvalid, float]

end

end Lane

/-! ## Next observations -/

def isNextObs (key : String) : Bool := "next_obs.".toList.isPrefixOf key.toList

def nextFieldOf (key : String) : String := String.ofList (key.toList.drop 9)

theorem nextObsKey_nextFieldOf (hkey : isNextObs key) :
    nextObsKey (nextFieldOf key) = key := by
  obtain ⟨rest, hrest⟩ := List.isPrefixOf_iff_prefix.mp hkey
  apply String.toList_injective
  simp [nextObsKey, nextFieldOf, ← hrest]

@[simp] theorem isNextObs_nextObsKey (field : String) :
    isNextObs (nextObsKey field) := by
  simp [isNextObs, nextObsKey]

@[simp] theorem nextFieldOf_nextObsKey (field : String) :
    nextFieldOf (nextObsKey field) = field := by
  simp [nextFieldOf, nextObsKey]

theorem not_isNextObs_of_isObs (hkey : isObs key) : isNextObs key = false := by
  rw [← obsKey_fieldOf hkey]
  simp [isNextObs, obsKey, List.isPrefixOf]

theorem nextObsKey_ne (hkey : isObs key) : key ≠ nextObsKey field := by
  intro heq
  have h := not_isNextObs_of_isObs hkey
  rw [heq, isNextObs_nextObsKey] at h
  cases h

section Align

variable {α : Type} {batchSize steps : ℕ} {batch endObs : Dict (Tensor α)}

/-- An observation next to its successor, if both are reported. -/
def alignedField (batch endObs : Dict (Tensor α)) (key : String) :
    Option (Tensor α) :=
  match batch.lookup key, endObs.lookup (fieldOf key) with
  | some obs, some final => some (obs.dropStep.catSteps (final.repeatStep 1))
  | _, _ => none

def Alignable (batchSize steps : ℕ) (batch endObs : Dict (Tensor α))
    (key : String) : Prop :=
  isObs key ∧ ∃ obs final, batch.lookup key = some obs ∧
    endObs.lookup (fieldOf key) = some final ∧
    obs.shape.take 2 = [batchSize, steps] ∧
    final.shape = batchSize :: obs.shape.drop 2

theorem alignNext_foldlM {keys : List String} (hnodup : keys.Nodup)
    (hkeys : ∀ key ∈ keys, Alignable batchSize steps batch endObs key) :
    ∃ result, keys.foldlM (@alignNext ω α batchSize steps endObs) batch =
        .ok result ∧
      ∀ key, result.lookup key =
        if isNextObs key ∧ obsKey (nextFieldOf key) ∈ keys then
          alignedField batch endObs (obsKey (nextFieldOf key))
        else batch.lookup key := by
  induction keys generalizing batch with
  | nil => exact ⟨batch, rfl, by simp⟩
  | cons first keys ih =>
    obtain ⟨hfresh, hrest⟩ := List.nodup_cons.mp hnodup
    obtain ⟨hobs, obs, final, hlookup, hfinal, hshape, hfinalShape⟩ :=
      hkeys first List.mem_cons_self
    let value := obs.dropStep.catSteps (final.repeatStep 1)
    let next := batch.insert (nextObsKey (fieldOf first)) value
    have hkeep : ∀ key, isObs key → next.lookup key = batch.lookup key :=
      fun key hkey => AList.lookup_insert_ne (nextObsKey_ne hkey)
    have hstep : @alignNext ω α batchSize steps endObs batch first =
        .ok next := by
      simp only [alignNext, bind_eq_ok, require_eq_ok, Dict.fetch_eq_ok]
      exact ⟨obs, hlookup, final, hfinal, (), ⟨hshape, hfinalShape⟩, rfl⟩
    have hnext : ∀ key ∈ keys, Alignable batchSize steps next endObs key := by
      intro key hkey
      obtain ⟨hkeyObs, obs, final, hobsLookup, hrestFields⟩ :=
        hkeys key (List.mem_cons_of_mem first hkey)
      exact ⟨hkeyObs, obs, final, by rw [hkeep key hkeyObs]; exact hobsLookup,
        hrestFields⟩
    obtain ⟨result, hresult, hfields⟩ := ih hrest hnext
    refine ⟨result, ?_, ?_⟩
    · rw [List.foldlM_cons, hstep]
      exact hresult
    · intro key
      rw [hfields]
      have haligned : alignedField next endObs (obsKey (nextFieldOf key)) =
          alignedField batch endObs (obsKey (nextFieldOf key)) := by
        rw [alignedField, alignedField, hkeep _ (isObs_obsKey _)]
      rw [haligned]
      by_cases hkey : key = nextObsKey (fieldOf first)
      · subst hkey
        have hvalue : alignedField batch endObs first = some value := by
          unfold alignedField
          rw [hlookup, hfinal]
        rw [nextFieldOf_nextObsKey, obsKey_fieldOf hobs,
          if_neg fun h => hfresh h.2,
          if_pos ⟨isNextObs_nextObsKey _, List.mem_cons_self⟩, hvalue]
        exact AList.lookup_insert batch
      · have hne : isNextObs key → obsKey (nextFieldOf key) ≠ first := by
          intro hnextKey heq
          apply hkey
          rw [← heq, fieldOf_obsKey, nextObsKey_nextFieldOf hnextKey]
        have hother : next.lookup key = batch.lookup key :=
          AList.lookup_insert_ne hkey
        by_cases hnextKey : isNextObs key
        · simp [hnextKey, hne hnextKey, hother]
        · simp [hnextKey, hother]

theorem aligned_step {obs final : Tensor α}
    (hobs : obs.shape = batchSize :: steps :: shape)
    (hfinal : final.shape = batchSize :: shape) (hstep : step < steps)
    (trajectory : ℕ) :
    ((obs.dropStep.catSteps (final.repeatStep 1)).row trajectory).row step =
      if step + 1 < steps then (obs.row trajectory).row (step + 1)
      else final.row trajectory := by
  have hsteps : obs.dropStep.steps = steps - 1 := by
    simp [Tensor.dropStep, Tensor.steps, hobs]
  split_ifs with hlast
  · rw [Tensor.step_catSteps_lt (by omega), Tensor.step_dropStep]
  · rw [Tensor.step_catSteps_ge (by omega), Tensor.step_repeatStep]
    simp [Tensor.dropStep, Tensor.repeatStep, hobs, hfinal]

end Align

/-! ## What preparation returns -/

def chunkKeys : List String :=
  ["info.rewards", "info.dones", "info.durations", "info.discounts",
    "info.gae_discounts", "info.valids", "info.action_valids"]

def trajectoryKeys : List String :=
  ["info.trajectory_outcome", "info.trajectory_process_score"]

theorem infoFields_keys (config : TrainerConfig) (feedback : Feedback)
    (scores : ℕ → ℚ) (batchSize rolloutSteps substeps horizon : ℕ) :
    (infoFields config feedback scores batchSize rolloutSteps substeps
      horizon).map Prod.fst = chunkKeys ++ trajectoryKeys := rfl

theorem lookup_infoFields_eq_none (hkey : key ∉ chunkKeys ++ trajectoryKeys)
    (feedback : Feedback) (scores : ℕ → ℚ)
    (batchSize rolloutSteps substeps horizon : ℕ) :
    (infoFields config feedback scores batchSize rolloutSteps substeps
      horizon).lookup key = none := by
  apply List.lookup_eq_none_iff.mpr
  intro field hfield
  have hmem : field.1 ∈ chunkKeys ++ trajectoryKeys := by
    rw [← infoFields_keys config feedback scores batchSize rolloutSteps
      substeps horizon]
    exact List.mem_map_of_mem hfield
  have hne : key ≠ field.1 := fun heq => hkey (heq ▸ hmem)
  simpa using hne

theorem lookup_foldl_insert {α : Type} {fields : List (String × α)}
    (hnodup : (fields.map Prod.fst).Nodup) (dict : Dict α) (key : String) :
    (fields.foldl (fun dict field => dict.insert field.1 field.2)
      dict).lookup key = (fields.lookup key).or (dict.lookup key) := by
  induction fields generalizing dict with
  | nil => rfl
  | cons field fields ih =>
    obtain ⟨name, value⟩ := field
    obtain ⟨hfresh, hrest⟩ := List.nodup_cons.mp hnodup
    rw [List.foldl_cons, ih hrest]
    by_cases hkey : key = name
    · subst hkey
      have hnone : fields.lookup key = none := by
        apply List.lookup_eq_none_iff.mpr
        intro other hother
        have hmem : other.1 ∈ fields.map Prod.fst := List.mem_map_of_mem hother
        have hne : key ≠ other.1 := by
          rintro rfl
          exact hfresh hmem
        simpa using hne
      simp [hnone, AList.lookup_insert]
    · have hbeq : (key == name) = false := by simpa using hkey
      rw [List.lookup_cons, hbeq, AList.lookup_insert_ne hkey]

def isPolicyObs (key : String) : Bool := isObs key ∧ ¬isProfile (fieldOf key)

def alignedTensor (group : RolloutGroup ω) (key : String) :
    Option (Tensor ℚ) :=
  if isNextObs key ∧ isPolicyObs (obsKey (nextFieldOf key)) ∧
      (group.rollout.batch.lookup (obsKey (nextFieldOf key))).isSome then
    alignedField group.rollout.batch group.endObs.batch
      (obsKey (nextFieldOf key))
  else if isObs key ∧ isProfile (fieldOf key) then none
  else group.rollout.batch.lookup key

def alignedArray (group : RolloutGroup ω) (key : String) : Option (Tensor ω) :=
  if isNextObs key ∧ nextFieldOf key ∉ trajectoryMetadataFields ∧
      (group.rollout.nonTensorBatch.lookup
        (obsKey (nextFieldOf key))).isSome then
    alignedField group.rollout.nonTensorBatch group.endObs.nonTensorBatch
      (obsKey (nextFieldOf key))
  else group.rollout.nonTensorBatch.lookup key

def scoresOf (score : Option (Tensor ℚ)) (feedback : Feedback) : ℕ → ℚ :=
  match score with
  | some score => terminalScore score feedback.terminated feedback.truncated
  | none => fun trajectory => float (anyOf feedback.success trajectory)

structure Prepared (contract : FieldContract) (group : RolloutGroup ω)
    (config : TrainerConfig) (feedback : Feedback)
    (prepared : DataProto ω) : Prop where
  terminated : group.rollout.batch.lookup "next.terminated" =
    some feedback.terminated
  truncated : group.rollout.batch.lookup "next.truncated" =
    some feedback.truncated
  reward : group.rollout.batch.lookup "next.reward" = some feedback.reward
  success : group.rollout.batch.lookup "next.success" = some feedback.success
  tensors : ∀ key, prepared.batch.lookup key = ((infoFields config feedback
      (scoresOf (group.rollout.batch.lookup "next.score") feedback)
      group.size group.steps contract.substeps contract.horizon).lookup key).or
      (if key ∈ feedbackKeys then none else alignedTensor group key)
  arrays : ∀ key, prepared.nonTensorBatch.lookup key = alignedArray group key

theorem flattenTail_shape (hshape : tensor.shape = [size, steps, substeps]) :
    (flattenTail tensor).shape = [size, steps * substeps] := by
  simp [flattenTail, Tensor.rows, hshape]

section Prepare

variable {contract : FieldContract} {group : RolloutGroup ω}
  {config : TrainerConfig}

theorem processScores_ok {batch : Dict (Tensor ℚ)} (feedback : Feedback)
    (hterminated : batch.lookup "next.terminated" = some feedback.terminated)
    (htruncated : batch.lookup "next.truncated" = some feedback.truncated)
    (hsuccess : batch.lookup "next.success" = some feedback.success)
    (hshape : feedback.terminated.shape = [size, steps, substeps])
    (hscore : ∀ score, batch.lookup "next.score" = some score →
      score.shape = [size, steps, substeps]) :
    (processScores batch : Except (TrainingError ω) (ℕ → ℚ)) =
      .ok (scoresOf (batch.lookup "next.score") feedback) := by
  unfold processScores
  cases hcase : batch.lookup "next.score" with
  | none => simp [successScores, scoresOf, hsuccess, Dict.fetch, bind,
      Except.bind, pure, Except.pure]
  | some score =>
    have hflat : (flattenTail score).shape =
        (flattenTail feedback.terminated).shape := by
      rw [flattenTail_shape hshape, flattenTail_shape (hscore score hcase)]
    simp only [Option.isSome_some, if_true, terminalTrajectoryScores,
      scoresOf, bind_eq_ok, require_eq_ok, Dict.fetch_eq_ok]
    exact ⟨score, hcase, feedback.terminated, hterminated,
      feedback.truncated, htruncated, (), hflat, rfl⟩

section

variable (hvalid : contract.Valid) (hconforms : group.Conforms contract)

include hvalid hconforms

theorem alignable_tensor (hkey : isPolicyObs key)
    (hlookup : group.rollout.batch.lookup key = some obs)
    (hbatch : batch.lookup key = group.rollout.batch.lookup key) :
    Alignable group.size group.steps batch group.endObs.batch key := by
  simp only [isPolicyObs, decide_eq_true_eq] at hkey
  obtain ⟨shape, hshape, hobsShape⟩ :=
    shape_of_some (hconforms.tensors key) hlookup
  have hknown : (contract.tensors (obsKey (fieldOf key))).isSome := by
    rw [obsKey_fieldOf hkey.1, hshape]
    rfl
  obtain ⟨final, hfinal⟩ := Option.isSome_iff_exists.mp
    (hconforms.policyTensors (fieldOf key) hknown hkey.2)
  refine ⟨hkey.1, obs, final, hbatch.trans hlookup, hfinal, ?_, ?_⟩
  · rw [hobsShape]
    rfl
  · rw [hobsShape]
    exact reported_tensor hvalid hconforms hkey.1 hshape hfinal

theorem policyTensors_aligned : ∃ aligned,
      ((group.rollout.batch.restrict fun key =>
          ¬(isObs key ∧ isProfile (fieldOf key))).keys.filter isObs).foldlM
        (@alignNext ω ℚ group.size group.steps group.endObs.batch)
        (group.rollout.batch.restrict fun key =>
          ¬(isObs key ∧ isProfile (fieldOf key))) = .ok aligned ∧
      ∀ key, aligned.lookup key = alignedTensor group key := by
  set policy := group.rollout.batch.restrict fun key =>
    ¬(isObs key ∧ isProfile (fieldOf key)) with hpolicy
  have hkept : ∀ key, ¬(isObs key ∧ isProfile (fieldOf key)) →
      policy.lookup key = group.rollout.batch.lookup key := fun key hkey =>
    Dict.lookup_restrict _ (decide_eq_true hkey)
  have hdropped : ∀ key, isObs key ∧ isProfile (fieldOf key) →
      policy.lookup key = none := fun key hkey =>
    Dict.lookup_restrict_eq_none _ (by simpa using hkey)
  have hmem : ∀ key, key ∈ policy.keys.filter isObs ↔
      isPolicyObs key ∧ (group.rollout.batch.lookup key).isSome := by
    intro key
    rw [List.mem_filter, ← AList.mem_keys, ← AList.lookup_isSome,
      isPolicyObs, decide_eq_true_eq]
    by_cases hprofile : isObs key ∧ isProfile (fieldOf key)
    · simp [hdropped key hprofile, hprofile.1, hprofile.2]
    · rw [hkept key hprofile]
      constructor
      · rintro ⟨hsome, hobs⟩
        exact ⟨⟨hobs, fun h => hprofile ⟨hobs, h⟩⟩, hsome⟩
      · rintro ⟨⟨hobs, _⟩, hsome⟩
        exact ⟨hsome, hobs⟩
  have halignable : ∀ key ∈ policy.keys.filter isObs,
      Alignable group.size group.steps policy group.endObs.batch key := by
    intro key hkey
    obtain ⟨hpolicyKey, hsome⟩ := (hmem key).mp hkey
    obtain ⟨obs, hobs⟩ := Option.isSome_iff_exists.mp hsome
    apply alignable_tensor hvalid hconforms hpolicyKey hobs
    apply hkept
    simp only [isPolicyObs, decide_eq_true_eq] at hpolicyKey
    exact fun h => hpolicyKey.2 h.2
  obtain ⟨aligned, haligned, hfields⟩ := @alignNext_foldlM ω ℚ _ _ _ _ _
    (policy.keys_nodup.filter _) halignable
  refine ⟨aligned, haligned, ?_⟩
  intro key
  rw [hfields, alignedTensor]
  simp only [hmem]
  split_ifs with hnext hprofile
  · have hpolicyKey := hnext.2.1
    simp only [isPolicyObs, decide_eq_true_eq] at hpolicyKey
    rw [alignedField, alignedField, hkept _ fun h => hpolicyKey.2 h.2]
  · exact hdropped key hprofile
  · exact hkept key hprofile

theorem alignable_array (hkey : isObs key)
    (hfield : fieldOf key ∉ trajectoryMetadataFields)
    (hlookup : group.rollout.nonTensorBatch.lookup key = some obs) :
    Alignable group.size group.steps group.rollout.nonTensorBatch
      group.endObs.nonTensorBatch key := by
  obtain ⟨shape, hshape, hobsShape⟩ :=
    shape_of_some (hconforms.arrays key) hlookup
  have hknown : (contract.arrays (obsKey (fieldOf key))).isSome := by
    rw [obsKey_fieldOf hkey, hshape]
    rfl
  obtain ⟨final, hfinal⟩ := Option.isSome_iff_exists.mp
    (hconforms.policyArrays (fieldOf key) hknown hfield)
  refine ⟨hkey, obs, final, hlookup, hfinal, ?_, ?_⟩
  · rw [hobsShape]
    rfl
  · rw [hobsShape]
    exact reported_array hvalid hconforms hkey hshape hfinal

theorem policyArrays_aligned : ∃ aligned,
      (group.rollout.nonTensorBatch.keys.filter fun key =>
          isObs key ∧ fieldOf key ∉ trajectoryMetadataFields).foldlM
        (@alignNext ω ω group.size group.steps
          group.endObs.nonTensorBatch) group.rollout.nonTensorBatch =
        .ok aligned ∧
      ∀ key, aligned.lookup key = alignedArray group key := by
  have hmem : ∀ key, key ∈ (group.rollout.nonTensorBatch.keys.filter
      fun key => isObs key ∧ fieldOf key ∉ trajectoryMetadataFields) ↔
        (isObs key ∧ fieldOf key ∉ trajectoryMetadataFields) ∧
          (group.rollout.nonTensorBatch.lookup key).isSome := by
    intro key
    rw [List.mem_filter, ← AList.mem_keys, ← AList.lookup_isSome,
      decide_eq_true_eq, and_comm]
  have halignable : ∀ key ∈ (group.rollout.nonTensorBatch.keys.filter
      fun key => isObs key ∧ fieldOf key ∉ trajectoryMetadataFields),
      Alignable group.size group.steps group.rollout.nonTensorBatch
        group.endObs.nonTensorBatch key := by
    intro key hkey
    obtain ⟨⟨hobs, hfield⟩, hsome⟩ := (hmem key).mp hkey
    obtain ⟨obs, hlookup⟩ := Option.isSome_iff_exists.mp hsome
    exact alignable_array hvalid hconforms hobs hfield hlookup
  obtain ⟨aligned, haligned, hfields⟩ := @alignNext_foldlM ω ω _ _ _ _ _
    (group.rollout.nonTensorBatch.keys_nodup.filter _) halignable
  refine ⟨aligned, haligned, ?_⟩
  intro key
  rw [hfields, alignedArray]
  simp only [hmem, isObs_obsKey, fieldOf_obsKey, true_and]

theorem prepareFpoActorInput_ok
    (hscore : config.groupRewardSource = "process_score" →
      (contract.tensors "next.score").isSome) (globalSteps : ℤ) :
    ∃ feedback prepared,
      prepareFpoActorInput group.rollout group.endObs config globalSteps =
        .ok prepared ∧
      Prepared contract group config feedback prepared := by
  obtain ⟨_, hactionShape⟩ := hvalid.action
  obtain ⟨action, haction, hactionFull⟩ :=
    some_of_shape (hconforms.tensors "action.action") hactionShape
  obtain ⟨_, hfullShape⟩ := hvalid.fullAction
  obtain ⟨fullAction, hfullAction, hfullFull⟩ :=
    some_of_shape (hconforms.tensors "action.full_action") hfullShape
  have hfeedback : ∀ key ∈ feedbackKeys, key ≠ "next.score" →
      ∃ tensor, group.rollout.batch.lookup key = some tensor ∧
        tensor.shape = [group.size, group.steps, contract.substeps] :=
    fun key hkey hne => some_of_shape (hconforms.tensors key)
      (hvalid.feedback key hkey hne)
  obtain ⟨terminated, hterminated, hterminatedShape⟩ :=
    hfeedback "next.terminated" (by decide) (by decide)
  obtain ⟨truncated, htruncated, _⟩ :=
    hfeedback "next.truncated" (by decide) (by decide)
  obtain ⟨reward, hreward, hrewardShape⟩ :=
    hfeedback "next.reward" (by decide) (by decide)
  obtain ⟨success, hsuccess, _⟩ :=
    hfeedback "next.success" (by decide) (by decide)
  obtain ⟨aligned, haligned, halignedFields⟩ :=
    policyTensors_aligned hvalid hconforms
  obtain ⟨arrays, harrays, harrayFields⟩ :=
    policyArrays_aligned hvalid hconforms
  have hnext : ∀ key ∈ "action.full_action" :: feedbackKeys,
      aligned.lookup key = group.rollout.batch.lookup key := by
    intro key hkey
    rw [halignedFields]
    simp only [feedbackKeys, List.mem_cons, List.not_mem_nil, or_false] at hkey
    rcases hkey with rfl | rfl | rfl | rfl | rfl | rfl <;> rfl
  let feedback : Feedback := ⟨terminated, truncated, reward, success⟩
  have hscores : (processScores aligned : Except (TrainingError ω) (ℕ → ℚ)) =
        .ok (scoresOf (group.rollout.batch.lookup "next.score") feedback) := by
    rw [← hnext "next.score" (by decide)]
    apply processScores_ok feedback ((hnext _ (by decide)).trans hterminated)
      ((hnext _ (by decide)).trans htruncated)
      ((hnext _ (by decide)).trans hsuccess) hterminatedShape
    intro score hscoreLookup
    rw [hnext "next.score" (by decide)] at hscoreLookup
    obtain ⟨shape, hshape, hscoreShape⟩ :=
      shape_of_some (hconforms.tensors "next.score") hscoreLookup
    rw [hscoreShape, hvalid.score shape hshape]
  have hpresent : config.groupRewardSource = "process_score" →
      (aligned.lookup "next.score").isSome := by
    intro hsource
    rw [hnext "next.score" (by decide)]
    have h := congrArg Option.isSome (hconforms.tensors "next.score")
    simp only [Option.isSome_map] at h
    rw [h]
    exact hscore hsource
  have hsteps : action.steps = group.steps := by
    simp [RolloutGroup.steps, haction]
  have hprepared : prepareFpoActorInput group.rollout group.endObs config
      globalSteps = .ok
        { batch := (infoFields config feedback
            (scoresOf (group.rollout.batch.lookup "next.score") feedback)
            group.size group.steps contract.substeps
            contract.horizon).foldl (fun batch field =>
              batch.insert field.1 field.2)
            (aligned.restrict fun key => key ∉ feedbackKeys)
          nonTensorBatch := arrays
          metaInfo := preparedMetaInfo group.rollout.metaInfo config
            globalSteps group.size } := by
    simp only [prepareFpoActorInput, bind_eq_ok, require_eq_ok,
      Dict.fetch_eq_ok]
    refine ⟨action, haction, aligned, ?_, arrays, ?_, (), hpresent, _,
      hscores, terminated, (hnext _ (by decide)).trans hterminated,
      truncated, (hnext _ (by decide)).trans htruncated, reward,
      (hnext _ (by decide)).trans hreward, success,
      (hnext _ (by decide)).trans hsuccess, contract.substeps, ?_,
      fullAction, (hnext _ (by decide)).trans hfullAction,
      contract.horizon, ?_, contract.substeps, ?_, (), rfl, (),
      hvalid.horizon_le, ?_⟩
    · rw [hsteps]
      exact haligned
    · rw [hsteps]
      exact harrays
    · simp [substepsOf, hactionFull]
    · simp [substepsOf, hfullFull]
    · simp [substepsOf, hrewardShape]
    · rw [hsteps]
      rfl
  refine ⟨feedback, _, hprepared, hterminated, htruncated, hreward, hsuccess,
    ?_, harrayFields⟩
  intro key
  rw [lookup_foldl_insert (by rw [infoFields_keys]; decide)]
  congr 1
  by_cases hkey : key ∈ feedbackKeys
  · rw [if_pos hkey, Dict.lookup_restrict_eq_none _ (by simpa using hkey)]
  · rw [if_neg hkey, Dict.lookup_restrict _ (by simpa using hkey),
      halignedFields]

end

end Prepare

end VerlVla
