import Mathlib.Data.List.GetD
import VerlVla.FpoTransitions

/-!
# Prepared and padded transitions

A well-formed window is prepared without an error.  Its rows keep their
observations with their successors, and the rows that fill up the last worker
are invalid.
-/

namespace VerlVla
namespace FpoTrainer

open Finset

variable {ω : Type}

/-! ## Aligned observations -/

section Aligned

variable {α : Type} {batchSize steps : ℕ} {batch endObs : Dict (Tensor α)}

theorem aligned_all (hfields : ∀ key, isObs key → (batch.lookup key).isSome →
      Alignable batchSize steps batch endObs key)
    (hfresh : ∀ field, batch.lookup (nextObsKey field) = none) :
    ∃ aligned, (batch.keys.filter isObs).foldlM
        (@alignNext ω α batchSize steps endObs) batch = .ok aligned ∧
      (∀ field, aligned.lookup (nextObsKey field) =
        alignedField batch endObs (obsKey field)) ∧
      ∀ key, isNextObs key = false →
        aligned.lookup key = batch.lookup key := by
  have hmem : ∀ key, key ∈ batch.keys.filter isObs ↔
      (batch.lookup key).isSome ∧ isObs key := by
    intro key
    rw [List.mem_filter, ← AList.mem_keys, ← AList.lookup_isSome]
  have halignable : ∀ key ∈ batch.keys.filter isObs,
      Alignable batchSize steps batch endObs key := by
    intro key hkey
    obtain ⟨hsome, hobs⟩ := (hmem key).mp hkey
    exact hfields key hobs hsome
  obtain ⟨aligned, haligned, hlookup⟩ := @alignNext_foldlM ω α _ _ _ _ _
    (batch.keys_nodup.filter _) halignable
  refine ⟨aligned, haligned, ?_, ?_⟩
  · intro field
    rw [hlookup, nextFieldOf_nextObsKey]
    simp only [hmem, isNextObs_nextObsKey, isObs_obsKey, true_and, and_true]
    by_cases hsome : (batch.lookup (obsKey field)).isSome
    · rw [if_pos hsome]
    · rw [if_neg hsome, hfresh]
      have hnone := Option.not_isSome_iff_eq_none.mp hsome
      unfold alignedField
      rw [hnone]
  · intro key hkey
    rw [hlookup, if_neg]
    intro hnext
    rw [hkey] at hnext
    exact Bool.false_ne_true hnext.1

/-- The successor of a slot is the next slot, and in the end the final
observation. -/
theorem alignedField_step
    (hfields : ∀ key, isObs key → (batch.lookup key).isSome →
      Alignable batchSize steps batch endObs key) (hstep : step < steps)
    (field : String) (lane : ℕ) :
    ((alignedField batch endObs (obsKey field)).map fun tensor =>
        (tensor.row lane).row step) =
      if step + 1 < steps then
        (batch.lookup (obsKey field)).map fun tensor =>
          (tensor.row lane).row (step + 1)
      else if (batch.lookup (obsKey field)).isSome then
        (endObs.lookup field).map (·.row lane)
      else none := by
  cases hlookup : batch.lookup (obsKey field) with
  | none => simp [alignedField, hlookup]
  | some obs =>
    have hsome : (batch.lookup (obsKey field)).isSome := by
      rw [hlookup]
      rfl
    obtain ⟨-, found, final, hfound, hfinal, hshape, hfinalShape⟩ :=
      hfields (obsKey field) (isObs_obsKey field) hsome
    rw [hlookup] at hfound
    cases hfound
    rw [fieldOf_obsKey] at hfinal
    have hfull : obs.shape = batchSize :: steps :: obs.shape.drop 2 := by
      rw [← List.take_append_drop 2 obs.shape, hshape]
      rfl
    have hrow := aligned_step hfull hfinalShape hstep lane
    unfold alignedField
    rw [hlookup, fieldOf_obsKey, hfinal]
    simp only [Option.map_some, hrow, Option.isSome_some, if_true]
    split_ifs
    · rfl
    · rfl

theorem aligned_hasRows {aligned : Dict (Tensor α)} {n : ℕ}
    (hrows : ∀ key tensor, batch.lookup key = some tensor →
      tensor.shape.head? = some n)
    (hnext : ∀ field, aligned.lookup (nextObsKey field) =
      alignedField batch endObs (obsKey field))
    (hkept : ∀ key, isNextObs key = false →
      aligned.lookup key = batch.lookup key) {tensor : Tensor α}
    (htensor : aligned.lookup key = some tensor) :
    tensor.shape.head? = some n := by
  by_cases hkey : isNextObs key
  · rw [← nextObsKey_nextFieldOf hkey, hnext] at htensor
    unfold alignedField at htensor
    cases hobs : batch.lookup (obsKey (nextFieldOf key)) with
    | none =>
      simp [hobs] at htensor
    | some obs =>
      rw [hobs] at htensor
      cases hfinal : endObs.lookup (fieldOf (obsKey (nextFieldOf key))) with
      | none =>
        simp [hfinal] at htensor
      | some final =>
        rw [hfinal] at htensor
        cases htensor
        have hobsRows : obs.rows = n := DataProto.rows_of_head (hrows _ _ hobs)
        rw [← hobsRows]
        rfl
  · rw [hkept key (Bool.eq_false_iff.mpr hkey)] at htensor
    exact hrows key tensor htensor

end Aligned

/-! ## Prepared windows -/

structure Transitions (config : Config) (rollout endObs data : DataProto ω)
    (batchSize steps substeps horizon : ℕ) : Prop where
  rows : data.HasRows batchSize
  info : ∀ field ∈ infoFields config (feedbackOf rollout) batchSize steps
    substeps horizon, data.batch.lookup field.1 = some field.2
  obs : ∀ lane step,
    slotRow obsKey data lane step = slotRow obsKey rollout lane step
  nextObs : ∀ lane, ∀ step < steps, slotRow nextObsKey data lane step =
    successor rollout endObs steps lane step

def infoKeys : List String :=
  ["info.rewards", "info.dones", "info.discounts", "info.gae_discounts",
    "info.valids", "info.action_valids"]

theorem infoFields_keys (config : Config) (feedback : Feedback)
    (batchSize rolloutSteps substeps horizon : ℕ) :
    (infoFields config feedback batchSize rolloutSteps substeps
      horizon).map Prod.fst = infoKeys := rfl

theorem plain_of_mem (hkey : key ∈ infoKeys ++ feedbackKeys) :
    isObs key = false ∧ isNextObs key = false := by
  revert key
  decide

theorem not_mem_of_isObs (hobs : isObs key) :
    key ∉ infoKeys ∧ key ∉ feedbackKeys := by
  constructor
  · intro hinfo
    have hplain := plain_of_mem (List.mem_append_left feedbackKeys hinfo)
    rw [hplain.1] at hobs
    cases hobs
  · intro hfeedback
    have hplain := plain_of_mem (List.mem_append_right infoKeys hfeedback)
    rw [hplain.1] at hobs
    cases hobs

theorem not_mem_of_isNextObs (hnext : isNextObs key) :
    key ∉ infoKeys ∧ key ∉ feedbackKeys := by
  constructor
  · intro hinfo
    have hplain := plain_of_mem (List.mem_append_left feedbackKeys hinfo)
    rw [hplain.2] at hnext
    cases hnext
  · intro hfeedback
    have hplain := plain_of_mem (List.mem_append_right infoKeys hfeedback)
    rw [hplain.2] at hnext
    cases hnext

theorem lookup_infoFields (hfield : field ∈ infoFields config feedback
      batchSize rolloutSteps substeps horizon) :
    (infoFields config feedback batchSize rolloutSteps substeps
      horizon).lookup field.1 = some field.2 := by
  simp only [infoFields, List.mem_cons, List.not_mem_nil, or_false] at hfield
  rcases hfield with rfl | rfl | rfl | rfl | rfl | rfl
  · rfl
  · rfl
  · rfl
  · rfl
  · rfl
  · rfl

theorem rows_infoFields (hlookup : (infoFields config feedback batchSize
      rolloutSteps substeps horizon).lookup key = some tensor) :
    tensor.shape.head? = some batchSize := by
  obtain ⟨name, hmem⟩ : ∃ name, (name, tensor) ∈ infoFields config feedback
      batchSize rolloutSteps substeps horizon := by
    obtain ⟨before, after, hsplit, -⟩ := List.lookup_eq_some_iff.mp hlookup
    rw [hsplit]
    exact ⟨key, List.mem_append_right _ List.mem_cons_self⟩
  simp only [infoFields, List.mem_cons, List.not_mem_nil, or_false,
    Prod.mk.injEq] at hmem
  rcases hmem with ⟨-, rfl⟩ | ⟨-, rfl⟩ | ⟨-, rfl⟩ | ⟨-, rfl⟩ | ⟨-, rfl⟩ |
    ⟨-, rfl⟩
  · rfl
  · rfl
  · rfl
  · rfl
  · rfl
  · rfl

theorem substepsOf_eq_ok {key : String} {tensor : Tensor ℚ}
    {batchSize steps size : ℕ}
    (hshape : tensor.shape.take 3 = [batchSize, steps, size]) :
    (substepsOf key tensor : Except (TrainingError ω) ℕ) = .ok size := by
  have hthird : tensor.shape[2]? = some size := by
    have htake : (tensor.shape.take 3)[2]? = tensor.shape[2]? :=
      List.getElem?_take_of_lt (by decide)
    rw [← htake, hshape]
    rfl
  unfold substepsOf
  rw [hthird]

theorem steps_of_take {tensor : Tensor ℚ}
    (hshape : tensor.shape.take 3 = [batchSize, steps, size]) :
    tensor.steps = steps := by
  have htake : (tensor.shape.take 3)[1]? = tensor.shape[1]? :=
    List.getElem?_take_of_lt (by decide)
  rw [hshape] at htake
  rw [Tensor.steps, List.getD_eq_getElem?_getD, ← htake]
  rfl

section Prepare

variable {rollout endObs : DataProto ω} {batchSize steps substeps horizon : ℕ}

theorem prepareFpoActorInput_ok (config : Config)
    (hwindow : WindowShape rollout endObs batchSize steps substeps horizon)
    (globalSteps : ℤ) :
    ∃ data, prepareFpoActorInput rollout endObs config globalSteps = .ok data ∧
      Transitions config rollout endObs data batchSize steps substeps
        horizon := by
  obtain ⟨action, haction, hactionShape⟩ := hwindow.action
  obtain ⟨fullAction, hfullAction, hfullShape⟩ := hwindow.fullAction
  obtain ⟨terminated, hterminated, -⟩ :=
    hwindow.feedback "next.terminated" (by decide)
  obtain ⟨truncated, htruncated, -⟩ :=
    hwindow.feedback "next.truncated" (by decide)
  obtain ⟨reward, hreward, hrewardShape⟩ :=
    hwindow.feedback "next.reward" (by decide)
  obtain ⟨success, hsuccess, -⟩ := hwindow.feedback "next.success" (by decide)
  have hlength : rollout.length = batchSize := hwindow.rows.length_eq haction
  obtain ⟨aligned, haligned, hnext, hkept⟩ :=
    @aligned_all ω ℚ batchSize steps rollout.batch endObs.batch
      hwindow.tensors hwindow.freshTensors
  obtain ⟨arrays, harrays, hnextArrays, hkeptArrays⟩ :=
    @aligned_all ω ω batchSize steps rollout.nonTensorBatch
      endObs.nonTensorBatch hwindow.arrays hwindow.freshArrays
  have hfeedback : feedbackOf rollout =
      ⟨terminated, truncated, reward, success⟩ := by
    unfold feedbackOf
    rw [hterminated, htruncated, hreward, hsuccess]
    rfl
  have hsteps : action.steps = steps := steps_of_take hactionShape
  have hsubsteps := @substepsOf_eq_ok ω "action.action" _ _ _ _ hactionShape
  have hhorizon := @substepsOf_eq_ok ω "action.full_action" _ _ _ _ hfullShape
  have hrewardSubsteps : (substepsOf "next.reward" reward :
      Except (TrainingError ω) ℕ) = .ok substeps := by
    apply substepsOf_eq_ok
    rw [hrewardShape]
    rfl
  let kept := aligned.restrict fun key => key ∉ feedbackKeys
  let fields := infoFields config (feedbackOf rollout) batchSize steps
    substeps horizon
  let data : DataProto ω :=
    { batch := fields.foldl (fun batch field =>
        batch.insert field.1 field.2) kept
      nonTensorBatch := arrays
      metaInfo := preparedMetaInfo rollout.metaInfo config globalSteps
        batchSize }
  have hprepared : prepareFpoActorInput rollout endObs config globalSteps =
      .ok data := by
    simp only [prepareFpoActorInput, bind_eq_ok, require_eq_ok,
      Dict.fetch_eq_ok, hlength]
    refine ⟨action, haction, aligned, ?_, arrays, ?_, terminated, ?_,
      truncated, ?_, reward, ?_, success, ?_, substeps, hsubsteps,
      fullAction, ?_, horizon, hhorizon, substeps, hrewardSubsteps, (), rfl,
      (), hwindow.horizon, ?_⟩
    · rw [hsteps]
      exact haligned
    · rw [hsteps]
      exact harrays
    · exact (hkept _ (by decide)).trans hterminated
    · exact (hkept _ (by decide)).trans htruncated
    · exact (hkept _ (by decide)).trans hreward
    · exact (hkept _ (by decide)).trans hsuccess
    · exact (hkept _ (by decide)).trans hfullAction
    · rw [← hfeedback, hsteps]
      rfl
  have hnodup : (fields.map Prod.fst).Nodup := by
    rw [infoFields_keys]
    decide
  have hlookup : ∀ key, data.batch.lookup key =
      (fields.lookup key).or (kept.lookup key) := fun key =>
    lookup_foldl_insert hnodup kept key
  have hother : ∀ key, key ∉ infoKeys → key ∉ feedbackKeys →
      data.batch.lookup key = aligned.lookup key := by
    intro key hinfo hnot
    have hnone : fields.lookup key = none := by
      apply List.lookup_eq_none_iff.mpr
      intro field hfield
      have hmem : field.1 ∈ infoKeys := by
        rw [← infoFields_keys config (feedbackOf rollout) batchSize steps
          substeps horizon]
        exact List.mem_map_of_mem hfield
      have hne : key ≠ field.1 := fun heq => hinfo (heq ▸ hmem)
      simpa using hne
    rw [hlookup, hnone, Option.none_or]
    exact Dict.lookup_restrict aligned (decide_eq_true hnot)
  have hobs : ∀ field, data.batch.lookup (obsKey field) =
      rollout.batch.lookup (obsKey field) := by
    intro field
    have hkey := isObs_obsKey field
    have hplain := not_mem_of_isObs hkey
    rw [hother _ hplain.1 hplain.2, hkept _ (not_isNextObs_of_isObs hkey)]
  have hnextObs : ∀ field, data.batch.lookup (nextObsKey field) =
      alignedField rollout.batch endObs.batch (obsKey field) := by
    intro field
    have hplain := not_mem_of_isNextObs (isNextObs_nextObsKey field)
    rw [hother _ hplain.1 hplain.2, hnext]
  refine ⟨data, hprepared, ?_, ?_, ?_, ?_⟩
  · constructor
    · intro key tensor htensor
      rw [hlookup] at htensor
      cases hinfo : fields.lookup key with
      | some found =>
        rw [hinfo] at htensor
        cases htensor
        exact rows_infoFields hinfo
      | none =>
        rw [hinfo, Option.none_or] at htensor
        by_cases hfeedbackKey : key ∈ feedbackKeys
        · have hnone : kept.lookup key = none :=
            Dict.lookup_restrict_eq_none aligned (by simpa using hfeedbackKey)
          simp [hnone] at htensor
        · have hsame : kept.lookup key = aligned.lookup key :=
            Dict.lookup_restrict aligned (decide_eq_true hfeedbackKey)
          rw [hsame] at htensor
          exact aligned_hasRows hwindow.rows.tensors hnext hkept htensor
    · intro key array harray
      exact aligned_hasRows hwindow.rows.arrays hnextArrays hkeptArrays harray
  · intro field hfield
    rw [hlookup, lookup_infoFields hfield, Option.some_or]
  · intro lane step
    unfold slotRow
    congr 1
    · funext field
      rw [hobs]
    · funext field
      exact congrArg _
        (hkeptArrays _ (not_isNextObs_of_isObs (isObs_obsKey field)))
  · intro lane step hstep
    have htensors := fun field =>
      alignedField_step hwindow.tensors hstep field lane
    have harraysStep := fun field =>
      alignedField_step hwindow.arrays hstep field lane
    unfold successor slotRow endRow
    split_ifs with hlast
    · simp only [hlast, if_true] at htensors harraysStep
      congr 1
      · funext field
        rw [hnextObs]
        exact htensors field
      · funext field
        rw [hnextArrays]
        exact harraysStep field
    · simp only [hlast, if_false] at htensors harraysStep
      congr 1
      · funext field
        rw [hnextObs]
        exact htensors field
      · funext field
        rw [hnextArrays]
        exact harraysStep field

end Prepare

/-! ## Padded windows -/

/-- The transitions of a window, with invalid rows behind them. -/
structure PaddedTransitions (config : Config)
    (rollout endObs data : DataProto ω)
    (batchSize steps substeps count : ℕ) : Prop where
  rewards : ∃ tensor, data.batch.lookup "info.rewards" = some tensor ∧
    ∀ lane < batchSize, ∀ step, tensor.entry [lane, step] =
      rewards config ((feedbackOf rollout).lane lane) substeps step
  discounts : ∃ tensor, data.batch.lookup "info.discounts" = some tensor ∧
    ∀ lane < batchSize, ∀ step, tensor.entry [lane, step] =
      discounts ((feedbackOf rollout).lane lane) substeps config.gamma step
  gaeDiscounts : ∃ tensor,
    data.batch.lookup "info.gae_discounts" = some tensor ∧
      ∀ lane < batchSize, ∀ step, tensor.entry [lane, step] =
        FpoTrainer.discounts ((feedbackOf rollout).lane lane) substeps
          (config.gamma * config.gaeLambda) step
  valids : ∃ tensor, data.batch.lookup "info.valids" = some tensor ∧
    tensor.rows = batchSize + count ∧ tensor.steps = steps ∧
      (∀ lane < batchSize, ∀ step, tensor.entry [lane, step] = 1) ∧
      ∀ lane, batchSize ≤ lane → lane < batchSize + count → ∀ step,
        tensor.entry [lane, step] = 0
  obs : ∀ lane < batchSize, ∀ step,
    slotRow obsKey data lane step = slotRow obsKey rollout lane step
  nextObs : ∀ lane < batchSize, ∀ step < steps,
    slotRow nextObsKey data lane step =
      successor rollout endObs steps lane step

section Pad

variable {rollout endObs : DataProto ω} {batchSize steps substeps horizon : ℕ}

theorem getD_range_append {n lane : ℕ} (appended : List ℕ)
    (hlane : lane < n) : (List.range n ++ appended).getD lane 0 = lane := by
  rw [List.getD_append _ _ _ _ (by simpa using hlane),
    List.getD_eq_getElem _ _ (by simpa using hlane), List.getElem_range]

theorem slotRow_selected {data padded : DataProto ω} {indices : List ℕ}
    (htensors : ∀ field, padded.batch.lookup (keyOf field) =
      (data.batch.lookup (keyOf field)).map (·.selectRows indices))
    (harrays : ∀ field, padded.nonTensorBatch.lookup (keyOf field) =
      (data.nonTensorBatch.lookup (keyOf field)).map (·.selectRows indices))
    (lane step : ℕ) :
    slotRow keyOf padded lane step =
      slotRow keyOf data (indices.getD lane 0) step := by
  unfold slotRow
  congr 1
  · funext field
    rw [htensors, Option.map_map]
    rfl
  · funext field
    rw [harrays, Option.map_map]
    rfl

theorem valids_ne_obsKey (field : String) : obsKey field ≠ "info.valids" := by
  intro heq
  have hobs := isObs_obsKey field
  rw [heq] at hobs
  exact absurd hobs (by decide)

theorem valids_ne_nextObsKey (field : String) :
    nextObsKey field ≠ "info.valids" := by
  intro heq
  have hnext := isNextObs_nextObsKey field
  rw [heq] at hnext
  exact absurd hnext (by decide)

structure Masked (batchSize steps : ℕ) (data padded : DataProto ω)
    (appended : List ℕ) : Prop where
  tensors : ∀ key, key ≠ "info.valids" → padded.batch.lookup key =
    (data.batch.lookup key).map
      (·.selectRows (List.range batchSize ++ appended))
  arrays : ∀ key, padded.nonTensorBatch.lookup key =
    (data.nonTensorBatch.lookup key).map
      (·.selectRows (List.range batchSize ++ appended))
  valids : ∃ tensor, padded.batch.lookup "info.valids" = some tensor ∧
    tensor.rows = batchSize + appended.length ∧ tensor.steps = steps ∧
      (∀ lane < batchSize, ∀ step, tensor.entry [lane, step] = 1) ∧
      ∀ lane, batchSize ≤ lane → lane < batchSize + appended.length →
        ∀ step, tensor.entry [lane, step] = 0

theorem padWithValidMask_ok (hpad : PadsRows padToDivisor)
    (hlanes : 0 < batchSize) (hrows : data.HasRows batchSize)
    (hvalids : data.batch.lookup "info.valids" =
      some (Tensor.matrix batchSize steps fun _ _ => 1))
    (hworld : 0 < worldSize) :
    ∃ padded appended,
      padWithValidMask padToDivisor data worldSize "info.valids" = .ok padded ∧
      Masked batchSize steps data padded appended := by
  obtain ⟨appended, -, hcount, -, htensors, harrays⟩ :=
    hpad data batchSize worldSize hrows (hrows.length_eq hvalids) hlanes hworld
  let ones : Tensor ℚ := (Tensor.matrix batchSize steps fun _ _ => 1)
    |>.selectRows (List.range batchSize ++ appended)
  have hones : (padToDivisor data worldSize).1.batch.lookup "info.valids" =
      some ones := by
    rw [htensors, hvalids]
    rfl
  have hlength : ones.rows = batchSize + appended.length := by
    have hselected : ones.rows =
        (List.range batchSize ++ appended).length := rfl
    rw [hselected, List.length_append, List.length_range]
  unfold padWithValidMask
  dsimp only
  rw [hcount]
  by_cases hnone : appended.length = 0
  · rw [if_pos hnone]
    refine ⟨_, appended, rfl, fun key _ => htensors key, harrays, ones,
      hones, hlength, rfl, fun _ _ _ => rfl, ?_⟩
    intro lane hafter hbefore
    omega
  · rw [if_neg hnone]
    have hstart : ones.rows - appended.length = batchSize := by omega
    refine ⟨_, appended, bind_eq_ok.mpr ⟨ones, ?_, rfl⟩, ?_, harrays,
      ones.zeroRowsFrom (ones.rows - appended.length), ?_, hlength, rfl,
      ?_, ?_⟩
    · exact Dict.fetch_eq_ok.mpr hones
    · intro key hkey
      exact (AList.lookup_insert_ne hkey).trans (htensors key)
    · exact AList.lookup_insert _
    · intro lane hlane step
      rw [hstart]
      exact if_neg (Nat.not_le.mpr hlane)
    · intro lane hafter _ step
      rw [hstart]
      exact Tensor.entry_zeroRowsFrom ones hafter [step]

theorem prepareActorInput_ok (config : Config) (hpad : PadsRows padToDivisor)
    (hwindow : WindowShape rollout endObs batchSize steps substeps horizon)
    (globalSteps : ℤ) (hworld : 0 < worldSize) :
    ∃ data count,
      prepareActorInput padToDivisor rollout endObs config globalSteps
        worldSize = .ok data ∧
      PaddedTransitions config rollout endObs data batchSize steps substeps
        count := by
  obtain ⟨data, hdata, htransitions⟩ :=
    prepareFpoActorInput_ok config hwindow globalSteps
  have hvalids := htransitions.info
    ("info.valids", .matrix batchSize steps fun _ _ => 1)
    (.tail _ (.tail _ (.tail _ (.tail _ (.head _)))))
  obtain ⟨padded, appended, hpadded, hmasked⟩ :=
    padWithValidMask_ok hpad hwindow.lanes htransitions.rows hvalids hworld
  have hfield : ∀ (key : String) (value : Lane → ℕ → ℚ), key ≠ "info.valids" →
      data.batch.lookup key = some (Tensor.matrix batchSize steps
        fun trajectory step =>
          value ((feedbackOf rollout).lane trajectory) step) →
      ∃ tensor, padded.batch.lookup key = some tensor ∧
        ∀ lane < batchSize, ∀ step, tensor.entry [lane, step] =
          value ((feedbackOf rollout).lane lane) step := by
    intro key value hkey hlookup
    refine ⟨_, (hmasked.tensors key hkey).trans (congrArg _ hlookup), ?_⟩
    intro lane hlane step
    have hrow := getD_range_append appended hlane
    exact congrArg (fun row => value ((feedbackOf rollout).lane row) step) hrow
  have hslot : ∀ keyOf : String → String,
      (∀ field, keyOf field ≠ "info.valids") →
      ∀ lane < batchSize, ∀ step,
        slotRow keyOf padded lane step = slotRow keyOf data lane step := by
    intro keyOf hkeys lane hlane step
    rw [slotRow_selected (fun field => hmasked.tensors _ (hkeys field))
      (fun field => hmasked.arrays _), getD_range_append appended hlane]
  refine ⟨padded, appended.length, bind_eq_ok.mpr ⟨data, hdata, hpadded⟩,
    ?_, ?_, ?_, hmasked.valids, ?_, ?_⟩
  · exact hfield _ (fun lane => FpoTrainer.rewards config lane substeps)
      (by decide) (htransitions.info ("info.rewards", _) (.head _))
  · exact hfield _
      (fun lane => FpoTrainer.discounts lane substeps config.gamma)
      (by decide) (htransitions.info ("info.discounts", _)
        (.tail _ (.tail _ (.head _))))
  · exact hfield _ (fun lane => FpoTrainer.discounts lane substeps
        (config.gamma * config.gaeLambda))
      (by decide) (htransitions.info ("info.gae_discounts", _)
        (.tail _ (.tail _ (.tail _ (.head _)))))
  · intro lane hlane step
    rw [hslot obsKey valids_ne_obsKey lane hlane step]
    exact htransitions.obs lane step
  · intro lane hlane step hstep
    rw [hslot nextObsKey valids_ne_nextObsKey lane hlane step]
    exact htransitions.nextObs lane step hstep

end Pad

end FpoTrainer
end VerlVla
