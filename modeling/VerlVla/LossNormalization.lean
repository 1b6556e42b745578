import Mathlib.Algebra.BigOperators.Ring.List
import Mathlib.Algebra.Order.BigOperators.Group.List
import Mathlib.Algebra.Order.Ring.Rat
import Mathlib.Data.List.Induction
import VerlVla.BatchSlices
import VerlVla.Checks
import VerlVla.PolicySurrogates

/-!
# Normalization of the critic-free loss

A minibatch is spread over the ranks, and every rank accumulates the losses of
its micro-batches.  The denominator is the weight of the whole minibatch divided
by the number of ranks, and no loss is divided by less than one.
-/

namespace VerlVla

open List hiding cons nil permutations sum

/-! ## One epoch of updates -/

/-- How an epoch is laid out: a permutation for each rank, and the sizes of its
minibatches and micro-batches. -/
structure EpochLayout where
  rowsPerRank : ℕ
  permutations : List (List ℕ)
  localMiniBatchSize : ℕ
  microBatchSize : ℕ
  permuted : ∀ permutation ∈ permutations, permutation.Perm (range rowsPerRank)
  ranks_pos : permutations ≠ []
  local_pos : 0 < localMiniBatchSize
  micro_pos : 0 < microBatchSize

namespace EpochLayout

variable {α β : Type} (layout : EpochLayout)

def worldSize : ℕ := layout.permutations.length

def selectRows (indices : List ℕ) (rows : List α) : List α :=
  indices.filterMap fun index => rows[index]?

def minibatchShards (ranks : List (List α)) (start : ℕ) : List (List α) :=
  List.zipWith (fun permutation rows => selectRows
    (sliceRows (start, start + layout.localMiniBatchSize) permutation) rows)
    layout.permutations ranks

def minibatches (ranks : List (List α)) : List (List (List α)) :=
  (chunkStarts layout.rowsPerRank layout.localMiniBatchSize).map
    (layout.minibatchShards ranks)

theorem length_minibatchShards (hranks : ranks.length = layout.worldSize)
    (start : ℕ) :
    (layout.minibatchShards ranks start).length = layout.worldSize := by
  rw [minibatchShards, length_zipWith, hranks]
  exact Nat.min_self _

theorem selectRows_map (f : α → β) (indices : List ℕ) (rows : List α) :
    selectRows indices (rows.map f) = (selectRows indices rows).map f := by
  unfold selectRows
  rw [map_filterMap]
  congr 1
  funext index
  exact getElem?_map ..

theorem minibatches_map (f : α → β) (ranks : List (List α)) :
    layout.minibatches (ranks.map (List.map f)) =
      (layout.minibatches ranks).map (List.map (List.map f)) := by
  unfold minibatches
  rw [map_map]
  apply map_congr_left
  intro start _
  rw [Function.comp_apply, minibatchShards, minibatchShards,
    zipWith_map_right, map_zipWith]
  congr 1
  funext permutation rows
  exact selectRows_map f _ rows

theorem mem_of_mem_selectRows (hrow : row ∈ selectRows indices rows) :
    row ∈ rows := by
  obtain ⟨index, _, hget⟩ := mem_filterMap.mp hrow
  exact mem_of_getElem? hget

theorem mem_of_mem_minibatches {ranks shards : List (List α)} {row : α}
    (hshards : shards ∈ layout.minibatches ranks)
    (hrow : row ∈ shards.flatten) : ∃ rows ∈ ranks, row ∈ rows := by
  obtain ⟨start, _, rfl⟩ := mem_map.mp hshards
  obtain ⟨shard, hshard, hrow⟩ := mem_flatten.mp hrow
  rw [minibatchShards, ← map_uncurry_zip_eq_zipWith] at hshard
  obtain ⟨⟨permutation, rows⟩, hpair, rfl⟩ := mem_map.mp hshard
  exact ⟨rows, (of_mem_zip hpair).2, mem_of_mem_selectRows hrow⟩

end EpochLayout

section Update

variable {K : Type} [Field K] [LinearOrder K]

/-- What the ranks report of a minibatch, averaged over them. -/
structure MinibatchLoss (K : Type) where
  policyLoss : K
  preStepKl : K
  deriving DecidableEq

def distributedGradientMeanDenominator (localWeights : List (List K)) : K :=
  (localWeights.map List.sum).sum / localWeights.length

variable (exp : K → K) (config : PolicyConfig K)

def addMicroBatch (normalization : K) (sums : K × K)
    (microBatch : List config.Row) : Except String (K × K) := do
  let result ← computeClippedPolicyLoss exp config microBatch
    (some fun row => row.weight) (some normalization)
  return (sums.1 + result.loss, sums.2 + result.approxKl)

def accumulateMicroBatches (normalization : K)
    (microBatches : List (List config.Row)) : Except String (K × K) :=
  microBatches.foldlM (addMicroBatch exp config normalization) (0, 0)

/-- One minibatch, with the mean over the ranks that averaged gradients and the
all-reduce compute. -/
def updateMinibatch (microBatchSize : ℕ) (shards : List (List config.Row)) :
    Except String (MinibatchLoss K) := do
  let normalization := distributedGradientMeanDenominator
    (shards.map fun rows => rows.map fun row => row.weight)
  require (0 < normalization)
    "GRPO trajectory-balanced loss has no finite positive weight."
  let sums ← shards.mapM fun rows =>
    accumulateMicroBatches exp config normalization
      (splitRows microBatchSize rows)
  return {
    policyLoss := (sums.map Prod.fst).sum / shards.length
    preStepKl := (sums.map Prod.snd).sum / shards.length }

def updateEpoch (layout : EpochLayout) (ranks : List (List config.Row)) :
    Except String (List (MinibatchLoss K)) :=
  (layout.minibatches ranks).mapM
    (updateMinibatch exp config layout.microBatchSize)

def globalLoss (rows : List config.Row) : MinibatchLoss K :=
  let total := (rows.map fun row => row.weight).sum
  { policyLoss := weightedSum (config.surrogate exp) rows / total
    preStepKl := weightedSum (config.klTerm exp) rows / total }

end Update

/-! ## The reports of a minibatch -/

section Sums

variable {K : Type} [Field K]

theorem weightedSum_append {L : Type} (term : SurrogateRow K L → K)
    (left right : List (SurrogateRow K L)) :
    weightedSum term (left ++ right) =
      weightedSum term left + weightedSum term right := by
  rw [weightedSum, map_append, sum_append]
  rfl

theorem weightedSum_flatten {L : Type} (term : SurrogateRow K L → K)
    (parts : List (List (SurrogateRow K L))) :
    (parts.map (weightedSum term)).sum = weightedSum term parts.flatten := by
  induction parts with
  | nil => rfl
  | cons part parts ih =>
    rw [map_cons, sum_cons, ih, flatten_cons, weightedSum_append]

theorem sum_map_div {α : Type} (items : List α) (f : α → K) (total : K) :
    (items.map fun item => f item / total).sum =
      (items.map f).sum / total := by
  simp only [div_eq_mul_inv, sum_map_mul_right]

/-- The rows of a minibatch that fill slots with one advantage and log
ratio. -/
theorem weightedSum_const {L : Type} {term : SurrogateRow K L → K}
    {advantage value : K} {logRatio : L} (slots : List (ChunkSlot K))
    (hterm : ∀ slot, term ⟨slot, advantage, logRatio⟩ = value) :
    weightedSum term (slots.map fun slot => ⟨slot, advantage, logRatio⟩) =
      (slots.map fun slot => slot.weight * slot.validity).sum * value := by
  rw [weightedSum, map_map, ← sum_map_mul_right]
  apply congrArg List.sum
  apply map_congr_left
  intro slot _
  rw [Function.comp_apply, hterm]

def totalWeight (slots : List (ChunkSlot K)) : K :=
  (slots.map ChunkSlot.weight).sum

theorem totalWeight_map {L : Type} (rows : List (SurrogateRow K L)) :
    totalWeight (rows.map SurrogateRow.toChunkSlot) =
      (rows.map fun row => row.weight).sum := by
  rw [totalWeight, map_map]
  rfl

theorem weightedSum_eq_zero {L : Type} {term : SurrogateRow K L → K}
    {rows : List (SurrogateRow K L)}
    (hrows : ∀ slot ∈ rows.map SurrogateRow.toChunkSlot,
      slot.weight * slot.validity = 0) : weightedSum term rows = 0 := by
  apply sum_eq_zero
  intro value hvalue
  obtain ⟨row, hrow, rfl⟩ := mem_map.mp hvalue
  rw [hrows _ (mem_map_of_mem hrow), zero_mul]

end Sums

section Reports

variable {K : Type} [Field K] [LinearOrder K] {exp : K → K}
  {config : PolicyConfig K}

theorem addMicroBatch_eq (normalization : K) (sums : K × K)
    (microBatch : List config.Row) :
    addMicroBatch exp config normalization sums microBatch =
      .ok (sums.1 + weightedSum (config.surrogate exp) microBatch /
          max normalization 1,
        sums.2 + weightedSum (config.klTerm exp) microBatch /
          max normalization 1) := by
  obtain ⟨result, hresult, hloss, hkl⟩ :=
    computeClippedPolicyLoss_eq exp config microBatch
      (some fun row => row.weight) (some normalization)
  change result.loss = weightedSum (config.surrogate exp) microBatch /
    max normalization 1 at hloss
  change result.approxKl = weightedSum (config.klTerm exp) microBatch /
    max normalization 1 at hkl
  rw [addMicroBatch, hresult, ← hloss, ← hkl]
  rfl

theorem accumulateMicroBatches_eq (normalization : K)
    (microBatches : List (List config.Row)) :
    accumulateMicroBatches exp config normalization microBatches =
      .ok (weightedSum (config.surrogate exp) microBatches.flatten /
          max normalization 1,
        weightedSum (config.klTerm exp) microBatches.flatten /
          max normalization 1) := by
  unfold accumulateMicroBatches
  induction microBatches using reverseRecOn with
  | nil =>
    simp [weightedSum, pure, Except.pure]
  | append_singleton before microBatch ih =>
    rw [foldlM_append, ih, flatten_append, flatten_singleton,
      weightedSum_append, weightedSum_append, add_div, add_div]
    change addMicroBatch exp config normalization _ microBatch >>= pure = _
    rw [addMicroBatch_eq]
    rfl

/-- The ranks average the sum over all rows, divided by their share of the
weight or by one. -/
theorem updateMinibatch_eq (exp : K → K) (config : PolicyConfig K)
    (hmicro : 0 < microBatchSize) {shards : List (List config.Row)}
    (hshare : (shards.flatten.map fun row => row.weight).sum /
      (shards.length : K) = share) (hpositive : 0 < share) :
    updateMinibatch exp config microBatchSize shards = .ok {
      policyLoss := weightedSum (config.surrogate exp) shards.flatten /
        max share 1 / shards.length
      preStepKl := weightedSum (config.klTerm exp) shards.flatten /
        max share 1 / shards.length } := by
  have hnormalization : distributedGradientMeanDenominator
      (shards.map fun rows => rows.map fun row => row.weight) = share := by
    rw [← hshare, distributedGradientMeanDenominator, length_map,
      map_flatten, sum_flatten]
  have hranks : (shards.mapM fun rows => accumulateMicroBatches exp config
      share (splitRows microBatchSize rows)) = .ok (shards.map fun rows =>
          (weightedSum (config.surrogate exp) rows / max share 1,
            weightedSum (config.klTerm exp) rows / max share 1)) := by
    apply mapM_eq_ok_map
    intro rows _
    rw [accumulateMicroBatches_eq, flatten_splitRows hmicro]
  unfold updateMinibatch
  simp only [hnormalization, require_of hpositive, hranks]
  change Except.ok _ = _
  rw [map_map, map_map]
  simp only [Function.comp_def, sum_map_div, weightedSum_flatten]

end Reports

/-! ## Where the layout does not matter -/

section Layouts

variable {K : Type} [Field K] [LinearOrder K] [IsStrictOrderedRing K]

theorem mean_of_share_eq_iff {sum total size : K} (htotal : 0 < total)
    (hsize : 0 < size) :
    sum / max (total / size) 1 / size = sum / total ↔
      sum = 0 ∨ size ≤ total := by
  constructor
  · intro hmean
    by_cases hsum : sum = 0
    · exact .inl hsum
    · right
      by_contra hless
      have hshare : total / size ≤ 1 :=
        ((div_lt_one hsize).mpr (not_le.mp hless)).le
      rw [max_eq_right hshare, div_one,
        div_eq_div_iff hsize.ne' htotal.ne'] at hmean
      exact hless (mul_left_cancel₀ hsum hmean).ge
  · rintro (rfl | hle)
    · simp
    · have hshare : 1 ≤ total / size := (one_le_div hsize).mpr hle
      rw [max_eq_left hshare, div_div, div_mul_cancel₀ total hsize.ne']

theorem clampTo_pos (ratio : K) (hclip : 0 < clipCoef) (hone : clipCoef < 1) :
    0 < clampTo ratio (1 - clipCoef) (1 + clipCoef) := by
  have hlow : 0 < 1 - clipCoef := sub_pos.mpr hone
  have hhigh : 0 < 1 + clipCoef := add_pos one_pos hclip
  exact lt_min (lt_max_of_lt_right hlow) hhigh

theorem ppoLoss_neg_one_pos (ratio : K) (hclip : 0 < clipCoef)
    (hone : clipCoef < 1) : 0 < ppoLoss (-1) ratio clipCoef := by
  have hclamp := clampTo_pos ratio hclip hone
  rw [ppoLoss, neg_neg, one_mul, one_mul]
  exact lt_max_of_lt_right hclamp

theorem ppoLoss_one_ne_zero {ratio clipCoef : K} (hclip : 0 < clipCoef)
    (hone : clipCoef < 1) (hratio : ratio ≠ 0) :
    ppoLoss 1 ratio clipCoef ≠ 0 := by
  have hclamp : clampTo ratio (1 - clipCoef) (1 + clipCoef) ≠ 0 :=
    (clampTo_pos ratio hclip hone).ne'
  rw [ppoLoss, neg_one_mul, neg_one_mul]
  rcases max_choice (-ratio)
    (-clampTo ratio (1 - clipCoef) (1 + clipCoef)) with hmax | hmax
  · rw [hmax]
    exact neg_ne_zero.mpr hratio
  · rw [hmax]
    exact neg_ne_zero.mpr hclamp

theorem exists_element_ne_zero (mode : TrustRegionMode)
    {clipCoef spoClipCoef : K} (hclip : 0 < clipCoef) (hone : clipCoef < 1)
    (hspo : 0 < spoClipCoef) (ratio : K) :
    ∃ advantage, fpoPlusPlusElement mode clipCoef spoClipCoef advantage ratio ≠
      0 := by
  cases mode with
  | ppo => exact ⟨-1, (ppoLoss_neg_one_pos ratio hclip hone).ne'⟩
  | aspo =>
    by_cases hratio : ratio = 0
    · refine ⟨-1, ?_⟩
      have hnegative : ¬(0 : K) < -1 := by
        rw [not_lt]
        exact neg_nonpos.mpr zero_le_one
      have helement : fpoPlusPlusElement .aspo clipCoef spoClipCoef (-1)
          ratio = 1 / (2 * spoClipCoef) := by
        rw [fpoPlusPlusElement, if_neg hnegative, hratio, abs_neg, abs_one]
        ring
      rw [helement]
      exact (one_div_pos.mpr (mul_pos two_pos hspo)).ne'
    · refine ⟨1, ?_⟩
      rw [fpoPlusPlusElement, if_pos one_pos]
      exact ppoLoss_one_ne_zero hclip hone hratio

/-- Some advantage and log ratios give every chunk the same surrogate, which
is not zero. -/
theorem exists_surrogate_ne_zero (exp : K → K) (config : PolicyConfig K) :
    ∃ advantage logRatio, ∃ value ≠ 0, ∀ slot,
      config.surrogate exp ⟨slot, advantage, logRatio⟩ = value := by
  obtain ⟨variant, samples, clipCoef, spoClipCoef, hsamples, hclip, hone,
    hspo⟩ := config
  have hppo := ppoLoss_neg_one_pos (exp 0) hclip hone
  cases variant with
  | vanilla =>
    exact ⟨-1, (0 : K), _, hppo.ne', fun _ => rfl⟩
  | fpoPlusPlus mode =>
    obtain ⟨advantage, hne⟩ := exists_element_ne_zero mode hclip hone hspo
      (exp 0)
    refine ⟨advantage, fun _ => (0 : K), _, hne, ?_⟩
    intro slot
    exact mean_const hsamples (fpoPlusPlusElement mode clipCoef spoClipCoef
      advantage (exp 0))
  | flowGrpo =>
    refine ⟨-1, fun _ => (0 : K), _, hppo.ne', ?_⟩
    intro slot
    exact mean_const hsamples (ppoLoss (-1) (exp 0) clipCoef)

theorem sum_validity_eq_zero {slots : List (ChunkSlot K)}
    (hweights : ∀ slot ∈ slots, 0 ≤ slot.weight)
    (hsum : (slots.map fun slot => slot.weight * slot.validity).sum = 0) :
    ∀ slot ∈ slots, slot.weight * slot.validity = 0 := by
  have hnonneg : ∀ term ∈ slots.map fun slot => slot.weight * slot.validity,
      0 ≤ term := by
    intro term hterm
    obtain ⟨slot, hslot, rfl⟩ := mem_map.mp hterm
    apply mul_nonneg (hweights slot hslot)
    unfold ChunkSlot.validity
    split_ifs
    · exact zero_le_one
    · exact le_refl 0
  intro slot hslot
  exact all_zero_of_le_zero_le_of_sum_eq_zero hnonneg hsum
    (mem_map_of_mem hslot)

theorem updateMinibatch_eq_global_iff (exp : K → K) (config : PolicyConfig K)
    {microBatchSize : ℕ} (hmicro : 0 < microBatchSize)
    {shards : List (List config.Row)} (hsize : 0 < shards.length)
    {total : K} (htotal : (shards.flatten.map fun row => row.weight).sum =
      total) (hpositive : 0 < total) :
    updateMinibatch exp config microBatchSize shards =
        .ok (globalLoss exp config shards.flatten) ↔
      (weightedSum (config.surrogate exp) shards.flatten = 0 ∨
        (shards.length : K) ≤ total) ∧
      (weightedSum (config.klTerm exp) shards.flatten = 0 ∨
        (shards.length : K) ≤ total) := by
  have hranks : (0 : K) < shards.length := Nat.cast_pos.mpr hsize
  have hshare : 0 < total / (shards.length : K) := div_pos hpositive hranks
  have hrun := updateMinibatch_eq exp config hmicro
    (congrArg (· / (shards.length : K)) htotal) hshare
  rw [hrun, globalLoss, Except.ok.injEq, MinibatchLoss.mk.injEq, htotal,
    mean_of_share_eq_iff hpositive hranks,
    mean_of_share_eq_iff hpositive hranks]

theorem updateMinibatch_of_slots (exp : K → K) (config : PolicyConfig K)
    (layout : EpochLayout) {slots : List (List (ChunkSlot K))}
    (hranks : slots.length = layout.worldSize)
    (hpositive : ∀ shards ∈ layout.minibatches slots,
      0 < totalWeight shards.flatten) {ranks : List (List config.Row)}
    (hslots : ranks.map (List.map SurrogateRow.toChunkSlot) = slots)
    {shards : List (List config.Row)}
    (hshards : shards ∈ layout.minibatches ranks) :
    updateMinibatch exp config layout.microBatchSize shards =
        .ok (globalLoss exp config shards.flatten) ↔
      (weightedSum (config.surrogate exp) shards.flatten = 0 ∨
        (layout.worldSize : K) ≤
          totalWeight (shards.flatten.map SurrogateRow.toChunkSlot)) ∧
      (weightedSum (config.klTerm exp) shards.flatten = 0 ∨
        (layout.worldSize : K) ≤
          totalWeight (shards.flatten.map SurrogateRow.toChunkSlot)) := by
  have hmember : shards.map (List.map SurrogateRow.toChunkSlot) ∈
      layout.minibatches slots := by
    rw [← hslots, layout.minibatches_map]
    exact mem_map_of_mem hshards
  have hlength : shards.length = layout.worldSize := by
    obtain ⟨start, _, rfl⟩ := mem_map.mp hshards
    apply layout.length_minibatchShards
    rw [← hranks, ← hslots, length_map]
  have hweight := hpositive _ hmember
  rw [← map_flatten] at hweight
  have hworld : 0 < shards.length := by
    rw [hlength]
    exact length_pos_iff.mpr layout.ranks_pos
  rw [← hlength]
  exact updateMinibatch_eq_global_iff exp config layout.micro_pos hworld
    (totalWeight_map _).symm hweight

/-- For every advantage and log ratio, the loss and the divergence of every
minibatch are the weighted means over its rows, exactly where the weight of the
minibatch is at least the number of ranks or no row of it counts. -/
theorem loss_ignores_layout_iff (exp : K → K) (config : PolicyConfig K)
    (layout : EpochLayout) (slots : List (List (ChunkSlot K)))
    (hranks : slots.length = layout.worldSize)
    (hweights : ∀ rows ∈ slots, ∀ slot ∈ rows, 0 ≤ slot.weight)
    (hpositive : ∀ shards ∈ layout.minibatches slots,
      0 < totalWeight shards.flatten) :
    (∀ ranks : List (List config.Row),
      ranks.map (List.map SurrogateRow.toChunkSlot) = slots →
        updateEpoch exp config layout ranks =
          .ok ((layout.minibatches ranks).map fun shards =>
            globalLoss exp config shards.flatten)) ↔
      ∀ shards ∈ layout.minibatches slots,
        (layout.worldSize : K) ≤ totalWeight shards.flatten ∨
          ∀ slot ∈ shards.flatten, slot.weight * slot.validity = 0 := by
  constructor
  · intro hall shards hshards
    obtain ⟨advantage, logRatio, value, hvalue, hconst⟩ :=
      exists_surrogate_ne_zero exp config
    let fill := fun slot : ChunkSlot K =>
      (⟨slot, advantage, logRatio⟩ : config.Row)
    have hsame : (slots.map (List.map fill)).map
        (List.map SurrogateRow.toChunkSlot) = slots := by
      rw [map_map, map_comp_map]
      exact (map_congr_left fun rows _ => map_id rows).trans
        (map_id slots)
    have hfilled : shards.map (List.map fill) ∈
        layout.minibatches (slots.map (List.map fill)) := by
      rw [layout.minibatches_map]
      exact mem_map_of_mem hshards
    have hreported := mapM_eq_ok_map_iff.mp (hall _ hsame) _ hfilled
    have hsum := ((updateMinibatch_of_slots exp config layout hranks hpositive
      hsame hfilled).mp hreported).1
    have hback : (shards.flatten.map fill).map SurrogateRow.toChunkSlot =
        shards.flatten := by
      rw [map_map]
      exact map_id _
    rw [← map_flatten, hback, weightedSum_const _ hconst] at hsum
    rcases hsum with hzero | hle
    · right
      apply sum_validity_eq_zero
      · intro slot hslot
        obtain ⟨rows, hrows, hmember⟩ :=
          layout.mem_of_mem_minibatches hshards hslot
        exact hweights rows hrows slot hmember
      · exact (mul_eq_zero.mp hzero).resolve_right hvalue
    · exact .inl hle
  · intro hcondition ranks hslots
    apply mapM_eq_ok_map_iff.mpr
    intro shards hshards
    apply (updateMinibatch_of_slots exp config layout hranks hpositive hslots
      hshards).mpr
    have hmember : shards.map (List.map SurrogateRow.toChunkSlot) ∈
        layout.minibatches slots := by
      rw [← hslots, layout.minibatches_map]
      exact mem_map_of_mem hshards
    have hcases := hcondition _ hmember
    rw [← map_flatten] at hcases
    rcases hcases with hle | hzero
    · exact ⟨.inr hle, .inr hle⟩
    · exact ⟨.inl (weightedSum_eq_zero hzero),
        .inl (weightedSum_eq_zero hzero)⟩

end Layouts

section Scaling

variable {K : Type} [Field K]

end Scaling

/-! ## One chunk on two ranks -/

/-- Vanilla FPO over the rationals, with two samples of each chunk. -/
def vanillaConfig : PolicyConfig ℚ where
  variant := .vanilla
  samples := 2
  clipCoef := 1 / 5
  spoClipCoef := 1 / 100
  samples_pos := by decide
  clip_pos := by norm_num
  clip_lt_one := by decide +kernel
  spo_pos := by norm_num

def wholeEpoch (worldSize rowsPerRank : ℕ) (hworld : 0 < worldSize)
    (hrows : 0 < rowsPerRank) : EpochLayout where
  rowsPerRank := rowsPerRank
  permutations := replicate worldSize (range rowsPerRank)
  localMiniBatchSize := rowsPerRank
  microBatchSize := 1
  permuted := by
    intro permutation hpermutation
    rw [(mem_replicate.mp hpermutation).2]
  ranks_pos := by
    intro hempty
    rw [replicate_eq_nil_iff] at hempty
    omega
  local_pos := hrows
  micro_pos := Nat.one_pos

/-- Two ranks whose rows together weigh more than the world size. -/
theorem loss_ignores_layout_on_two_ranks :
    (∀ ranks : List (List vanillaConfig.Row),
      ranks.map (List.map SurrogateRow.toChunkSlot) =
        [[⟨true, 3 / 2⟩], [⟨true, 1⟩]] →
      updateEpoch (1 + ·) vanillaConfig
          (wholeEpoch 2 1 (by decide) (by decide)) ranks =
        .ok (((wholeEpoch 2 1 (by decide) (by decide)).minibatches ranks).map
          fun shards => globalLoss (1 + ·) vanillaConfig shards.flatten)) ∧
      ∀ shards ∈ (wholeEpoch 2 1 (by decide) (by decide)).minibatches
        [[(⟨true, 3 / 2⟩ : ChunkSlot ℚ)], [⟨true, 1⟩]],
        0 < totalWeight shards.flatten := by
  have hpositive : ∀ shards ∈
      (wholeEpoch 2 1 (by decide) (by decide)).minibatches
        [[(⟨true, 3 / 2⟩ : ChunkSlot ℚ)], [⟨true, 1⟩]],
      0 < totalWeight shards.flatten := by decide +kernel
  refine ⟨(loss_ignores_layout_iff (1 + ·) vanillaConfig
    (wholeEpoch 2 1 (by decide) (by decide))
    [[⟨true, 3 / 2⟩], [⟨true, 1⟩]] rfl ?_ hpositive).mpr ?_, hpositive⟩
  · decide +kernel
  · decide +kernel

def losingChunk : vanillaConfig.Row where
  valid := true
  weight := 1
  advantage := -1
  logRatio := (0 : ℚ)

def dummyChunk : vanillaConfig.Row where
  valid := false
  weight := 0
  advantage := 0
  logRatio := (0 : ℚ)

/-- One chunk of weight one has half the loss where a dummy fills another
rank. -/
theorem loss_halves_on_two_ranks :
    updateEpoch (1 + ·) vanillaConfig (wholeEpoch 1 1 (by decide) (by decide))
        [[losingChunk]] = .ok [⟨1, 0⟩] ∧
      updateEpoch (1 + ·) vanillaConfig
          (wholeEpoch 2 1 (by decide) (by decide))
          [[losingChunk], [dummyChunk]] = .ok [⟨1 / 2, 0⟩] ∧
      updateEpoch (1 + ·) vanillaConfig
          (wholeEpoch 2 1 (by decide) (by decide))
          [[losingChunk], [dummyChunk]] ≠
        .ok [globalLoss (1 + ·) vanillaConfig [losingChunk, dummyChunk]] := by
  decide +kernel

end VerlVla
