import Mathlib.LinearAlgebra.Pi
import Mathlib.Tactic.Linarith
import Mathlib.Tactic.Positivity
import VerlVla.FpoUpdate
import VerlVla.PartMeans

/-!
# Micro-batches of an update with a critic and of supervised training

The loss of a micro-batch is a mean over its own rows, and the gradient of that
mean divided by the number of micro-batches is accumulated.  Networks and
differentiation at the current parameters are parameters.
-/

namespace VerlVla

open List hiding cons countP_true nil

open EpochLayout (selectRows)
open PartMeans (Even maskedMean meanOfMeans onPart)

/-! ## An update with a critic -/

structure CriticChunk (K X : Type) extends FpoChunk K X where
  returns : K

def CriticChunk.mask {K X : Type} (row : CriticChunk K X) : Bool := row.valid

local instance two_large : Nat.AtLeastTwo 2 := ⟨le_rfl⟩

section Critic

variable {K Θ G X : Type} [Field K] [LinearOrder K] [AddCommGroup G]
  [Module K G]

/-- Log ratios and values at the parameters of actor and value, and the
normalization that all ranks use for the advantages of a minibatch. -/
structure CriticNetwork (policy : PolicyConfig K) (Θ G X : Type)
    [AddCommGroup G] [Module K G] where
  logRatio : Θ → X → policy.variant.LogRatio K policy.samples
  value : Θ → X → K
  globalNormalize : List (CriticChunk K X) → K → K
  gradient : (Θ → K) →ₗ[K] G

namespace CriticNetwork

variable {schedule : FpoSchedule K}
  (network : CriticNetwork schedule.config.policy Θ G X) (exp : K → K)

def surrogateRow (parameters : Θ) (chunk : CriticChunk K X) :
    schedule.config.policy.Row :=
  { toChunkSlot := chunk.toChunkSlot
    advantage := chunk.advantage
    logRatio := network.logRatio parameters chunk.contents }

def valueLoss (parameters : Θ) (rows : List (CriticChunk K X)) : K :=
  1 / 2 * (rows.map fun row =>
    (network.value parameters row.contents - row.returns) ^ 2 *
      row.validity).sum / max (rows.map fun row => row.validity).sum 1

/-- No error occurs, since the policy's coefficients were checked. -/
def policyLoss (parameters : Θ) (rows : List (CriticChunk K X)) : K :=
  if schedule.valueOnly then 0
  else
    match computeClippedPolicyLoss exp schedule.config.policy
        (rows.map (network.surrogateRow parameters)) none none with
    | .ok result => result.loss
    | .error _ => 0

def loss (parameters : Θ) (rows : List (CriticChunk K X)) : K :=
  network.policyLoss exp parameters rows +
    schedule.config.vfCoef * network.valueLoss parameters rows

def accumulateGradients (microBatches : List (List (CriticChunk K X))) : G :=
  microBatches.foldl (fun total rows =>
    total + network.gradient fun parameters =>
      network.loss exp parameters rows / microBatches.length) 0

def normalizeRows (rows : List (CriticChunk K X)) : List (CriticChunk K X) :=
  if schedule.config.normalizeAdvantages then
    rows.map fun row =>
      { row with advantage := network.globalNormalize rows row.advantage }
  else rows

def minibatchGradient (rows : List (CriticChunk K X)) : G :=
  network.accumulateGradients exp
    (splitRows schedule.config.microBatchSize (network.normalizeRows rows))

def wholeGradient (rows : List (CriticChunk K X)) : G :=
  network.accumulateGradients exp [network.normalizeRows rows]

end CriticNetwork

def FpoSchedule.minibatch {α : Type} (schedule : FpoSchedule K)
    (permutation : List ℕ) (rows : List α) (start : ℕ) : List α :=
  selectRows (sliceRows
    (start, start + schedule.localMiniBatchSize rows.length) permutation) rows

def FpoSchedule.minibatchStarts (schedule : FpoSchedule K) (size : ℕ) :
    List ℕ :=
  chunkStarts size (schedule.localMiniBatchSize size)

/-- Every row of the minibatches has the weight it has in one micro-batch,
whatever the networks and the rows are. -/
def KeepsCriticGradients (schedule : FpoSchedule K) (exp : K → K)
    (permutation : List ℕ) (valids : List Bool) : Prop :=
  ∀ (Θ G X : Type) [AddCommGroup G] [Module K G]
    (network : CriticNetwork schedule.config.policy Θ G X)
    (rows : List (CriticChunk K X)), rows.map CriticChunk.mask = valids →
      ∀ start ∈ schedule.minibatchStarts rows.length,
        network.minibatchGradient exp
            (schedule.minibatch permutation rows start) =
          network.wholeGradient exp (schedule.minibatch permutation rows start)

end Critic

/-! ## Supervised training -/

structure AcpConfig (K : Type) where
  enable : Bool
  indicatorDropoutProb : K
  positiveTag : String
  negativeTag : String

structure SftActorConfig (K : Type) where
  acp : AcpConfig K
  miniBatchSize : ℕ
  microBatchSize : Option ℕ

namespace SftActorConfig

variable {K : Type}

def postInit (config : SftActorConfig K) : Except String Unit := do
  require (0 < config.miniBatchSize)
    s!"mini_batch_size must be positive, got {config.miniBatchSize}"
  config.microBatchSize.forM fun size => require (0 < size)
    s!"micro_batch_size must be positive when provided, got {size}"

def microSize (config : SftActorConfig K) : ℕ :=
  config.microBatchSize.getD config.miniBatchSize

theorem accepted {config : SftActorConfig K}
    (haccepted : config.postInit = .ok ()) :
    0 < config.miniBatchSize ∧ 0 < config.microSize := by
  obtain ⟨acp, mini, micro⟩ := config
  rw [postInit, require_bind_eq_ok] at haccepted
  obtain ⟨hmini, hmicro⟩ := haccepted
  cases micro with
  | none => exact ⟨hmini, hmini⟩
  | some size => exact ⟨hmini, require_eq_ok.mp hmicro⟩

end SftActorConfig

/-- A row with the draw that decides whether its prompt keeps its text. -/
structure SftRow (K X : Type) where
  indicator : ℤ
  task : String
  draw : K
  contents : X

section Sft

variable {K Θ G X : Type} [Field K] [LinearOrder K] [AddCommGroup G]
  [Module K G]

def applyAcpPromptTags (acp : AcpConfig K) (microBatch : List (SftRow K X)) :
    List (SftRow K X) :=
  if acp.enable then
    microBatch.map fun row =>
      if row.draw < acp.indicatorDropoutProb then row
      else
        let tag := if 0 < row.indicator then acp.positiveTag
          else acp.negativeTag
        { row with task := s!"{row.task}\n{tag}" }
  else microBatch

/-- The loss of the model is the mean of the losses of the rows it is given. -/
structure SftNetwork (K Θ G X : Type) [Field K] [AddCommGroup G]
    [Module K G] where
  rowLoss : Θ → SftRow K X → K
  gradient : (Θ → K) →ₗ[K] G

namespace SftNetwork

variable (network : SftNetwork K Θ G X) (config : SftActorConfig K)

def sftLoss (parameters : Θ) (rows : List (SftRow K X)) : K :=
  (rows.map (network.rowLoss parameters)).sum / rows.length

def accumulateGradients (microBatches : List (List (SftRow K X))) : G :=
  microBatches.foldl (fun total rows =>
    total + network.gradient fun parameters =>
      network.sftLoss parameters (applyAcpPromptTags config.acp rows) /
        microBatches.length) 0

def splitMicroBatches {α : Type} (data : List α) : List (List (List α)) :=
  (splitRows config.miniBatchSize data).map (splitRows config.microSize)

/-- The gradient when the optimizer steps. -/
def updateSftPolicy (data : List (SftRow K X)) : G :=
  network.accumulateGradients config (splitMicroBatches config data).flatten

def wholeGradient (data : List (SftRow K X)) : G :=
  network.accumulateGradients config [data]

end SftNetwork

/-- Every row of the batch has the weight it has in one micro-batch, whatever
the network and the rows are. -/
def KeepsSftGradients (config : SftActorConfig K) (size : ℕ) : Prop :=
  ∀ (Θ G X : Type) [AddCommGroup G] [Module K G]
    (network : SftNetwork K Θ G X) (data : List (SftRow K X)),
      data.length = size →
        network.updateSftPolicy config data = network.wholeGradient config data

end Sft

/-! ## Gradients as means of means -/

section Gradients

variable {K Θ G : Type} [Field K] [AddCommGroup G] [Module K G]

theorem foldl_gradient {α : Type} (gradient : (Θ → K) →ₗ[K] G)
    (objective : α → Θ → K) (items : List α) (total : G) :
    items.foldl (fun total item => total + gradient (objective item)) total =
      total + gradient fun parameters =>
        (items.map fun item => objective item parameters).sum := by
  induction items generalizing total with
  | nil =>
    have hzero : gradient (fun _ : Θ => (0 : K)) = 0 := map_zero gradient
    exact ((congrArg (total + ·) hzero).trans (add_zero total)).symm
  | cons item items ih =>
    rw [foldl_cons, ih, add_assoc, ← map_add]
    rfl

/-- The difference of two values, which is linear and zero on constants. -/
def difference (K : Type) [Field K] : (Bool → K) →ₗ[K] K :=
  (LinearMap.proj true : (Bool → K) →ₗ[K] K) - LinearMap.proj false

variable [LinearOrder K]

theorem foldl_gradient_means {ι : Type} (gradient : (Θ → K) →ₗ[K] G)
    (valid : ι → Bool) (objective : Θ → ι → K) (loss : Θ → List ι → K)
    (hloss : ∀ parameters rows, loss parameters rows =
      maskedMean valid (objective parameters) rows) (parts : List (List ι)) :
    parts.foldl (fun total rows => total + gradient fun parameters =>
        loss parameters rows / parts.length) 0 =
      gradient fun parameters =>
        meanOfMeans valid (objective parameters) parts := by
  rw [foldl_gradient gradient
    (fun rows parameters => loss parameters rows / parts.length), zero_add]
  congr 1
  funext parameters
  simp only [hloss, div_eq_mul_inv, sum_map_mul_right, meanOfMeans]

theorem difference_meanOfMeans {ι : Type} (valid : ι → Bool)
    (objective : Bool → ι → K) (parts : List (List ι)) :
    difference K (fun parameters =>
        meanOfMeans valid (objective parameters) parts) =
      meanOfMeans valid (objective true - objective false) parts :=
  PartMeans.meanOfMeans_sub valid (objective true) (objective false) parts

end Gradients

/-! ## The critic's minibatch -/

section CriticMeans

variable {K Θ G X : Type} [Field K]

theorem CriticChunk.validity_eq (row : CriticChunk K X) :
    row.validity = if row.mask then 1 else 0 := rfl

theorem sum_validity (rows : List (CriticChunk K X)) :
    (rows.map fun row => row.validity).sum =
      (rows.countP CriticChunk.mask : K) := by
  induction rows with
  | nil => simp
  | cons row rows ih =>
    rw [map_cons, sum_cons, ih]
    by_cases hvalid : row.mask = true
    · rw [countP_cons_of_pos hvalid, row.validity_eq, if_pos hvalid]
      push_cast
      ring
    · rw [countP_cons_of_neg hvalid, row.validity_eq, if_neg hvalid, zero_add]

theorem sum_validity_mul (f : CriticChunk K X → K)
    (rows : List (CriticChunk K X)) :
    (rows.map fun row => row.validity * f row).sum =
      PartMeans.maskedSum CriticChunk.mask f rows := by
  unfold PartMeans.maskedSum
  apply congrArg List.sum
  apply map_congr_left
  intro row _
  by_cases hvalid : row.mask = true
  · rw [if_pos hvalid, row.validity_eq, if_pos hvalid, one_mul]
  · rw [if_neg hvalid, row.validity_eq, if_neg hvalid, zero_mul]

variable [LinearOrder K] [AddCommGroup G] [Module K G]

namespace CriticNetwork

variable {schedule : FpoSchedule K}
  (network : CriticNetwork schedule.config.policy Θ G X) (exp : K → K)

def policyTerm (parameters : Θ) (row : CriticChunk K X) : K :=
  if schedule.valueOnly then 0
  else schedule.config.policy.surrogate exp
    (network.surrogateRow parameters row)

def rowLoss (parameters : Θ) (row : CriticChunk K X) : K :=
  network.policyTerm exp parameters row + schedule.config.vfCoef *
    (1 / 2 * (network.value parameters row.contents - row.returns) ^ 2)

theorem policyLoss_eq (parameters : Θ) (rows : List (CriticChunk K X)) :
    network.policyLoss exp parameters rows =
      (rows.map fun row => row.validity *
        network.policyTerm exp parameters row).sum /
          max (rows.map fun row => row.validity).sum 1 := by
  by_cases honly : schedule.valueOnly = true
  · simp [policyLoss, policyTerm, honly]
  · obtain ⟨result, hresult, hloss, _⟩ := computeClippedPolicyLoss_eq exp
      schedule.config.policy (rows.map (network.surrogateRow parameters))
      none none
    rw [policyLoss, if_neg honly, hresult]
    simp only [policyTerm, if_neg honly]
    rw [hloss, lossDenominator, map_map, map_map]
    rfl

theorem loss_eq (parameters : Θ) (rows : List (CriticChunk K X)) :
    network.loss exp parameters rows = maskedMean CriticChunk.mask
      (network.rowLoss exp parameters) rows := by
  have hterms : (fun row : CriticChunk K X => row.validity *
      network.rowLoss exp parameters row) = fun row =>
        row.validity * network.policyTerm exp parameters row +
          schedule.config.vfCoef * (1 / 2) *
            ((network.value parameters row.contents - row.returns) ^ 2 *
              row.validity) := by
    funext row
    rw [rowLoss]
    ring
  rw [maskedMean, ← sum_validity_mul, hterms, sum_map_add,
    sum_map_mul_left, ← sum_validity, loss, policyLoss_eq, valueLoss]
  ring

theorem accumulateGradients_eq (parts : List (List (CriticChunk K X))) :
    network.accumulateGradients exp parts =
      network.gradient fun parameters => meanOfMeans CriticChunk.mask
        (network.rowLoss exp parameters) parts :=
  foldl_gradient_means network.gradient CriticChunk.mask
    (network.rowLoss exp) (network.loss exp) (network.loss_eq exp) parts

theorem normalizeRows_valid (rows : List (CriticChunk K X)) :
    (network.normalizeRows rows).map CriticChunk.mask =
      rows.map CriticChunk.mask := by
  unfold normalizeRows
  by_cases hnormalize : schedule.config.normalizeAdvantages = true
  · rw [if_pos hnormalize, map_map]
    rfl
  · rw [if_neg hnormalize]

theorem minibatchGradient_of_idle (honly : schedule.valueOnly = true)
    (hvf : schedule.config.vfCoef = 0) (rows : List (CriticChunk K X)) :
    network.minibatchGradient exp rows = network.wholeGradient exp rows := by
  have hzero : ∀ parameters row, network.rowLoss exp parameters row = 0 := by
    intro parameters row
    rw [rowLoss, policyTerm, if_pos honly, hvf, zero_mul, zero_add]
  rw [minibatchGradient, wholeGradient, accumulateGradients_eq,
    accumulateGradients_eq]
  congr 1
  funext parameters
  rw [PartMeans.meanOfMeans_eq_zero (hzero parameters),
    PartMeans.meanOfMeans_eq_zero (hzero parameters)]

variable [IsStrictOrderedRing K]

theorem minibatchGradient_of_even (hmicro : 0 < schedule.config.microBatchSize)
    (rows : List (CriticChunk K X))
    (heven : Even id (splitRows schedule.config.microBatchSize
      (rows.map CriticChunk.mask))) :
    network.minibatchGradient exp rows = network.wholeGradient exp rows := by
  rw [← network.normalizeRows_valid, splitRows_map] at heven
  have hparts : Even CriticChunk.mask (splitRows
      schedule.config.microBatchSize (network.normalizeRows rows)) :=
    (PartMeans.even_map (g := CriticChunk.mask)).mp heven
  rw [minibatchGradient, wholeGradient, accumulateGradients_eq,
    accumulateGradients_eq]
  congr 1
  funext parameters
  rw [PartMeans.meanOfMeans_of_even hparts, flatten_splitRows hmicro,
    PartMeans.meanOfMeans_singleton]

end CriticNetwork

end CriticMeans

/-! ## A network that shows the weights of a part -/

section Probe

variable {K : Type} [Field K] [LinearOrder K]

theorem surrogate_slot (policy : PolicyConfig K) (exp : K → K)
    (slot other : ChunkSlot K) (advantage : K)
    (logRatio : policy.variant.LogRatio K policy.samples) :
    policy.surrogate exp ⟨slot, advantage, logRatio⟩ =
      policy.surrogate exp ⟨other, advantage, logRatio⟩ := by
  obtain ⟨variant, _, _, _, _, _, _, _⟩ := policy
  cases variant with
  | vanilla | fpoPlusPlus mode | flowGrpo => rfl

variable [IsStrictOrderedRing K]

theorem ppoLoss_losing {ratio clipCoef : K} (hratio : 1 ≤ ratio)
    (hclip : 0 < clipCoef) : ppoLoss (-1) ratio clipCoef = ratio := by
  have hlow : 1 - clipCoef ≤ ratio := by linarith
  rw [ppoLoss, clampTo, max_eq_left hlow, neg_neg, one_mul, one_mul]
  exact max_eq_left (min_le_left _ _)

theorem fpoPlusPlusElement_losing (mode : TrustRegionMode)
    {ratio clipCoef spoClipCoef : K} (hratio : 1 ≤ ratio)
    (hclip : 0 < clipCoef) (hspo : 0 < spoClipCoef) :
    ratio ≤ fpoPlusPlusElement mode clipCoef spoClipCoef (-1) ratio ∧
      (ratio = 1 →
        fpoPlusPlusElement mode clipCoef spoClipCoef (-1) ratio = 1) := by
  cases mode with
  | ppo =>
    rw [fpoPlusPlusElement, ppoLoss_losing hratio hclip]
    exact ⟨le_rfl, id⟩
  | aspo =>
    have hnot : ¬(0 : K) < -1 := by norm_num
    have hvalue : fpoPlusPlusElement .aspo clipCoef spoClipCoef (-1) ratio =
        ratio + 1 / (2 * spoClipCoef) * (ratio - 1) ^ 2 := by
      simp only [fpoPlusPlusElement, if_neg hnot, abs_neg, abs_one]
      ring
    rw [hvalue]
    constructor
    · have hpull : 0 ≤ 1 / (2 * spoClipCoef) * (ratio - 1) ^ 2 := by
        positivity
      linarith
    · intro hone
      rw [hone, sub_self]
      ring

theorem surrogate_losing (policy : PolicyConfig K) {exp : K → K} {value : K}
    (hratio : 1 ≤ exp value) (slot : ChunkSlot K) :
    exp value ≤ policy.surrogate exp
        ⟨slot, -1, policy.variant.constLogRatio value⟩ ∧
      (exp value = 1 → policy.surrogate exp
        ⟨slot, -1, policy.variant.constLogRatio value⟩ = 1) := by
  obtain ⟨variant, samples, clipCoef, spoClipCoef, hsamples, hclip, _, hspo⟩ :=
    policy
  cases variant with
  | vanilla =>
    have hloss : ppoLoss (-1) (exp value) clipCoef = exp value :=
      ppoLoss_losing hratio hclip
    exact ⟨hloss.ge, hloss.trans⟩
  | fpoPlusPlus mode =>
    have hmean := mean_const hsamples (fpoPlusPlusElement mode clipCoef
      spoClipCoef (-1) (exp value))
    obtain ⟨hle, hone⟩ := fpoPlusPlusElement_losing mode hratio hclip hspo
    exact ⟨hle.trans hmean.ge, fun heq => hmean.trans (hone heq)⟩
  | flowGrpo =>
    have hmean := mean_const hsamples (ppoLoss (-1) (exp value) clipCoef)
    have hloss : ppoLoss (-1) (exp value) clipCoef = exp value :=
      ppoLoss_losing hratio hclip
    exact ⟨(hmean.trans hloss).ge, fun heq => hmean.trans (hloss.trans heq)⟩

end Probe

section ProbeNetwork

variable {K : Type} [Field K]

/-- Whether the parameters moved and the row is in the part. -/
def probeValue (part : List ℕ) (moved : Bool) (position : ℕ) : K :=
  if moved = true ∧ position ∈ part then 1 else 0

def probeRow (valids : List Bool) (position : ℕ) : CriticChunk K ℕ where
  valid := valids.getD position false
  weight := 0
  advantage := -1
  contents := position
  returns := 0

def probeRows (valids : List Bool) : List (CriticChunk K ℕ) :=
  (range valids.length).map (probeRow valids)

theorem map_getD_range (valids : List Bool) :
    (range valids.length).map (fun position =>
      valids.getD position false) = valids := by
  apply ext_getElem
  · simp
  · intro position _ hposition
    simp [hposition]

theorem probeRows_mask (valids : List Bool) :
    (probeRows valids : List (CriticChunk K ℕ)).map CriticChunk.mask =
      valids := by
  rw [probeRows, map_map]
  exact map_getD_range valids

variable [LinearOrder K]

def probeNetwork (policy : PolicyConfig K) (part : List ℕ) :
    CriticNetwork policy Bool K ℕ where
  logRatio moved position :=
    policy.variant.constLogRatio (probeValue part moved position)
  value := probeValue part
  globalNormalize _ advantage := advantage
  gradient := difference K

theorem probe_normalizeRows {schedule : FpoSchedule K} (part : List ℕ)
    (rows : List (CriticChunk K ℕ)) :
    (probeNetwork schedule.config.policy part).normalizeRows rows = rows := by
  unfold CriticNetwork.normalizeRows
  by_cases hnormalize : schedule.config.normalizeAdvantages = true
  · rw [if_pos hnormalize]
    exact map_id rows
  · rw [if_neg hnormalize]

def probeTerm (schedule : FpoSchedule K) (exp : K → K) (value : K) : K :=
  (if schedule.valueOnly then 0
    else schedule.config.policy.surrogate exp ⟨⟨true, 0⟩, -1,
      schedule.config.policy.variant.constLogRatio value⟩) +
    schedule.config.vfCoef * (1 / 2 * value ^ 2)

theorem probe_rowLoss (exp : K → K) (part : List ℕ) (valids : List Bool)
    (moved : Bool) (position : ℕ) :
    (probeNetwork schedule.config.policy part).rowLoss exp moved
        (probeRow valids position) =
      probeTerm schedule exp (probeValue part moved position) := by
  have hvalue : (probeNetwork schedule.config.policy part).value moved
      (probeRow (K := K) valids position).contents -
        (probeRow (K := K) valids position).returns =
          probeValue part moved position := sub_zero _
  rw [CriticNetwork.rowLoss, CriticNetwork.policyTerm, hvalue, probeTerm]
  congr 2
  exact surrogate_slot ..

theorem probe_rowLoss_sub (exp : K → K) (part : List ℕ) (valids : List Bool) :
    ((probeNetwork schedule.config.policy part).rowLoss exp true -
        (probeNetwork schedule.config.policy part).rowLoss exp false) ∘
          probeRow valids =
      onPart part (probeTerm schedule exp 1 - probeTerm schedule exp 0) := by
  funext position
  rw [Function.comp_apply, Pi.sub_apply, probe_rowLoss, probe_rowLoss, onPart]
  by_cases hposition : position ∈ part
  · simp [probeValue, hposition]
  · simp [probeValue, hposition]

theorem probe_gradient (exp : K → K) (part : List ℕ) (valids : List Bool)
    (parts : List (List ℕ)) :
    (probeNetwork schedule.config.policy part).accumulateGradients exp
        (parts.map (List.map (probeRow valids))) =
      meanOfMeans (fun position => valids.getD position false)
        (onPart part (probeTerm schedule exp 1 - probeTerm schedule exp 0))
        parts := by
  rw [CriticNetwork.accumulateGradients_eq]
  exact (difference_meanOfMeans ..).trans
    ((PartMeans.meanOfMeans_map ..).trans (congrArg
      (fun term => meanOfMeans (fun position => valids.getD position false)
        term parts) (probe_rowLoss_sub exp part valids)))

variable [IsStrictOrderedRing K]

theorem probeTerm_lt {exp : K → K} (hexp : StrictMono exp) (hone : exp 0 = 1)
    (hvf : 0 ≤ schedule.config.vfCoef)
    (hbusy : ¬(schedule.valueOnly = true ∧ schedule.config.vfCoef = 0)) :
    probeTerm schedule exp 0 < probeTerm schedule exp 1 := by
  unfold probeTerm
  by_cases honly : schedule.valueOnly = true
  · have hpos : 0 < schedule.config.vfCoef := by
      apply lt_of_le_of_ne hvf
      intro hzero
      exact hbusy ⟨honly, hzero.symm⟩
    rw [if_pos honly, if_pos honly]
    linarith
  · have hgrows : exp 0 < exp 1 := hexp one_pos
    rw [hone] at hgrows
    have hbefore := (surrogate_losing schedule.config.policy hone.ge
      ⟨true, 0⟩).2 hone
    have hafter := (surrogate_losing schedule.config.policy hgrows.le
      ⟨true, 0⟩).1
    rw [if_neg honly, if_neg honly, hbefore]
    linarith

end ProbeNetwork

/-! ## When the critic's micro-batches do not matter -/

section CriticResult

variable {K : Type} [Field K] [LinearOrder K]

theorem minibatch_map {α β : Type} (schedule : FpoSchedule K)
    (permutation : List ℕ) (f : α → β) (rows : List α) (start : ℕ) :
    schedule.minibatch permutation (rows.map f) start =
      (schedule.minibatch permutation rows start).map f := by
  rw [FpoSchedule.minibatch, FpoSchedule.minibatch, length_map,
    EpochLayout.selectRows_map]

theorem selectRows_range (hindices : ∀ index ∈ indices, index < size) :
    selectRows indices (range size) = indices := by
  induction indices with
  | nil => rfl
  | cons index indices ih =>
    have hlt := hindices index mem_cons_self
    have hget : (range size)[index]? = some index := getElem?_range hlt
    have hrest := ih fun other hother =>
      hindices other (mem_cons_of_mem index hother)
    rw [selectRows, filterMap_cons_some hget]
    exact congrArg (index :: ·) hrest

theorem minibatch_range (schedule : FpoSchedule K)
    (hpermutation : permutation.Perm (range size)) (start : ℕ) :
    schedule.minibatch permutation (range size) start =
        sliceRows (start, start + schedule.localMiniBatchSize size)
          permutation ∧
      (schedule.minibatch permutation (range size) start).Nodup := by
  have hsub : (sliceRows (start, start + schedule.localMiniBatchSize size)
      permutation).Sublist permutation :=
    (take_sublist _ _).trans (drop_sublist _ _)
  have hnodup := hsub.nodup
    (hpermutation.nodup_iff.mpr (nodup_range (n := size)))
  have hslice : schedule.minibatch permutation (range size) start =
      sliceRows (start, start + schedule.localMiniBatchSize size)
        permutation := by
    rw [FpoSchedule.minibatch, length_range]
    apply selectRows_range
    intro index hindex
    exact mem_range.mp (hpermutation.mem_iff.mp (hsub.subset hindex))
  exact ⟨hslice, hslice ▸ hnodup⟩

theorem FpoSchedule.accepted [ToString K] {schedule : FpoSchedule K}
    (haccepted : schedule.config.postInit = .ok ()) :
    0 < schedule.config.microBatchSize ∧ 0 ≤ schedule.config.vfCoef := by
  simp only [FpoActorConfig.postInit, require_bind_eq_ok] at haccepted
  exact ⟨haccepted.2.1, haccepted.2.2.2.1⟩

variable [IsStrictOrderedRing K]

theorem even_of_keepsCriticGradients {schedule : FpoSchedule K} {exp : K → K}
    (hmicro : 0 < schedule.config.microBatchSize) (hexp : StrictMono exp)
    (hone : exp 0 = 1) (hvf : 0 ≤ schedule.config.vfCoef)
    (hbusy : ¬(schedule.valueOnly = true ∧ schedule.config.vfCoef = 0))
    {permutation : List ℕ} {valids : List Bool}
    (hpermutation : permutation.Perm (range valids.length))
    (hkeeps : KeepsCriticGradients schedule exp permutation valids)
    (hstart : start ∈ schedule.minibatchStarts valids.length) :
    Even id (splitRows schedule.config.microBatchSize
      (schedule.minibatch permutation valids start)) := by
  have hgain : probeTerm schedule exp 1 - probeTerm schedule exp 0 ≠ 0 :=
    (sub_pos.mpr (probeTerm_lt hexp hone hvf hbusy)).ne'
  obtain ⟨_, hnodup⟩ := minibatch_range schedule hpermutation start
  generalize hpositions : schedule.minibatch permutation
    (range valids.length) start = positions at hnodup
  have hvalids : schedule.minibatch permutation valids start =
      positions.map fun position => valids.getD position false := by
    rw [← hpositions, ← minibatch_map, map_getD_range]
  have hrows : schedule.minibatch permutation
      (probeRows valids : List (CriticChunk K ℕ)) start =
        positions.map (probeRow valids) := by
    rw [← hpositions, ← minibatch_map]
    rfl
  have hlength : (probeRows valids : List (CriticChunk K ℕ)).length =
      valids.length := by
    rw [probeRows, length_map, length_range]
  rw [hvalids, splitRows_map, PartMeans.even_map]
  apply PartMeans.even_of_meanOfMeans _ hgain
  · intro part _
    have hequal := hkeeps Bool K ℕ
      (probeNetwork schedule.config.policy part) (probeRows valids)
      (probeRows_mask valids) start (by rwa [hlength])
    have hsingle : [positions.map (probeRow (K := K) valids)] =
        [positions].map (List.map (probeRow valids)) := rfl
    rw [CriticNetwork.minibatchGradient, CriticNetwork.wholeGradient,
      probe_normalizeRows, hrows, splitRows_map, probe_gradient, hsingle,
      probe_gradient, PartMeans.meanOfMeans_singleton] at hequal
    rw [flatten_splitRows hmicro]
    exact hequal
  · rw [flatten_splitRows hmicro]
    exact hnodup

/-- The gradients of the minibatches are those of single micro-batches exactly
when each minibatch has the same number of valid rows in all micro-batches. -/
theorem keepsCriticGradients_iff [ToString K] {exp : K → K}
    (haccepted : schedule.config.postInit = .ok ()) (hexp : StrictMono exp)
    (hone : exp 0 = 1)
    (hpermutation : permutation.Perm (range valids.length)) :
    KeepsCriticGradients schedule exp permutation valids ↔
      (schedule.valueOnly = true ∧ schedule.config.vfCoef = 0) ∨
        ∀ start ∈ schedule.minibatchStarts valids.length,
          Even id (splitRows schedule.config.microBatchSize
            (schedule.minibatch permutation valids start)) := by
  obtain ⟨hmicro, hvf⟩ := FpoSchedule.accepted haccepted
  constructor
  · intro hkeeps
    by_cases hidle : schedule.valueOnly = true ∧ schedule.config.vfCoef = 0
    · exact .inl hidle
    · right
      intro start hstart
      exact even_of_keepsCriticGradients hmicro hexp hone hvf hidle
        hpermutation hkeeps hstart
  · intro hcondition Θ G X _ _ network rows hvalids start hstart
    subst hvalids
    rcases hcondition with ⟨honly, hzero⟩ | heven
    · exact network.minibatchGradient_of_idle exp honly hzero _
    · apply network.minibatchGradient_of_even exp hmicro
      rw [← minibatch_map]
      exact heven start (by rwa [length_map])

end CriticResult

/-! ## The sizes of supervised micro-batches -/

section Sizes

variable {α : Type}

theorem countP_true (items : List α) :
    items.countP (fun _ => true) = items.length :=
  countP_eq_length.mpr fun _ _ => rfl

theorem length_sliceRows (start size : ℕ) (rows : List α) :
    (sliceRows (start, start + size) rows).length =
      min size (rows.length - start) := by
  rw [sliceRows, length_take, length_drop, Nat.add_sub_cancel_left]

theorem exists_first_part (hsize : 0 < size) (hrows : rows ≠ []) :
    ∃ part ∈ splitRows size rows, part.length = min size rows.length := by
  have hpos := length_chunkStarts_pos hsize (length_pos_iff.mpr hrows)
  have hzero : 0 ∈ chunkStarts rows.length size := by
    rw [chunkStarts, length_map, length_range] at hpos
    exact mem_map.mpr ⟨0, mem_range.mpr hpos, Nat.zero_mul size⟩
  refine ⟨_, mem_map_of_mem hzero, ?_⟩
  rw [length_sliceRows, Nat.sub_zero]

theorem length_of_mem_splitRows (hsize : 0 < size)
    (hpart : part ∈ splitRows size rows) :
    ∃ index, index * size < rows.length ∧
      part.length = min size (rows.length - index * size) := by
  obtain ⟨start, hstart, rfl⟩ := mem_map.mp hpart
  have hlt := chunkStarts_lt hsize hstart
  obtain ⟨index, _, rfl⟩ := mem_map.mp hstart
  exact ⟨index, hlt, length_sliceRows ..⟩

theorem dvd_length_flatten {parts : List (List α)}
    (hparts : ∀ part ∈ parts, part.length = size) :
    size ∣ parts.flatten.length := by
  rw [length_flatten, map_congr_left hparts, map_const',
    sum_replicate, smul_eq_mul]
  exact Nat.dvd_mul_left ..

namespace SftNetwork

variable {K : Type} (config : SftActorConfig K)

def fullSize (size : ℕ) : ℕ :=
  min config.microSize (min config.miniBatchSize size)

variable {config}

section

variable (hmini : 0 < config.miniBatchSize)

include hmini

theorem flatten_splitMicroBatches
    (hmicro : 0 < config.microSize) (data : List α) :
    (splitMicroBatches config data).flatten.flatten = data := by
  have hparts : ((splitMicroBatches config data).map List.flatten) =
      splitRows config.miniBatchSize data := by
    rw [splitMicroBatches, map_map]
    calc (splitRows config.miniBatchSize data).map
          (List.flatten ∘ splitRows config.microSize)
        = (splitRows config.miniBatchSize data).map id := by
          apply map_congr_left
          intro part _
          exact flatten_splitRows hmicro part
      _ = splitRows config.miniBatchSize data := map_id _
  rw [flatten_flatten, hparts, flatten_splitRows hmini]

theorem dvd_of_even (hmicro : 0 < config.microSize) {data : List α}
    (heven : Even (fun _ => true) (splitMicroBatches config data).flatten) :
    fullSize config data.length ∣ min config.miniBatchSize data.length ∧
      fullSize config data.length ∣ data.length := by
  by_cases hdata : data = []
  · rw [hdata]
    simp
  · obtain ⟨first, hfirst, hfirstLength⟩ := exists_first_part hmini hdata
    have hpos := length_pos_iff.mpr hdata
    have hnonempty : first ≠ [] := by
      apply ne_nil_of_length_pos
      omega
    obtain ⟨part, hpart, hpartLength⟩ := exists_first_part hmicro hnonempty
    rw [hfirstLength] at hpartLength
    have hmem (minibatch : List α)
        (hminibatch : minibatch ∈ splitRows config.miniBatchSize data) :
        ∀ other ∈ splitRows config.microSize minibatch,
          other ∈ (splitMicroBatches config data).flatten := by
      intro other hother
      exact mem_flatten.mpr ⟨_, mem_map_of_mem hminibatch, hother⟩
    have hall : ∀ other ∈ (splitMicroBatches config data).flatten,
        other.length = fullSize config data.length := by
      intro other hother
      have hsame := heven other hother part (hmem first hfirst part hpart)
      rw [countP_true, countP_true] at hsame
      exact hsame.trans hpartLength
    constructor
    · have hdvd := dvd_length_flatten fun other hother =>
        hall other (hmem first hfirst other hother)
      rw [flatten_splitRows hmicro, hfirstLength] at hdvd
      exact hdvd
    · have hdvd := dvd_length_flatten hall
      rw [flatten_splitMicroBatches hmini hmicro] at hdvd
      exact hdvd

theorem length_minibatch (hfirst : size ∣ min config.miniBatchSize data.length)
    (hsize : size ∣ data.length)
    (hminibatch : minibatch ∈ splitRows config.miniBatchSize data) :
    size ∣ minibatch.length ∧ 0 < minibatch.length ∧
      minibatch.length ≤ min config.miniBatchSize data.length := by
  obtain ⟨index, hindex, hlength⟩ := length_of_mem_splitRows hmini hminibatch
  rw [hlength]
  refine ⟨?_, by omega, by omega⟩
  by_cases hfull : config.miniBatchSize ≤ data.length
  · rw [Nat.min_eq_left hfull] at hfirst
    have hrest : size ∣ data.length - index * config.miniBatchSize :=
      Nat.dvd_sub hsize (hfirst.mul_left index)
    rcases Nat.le_total config.miniBatchSize
        (data.length - index * config.miniBatchSize) with hle | hle
    · rwa [Nat.min_eq_left hle]
    · rwa [Nat.min_eq_right hle]
  · have hzero : index = 0 := by
      by_contra hne
      have hle := Nat.le_mul_of_pos_left config.miniBatchSize
        (Nat.pos_of_ne_zero hne)
      omega
    have hmin : min config.miniBatchSize
        (data.length - index * config.miniBatchSize) = data.length := by
      rw [hzero]
      omega
    rwa [hmin]

theorem even_of_dvd (hmicro : 0 < config.microSize)
    (hfirst : fullSize config data.length ∣
      min config.miniBatchSize data.length)
    (hsize : fullSize config data.length ∣ data.length) :
    Even (fun _ => true) (splitMicroBatches config data).flatten := by
  have hall : ∀ part ∈ (splitMicroBatches config data).flatten,
      part.length = fullSize config data.length := by
    intro part hpart
    obtain ⟨micros, hmicros, hpart⟩ := mem_flatten.mp hpart
    obtain ⟨minibatch, hminibatch, rfl⟩ := mem_map.mp hmicros
    obtain ⟨hdvd, hpos, hle⟩ := length_minibatch hmini hfirst hsize hminibatch
    obtain ⟨index, hindex, hlength⟩ := length_of_mem_splitRows hmicro hpart
    rw [hlength]
    unfold fullSize at hfirst hsize hdvd ⊢
    rcases Nat.le_total config.microSize
        (min config.miniBatchSize data.length) with hcut | hcut
    · rw [Nat.min_eq_left hcut] at hdvd ⊢
      have hrest : config.microSize ∣
          minibatch.length - index * config.microSize :=
        Nat.dvd_sub hdvd (Nat.dvd_mul_left ..)
      have hlong := Nat.le_of_dvd (by omega) hrest
      exact Nat.min_eq_left hlong
    · rw [Nat.min_eq_right hcut] at hdvd ⊢
      have hwhole := Nat.le_of_dvd hpos hdvd
      have hzero : index = 0 := by
        by_contra hne
        have hfar := Nat.le_mul_of_pos_left config.microSize
          (Nat.pos_of_ne_zero hne)
        omega
      rw [hzero]
      omega
  intro part hpart other hother
  rw [countP_true, countP_true, hall part hpart, hall other hother]

end

end SftNetwork

end Sizes

/-! ## When the supervised micro-batches do not matter -/

section SftResult

variable {K Θ G X : Type} [LinearOrder K]

def tagRow (acp : AcpConfig K) (row : SftRow K X) : SftRow K X :=
  if acp.enable = true ∧ acp.indicatorDropoutProb ≤ row.draw then
    let tag := if 0 < row.indicator then acp.positiveTag else acp.negativeTag
    { row with task := s!"{row.task}\n{tag}" }
  else row

theorem applyAcpPromptTags_eq (acp : AcpConfig K) (rows : List (SftRow K X)) :
    applyAcpPromptTags acp rows = rows.map (tagRow acp) := by
  unfold applyAcpPromptTags
  by_cases henable : acp.enable = true
  · rw [if_pos henable]
    apply map_congr_left
    intro row _
    by_cases hkeep : row.draw < acp.indicatorDropoutProb
    · rw [if_pos hkeep, tagRow, if_neg]
      intro htagged
      exact not_le.mpr hkeep htagged.2
    · have htagged : acp.enable = true ∧
          acp.indicatorDropoutProb ≤ row.draw := ⟨henable, not_lt.mp hkeep⟩
      rw [if_neg hkeep, tagRow, if_pos htagged]
  · have hkept : ∀ row ∈ rows, tagRow acp row = row := by
      intro row _
      rw [tagRow, if_neg]
      intro htagged
      exact henable htagged.1
    rw [if_neg henable, map_congr_left hkept, map_id']

theorem tagRow_contents (acp : AcpConfig K) (row : SftRow K X) :
    (tagRow acp row).contents = row.contents := by
  unfold tagRow
  split <;> rfl

namespace SftNetwork

variable [Field K] [IsStrictOrderedRing K]

theorem mean_eq_maskedMean {α : Type} (f : α → K) (items : List α) :
    (items.map f).sum / items.length = maskedMean (fun _ => true) f items := by
  cases items with
  | nil => simp [maskedMean, PartMeans.maskedSum]
  | cons item items =>
    have hone : (1 : K) ≤ (item :: items).length := by
      rw [Nat.one_le_cast]
      exact Nat.succ_pos _
    rw [maskedMean, countP_true, max_eq_left hone]
    rfl

variable [AddCommGroup G] [Module K G] (network : SftNetwork K Θ G X)
  {config : SftActorConfig K}

theorem accumulateGradients_eq (parts : List (List (SftRow K X))) :
    network.accumulateGradients config parts =
      network.gradient fun parameters => meanOfMeans (fun _ => true)
        (network.rowLoss parameters ∘ tagRow config.acp) parts := by
  apply foldl_gradient_means network.gradient (fun _ => true)
    (fun parameters => network.rowLoss parameters ∘ tagRow config.acp)
  intro parameters rows
  rw [sftLoss, applyAcpPromptTags_eq, length_map, map_map]
  exact mean_eq_maskedMean _ rows

def probe (part : List ℕ) : SftNetwork K Bool K ℕ where
  rowLoss moved row := probeValue part moved row.contents
  gradient := difference K

def probeData (K : Type) [Field K] (size : ℕ) : List (SftRow K ℕ) :=
  (range size).map fun position => ⟨0, "", 0, position⟩

theorem probe_gradient (part : List ℕ) (parts : List (List ℕ)) :
    (probe part : SftNetwork K Bool K ℕ).accumulateGradients config
        (parts.map (List.map fun position => ⟨0, "", 0, position⟩)) =
      meanOfMeans (fun _ => true) (onPart part 1) parts := by
  have hterm : ((probe part : SftNetwork K Bool K ℕ).rowLoss true ∘
        tagRow config.acp - (probe part).rowLoss false ∘ tagRow config.acp) ∘
          (fun position : ℕ => ⟨0, "", 0, position⟩) = onPart part 1 := by
    funext position
    rw [Function.comp_apply, Pi.sub_apply, Function.comp_apply,
      Function.comp_apply, probe, onPart]
    simp only [tagRow_contents]
    by_cases hposition : position ∈ part
    · simp [probeValue, hposition]
    · simp [probeValue, hposition]
  rw [accumulateGradients_eq, ← hterm]
  exact (difference_meanOfMeans ..).trans (PartMeans.meanOfMeans_map ..)

/-- The gradient of a batch is that of a single micro-batch exactly when the
micro-batches have one size. -/
theorem keepsSftGradients_iff (haccepted : config.postInit = .ok ())
    (size : ℕ) :
    KeepsSftGradients config size ↔
      fullSize config size ∣ min config.miniBatchSize size ∧
        fullSize config size ∣ size := by
  obtain ⟨hmini, hmicro⟩ := SftActorConfig.accepted haccepted
  constructor
  · intro hkeeps
    have hrange : (range size).length = size := length_range
    rw [← hrange]
    apply dvd_of_even hmini hmicro
    have hnodup : (splitMicroBatches config
        (range size)).flatten.flatten.Nodup := by
      rw [flatten_splitMicroBatches hmini hmicro]
      exact nodup_range
    apply PartMeans.even_of_meanOfMeans hnodup (one_ne_zero : (1 : K) ≠ 0)
    intro part _
    have hequal := hkeeps Bool K ℕ (probe part) (probeData K size)
      (by rw [probeData, length_map, hrange])
    have hsplit : (splitMicroBatches config (probeData K size)).flatten =
        (splitMicroBatches config (range size)).flatten.map
          (List.map fun position => ⟨0, "", 0, position⟩) := by
      rw [probeData, splitMicroBatches, splitMicroBatches, splitRows_map,
        map_map, map_flatten, map_map]
      congr 1
      apply map_congr_left
      intro part _
      exact splitRows_map ..
    have hsingle : [probeData K size] = [range size].map
        (List.map fun position => ⟨0, "", 0, position⟩) := rfl
    rw [updateSftPolicy, wholeGradient, hsplit, hsingle, probe_gradient,
      probe_gradient, PartMeans.meanOfMeans_singleton] at hequal
    rw [flatten_splitMicroBatches hmini hmicro]
    exact hequal
  · intro hdvd Θ G X _ _ network data hsize
    subst hsize
    rw [updateSftPolicy, wholeGradient, accumulateGradients_eq,
      accumulateGradients_eq]
    congr 1
    funext parameters
    rw [PartMeans.meanOfMeans_of_even (even_of_dvd hmini hmicro hdvd.1 hdvd.2),
      flatten_splitMicroBatches hmini hmicro,
      PartMeans.meanOfMeans_singleton]

end SftNetwork

/-- Micro-batches of an update with a critic weigh the valid rows alike where
each minibatch has equally many in all of them, and those of a supervised update
where none is cut. -/
theorem micro_batches_weigh_alike_iff [Field K] [IsStrictOrderedRing K]
    [ToString K] {schedule : FpoSchedule K} {exp : K → K}
    (haccepted : schedule.config.postInit = .ok ())
    (hexp : StrictMono exp) (hone : exp 0 = 1) {permutation : List ℕ}
    {valids : List Bool}
    (hpermutation : permutation.Perm (range valids.length))
    {config : SftActorConfig K} (hconfig : config.postInit = .ok ())
    (size : ℕ) :
    (KeepsCriticGradients schedule exp permutation valids ↔
      (schedule.valueOnly = true ∧ schedule.config.vfCoef = 0) ∨
        ∀ start ∈ schedule.minibatchStarts valids.length,
          Even id (splitRows schedule.config.microBatchSize
            (schedule.minibatch permutation valids start))) ∧
      (KeepsSftGradients config size ↔
        SftNetwork.fullSize config size ∣ min config.miniBatchSize size ∧
          SftNetwork.fullSize config size ∣ size) :=
  ⟨keepsCriticGradients_iff haccepted hexp hone hpermutation,
    SftNetwork.keepsSftGradients_iff hconfig size⟩

end SftResult

def threeRowSchedule : FpoSchedule ℚ where
  config :=
    { policy := vanillaConfig
      criticEnabled := true
      miniBatchSize := 3
      microBatchSize := 2
      updateEpochs := 1
      vfCoef := 1
      normalizeAdvantages := true
      valueOnlyUpdates := 0
      targetKl := none
      klEarlyStopMode := .postEpoch
      fullLogicalBatchGradientAccumulation := false }
  worldSize := 1
  globalSteps := 1

def threeRowConfig : SftActorConfig ℚ where
  acp := ⟨false, 0, "Advantage: positive", "Advantage: negative"⟩
  miniBatchSize := 3
  microBatchSize := some 2

theorem micro_batches_weigh_alike_iff_of_three_rows :
    (KeepsCriticGradients threeRowSchedule (1 + ·) [0, 1, 2]
        [true, true, true] ↔
      (threeRowSchedule.valueOnly = true ∧
        threeRowSchedule.config.vfCoef = 0) ∨
        ∀ start ∈ threeRowSchedule.minibatchStarts 3,
          Even id (splitRows 2 (threeRowSchedule.minibatch [0, 1, 2]
            [true, true, true] start))) ∧
      (KeepsSftGradients threeRowConfig 3 ↔
        SftNetwork.fullSize threeRowConfig 3 ∣ min 3 3 ∧
          SftNetwork.fullSize threeRowConfig 3 ∣ 3) := by
  apply micro_batches_weigh_alike_iff
  · decide +kernel
  · intro first second hlt
    exact add_lt_add_right hlt 1
  · exact add_zero 1
  · exact Perm.refl _
  · decide +kernel

/-- Of three rows in micro-batches of two, the last weighs a half and not a
third. -/
theorem last_row_weighs_more :
    ¬KeepsCriticGradients threeRowSchedule (1 + ·) [0, 1, 2]
        [true, true, true] ∧
      ¬KeepsSftGradients threeRowConfig 3 := by
  constructor
  · intro hkeeps
    have hequal := hkeeps Bool ℚ ℕ
      (probeNetwork threeRowSchedule.config.policy [2])
      (probeRows [true, true, true]) rfl 0 (by decide)
    revert hequal
    decide +kernel
  · intro hkeeps
    have hequal := hkeeps Bool ℚ ℕ (SftNetwork.probe [2])
      (SftNetwork.probeData ℚ 3) rfl
    revert hequal
    decide +kernel

end VerlVla
