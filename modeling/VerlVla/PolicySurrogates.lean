import Mathlib.Algebra.BigOperators.Fin
import Mathlib.Algebra.Order.Field.Basic
import Mathlib.Algebra.BigOperators.Ring.Finset
import Mathlib.Algebra.BigOperators.Group.List.Basic
import Mathlib.Tactic.Ring

/-!
# Clipped surrogates of the policy

A flattened chunk has an advantage and log ratios, a single one for vanilla FPO
and one for each sample or transition otherwise.  Every surrogate weighs a term
of the chunk and divides the sum by a denominator of at least one.
-/

namespace VerlVla

/-- What a chunk contributes, whatever it holds. -/
structure ChunkSlot (K : Type) where
  valid : Bool
  weight : K

structure SurrogateRow (K L : Type) extends ChunkSlot K where
  advantage : K
  logRatio : L

structure PolicyLoss (K L : Type) where
  loss : K
  ratio : List L
  approxKl : K
  clipFraction : K

inductive TrustRegionMode
  | ppo
  | aspo
  deriving DecidableEq

section Surrogates

variable {K L : Type} [Field K] [LinearOrder K]

def ChunkSlot.validity (slot : ChunkSlot K) : K := if slot.valid then 1 else 0

def clampTo (value low high : K) : K := min (max value low) high

def chunkWeight (lossWeights : Option (SurrogateRow K L → K))
    (row : SurrogateRow K L) : K :=
  match lossWeights with
  | none => row.validity
  | some weights => weights row * row.validity

def lossDenominator (rows : List (SurrogateRow K L))
    (lossWeights : Option (SurrogateRow K L → K)) (normalization : Option K) : K :=
  match normalization with
  | none => max (rows.map (chunkWeight lossWeights)).sum 1
  | some total => max total 1

def ppoLoss (advantage ratio clipCoef : K) : K := max (-advantage * ratio)
    (-advantage * clampTo ratio (1 - clipCoef) (1 + clipCoef))

def isClipped (ratio clipCoef : K) : K :=
  if clipCoef < |ratio - 1| then 1 else 0

/-- Vanilla FPO, where the loss differences are log ratios. -/
def clippedPolicyLoss (exp : K → K) (rows : List (SurrogateRow K K))
    (clipCoef : K) (lossWeights : Option (SurrogateRow K K → K))
    (normalization : Option K) : PolicyLoss K K :=
  let ratio := fun row : SurrogateRow K K => exp row.logRatio
  let weights := chunkWeight lossWeights
  let denominator := lossDenominator rows lossWeights normalization
  { loss := (rows.map fun row =>
      ppoLoss row.advantage (ratio row) clipCoef * weights row).sum /
        denominator
    ratio := rows.map ratio
    approxKl := (rows.map fun row =>
      ((ratio row - 1) - row.logRatio) * weights row).sum / denominator
    clipFraction := (rows.map fun row =>
      isClipped (ratio row) clipCoef * weights row).sum / denominator }

variable {n : ℕ}

/-- Proximal clipping, and for ASPO a quadratic pullback where the advantage is
not positive. -/
def fpoPlusPlusElement (mode : TrustRegionMode) (clipCoef spoClipCoef : K)
    (advantage ratio : K) : K :=
  match mode with
  | .ppo => ppoLoss advantage ratio clipCoef
  | .aspo =>
    let spoObjective := advantage * ratio -
      |advantage| / (2 * spoClipCoef) * (ratio - 1) ^ 2
    if 0 < advantage then ppoLoss advantage ratio clipCoef
    else -spoObjective

/-- One ratio for each Monte Carlo sample. -/
def fpoPlusPlusPolicyLoss (exp : K → K)
    (rows : List (SurrogateRow K (Fin n → K))) (clipCoef : K)
    (mode : TrustRegionMode) (spoClipCoef : K)
    (lossWeights : Option (SurrogateRow K (Fin n → K) → K))
    (normalization : Option K) :
    Except String (PolicyLoss K (Fin n → K)) :=
  if spoClipCoef ≤ 0 then .error "FPO++ spo_clip_coef must be positive."
  else
    let ratio := fun (row : SurrogateRow K (Fin n → K)) sample =>
      exp (row.logRatio sample)
    let mcWeights := fun row => chunkWeight lossWeights row / n
    let denominator := lossDenominator rows lossWeights normalization
    .ok
      { loss := (rows.map fun row => ∑ sample,
          fpoPlusPlusElement mode clipCoef spoClipCoef row.advantage
            (ratio row sample) * mcWeights row).sum / denominator
        ratio := rows.map ratio
        approxKl := (rows.map fun row => ∑ sample,
          ((ratio row sample - 1) - row.logRatio sample) *
            mcWeights row).sum / denominator
        clipFraction := (rows.map fun row => ∑ sample,
          isClipped (ratio row sample) clipCoef * mcWeights row).sum /
            denominator }

def flowGrpoClippedPolicyLoss (exp : K → K)
    (rows : List (SurrogateRow K (Fin n → K))) (clipCoef : K)
    (lossWeights : Option (SurrogateRow K (Fin n → K) → K))
    (normalization : Option K) : PolicyLoss K (Fin n → K) :=
  let ratio := fun (row : SurrogateRow K (Fin n → K)) transition =>
    exp (row.logRatio transition)
  let transitionWeights := fun row => chunkWeight lossWeights row / n
  let denominator := lossDenominator rows lossWeights normalization
  { loss := (rows.map fun row => ∑ transition,
      ppoLoss row.advantage (ratio row transition) clipCoef *
        transitionWeights row).sum / denominator
    ratio := rows.map ratio
    approxKl := (rows.map fun row => ∑ transition,
      1 / 2 * row.logRatio transition ^ 2 *
        transitionWeights row).sum / denominator
    clipFraction := (rows.map fun row => ∑ transition,
      isClipped (ratio row transition) clipCoef *
        transitionWeights row).sum / denominator }

end Surrogates

/-! ## The objectives of the workers -/

inductive PolicyVariant
  | vanilla
  | fpoPlusPlus (mode : TrustRegionMode)
  | flowGrpo

/-- The checked part of an actor configuration that the surrogates read. -/
structure PolicyConfig (K : Type) [Field K] [LinearOrder K] where
  variant : PolicyVariant
  samples : ℕ
  clipCoef : K
  spoClipCoef : K
  samples_pos : 0 < samples
  clip_pos : 0 < clipCoef
  clip_lt_one : clipCoef < 1
  spo_pos : 0 < spoClipCoef

namespace PolicyVariant

abbrev LogRatio (K : Type) (samples : ℕ) : PolicyVariant → Type
  | .vanilla => K
  | .fpoPlusPlus _ => Fin samples → K
  | .flowGrpo => Fin samples → K

end PolicyVariant

namespace PolicyConfig

variable {K : Type} [Field K] [LinearOrder K]

abbrev Row (config : PolicyConfig K) : Type :=
  SurrogateRow K (config.variant.LogRatio K config.samples)

abbrev Loss (config : PolicyConfig K) : Type :=
  PolicyLoss K (config.variant.LogRatio K config.samples)

end PolicyConfig

def PolicyVariant.policyLoss {K : Type} [Field K] [LinearOrder K]
    (exp : K → K) (samples : ℕ) (clipCoef spoClipCoef : K)
    (normalization : Option K) : (variant : PolicyVariant) →
      List (SurrogateRow K (variant.LogRatio K samples)) →
      Option (SurrogateRow K (variant.LogRatio K samples) → K) →
      Except String (PolicyLoss K (variant.LogRatio K samples))
  | .vanilla, rows, lossWeights =>
    .ok (clippedPolicyLoss exp rows clipCoef lossWeights normalization)
  | .fpoPlusPlus mode, rows, lossWeights =>
    fpoPlusPlusPolicyLoss exp rows clipCoef mode spoClipCoef lossWeights
      normalization
  | .flowGrpo, rows, lossWeights =>
    .ok (flowGrpoClippedPolicyLoss exp rows clipCoef lossWeights normalization)

def computeClippedPolicyLoss {K : Type} [Field K] [LinearOrder K]
    (exp : K → K) (config : PolicyConfig K) (rows : List config.Row)
    (lossWeights : Option (config.Row → K)) (normalization : Option K) :
    Except String config.Loss :=
  config.variant.policyLoss exp config.samples config.clipCoef
    config.spoClipCoef normalization rows lossWeights

/-! ## A surrogate as a weighted sum -/

section WeightedSums

variable {K L : Type} [Field K]

def weightedSum (term : SurrogateRow K L → K)
    (rows : List (SurrogateRow K L)) : K :=
  (rows.map fun row => row.weight * row.validity * term row).sum

theorem sum_mul_share {n : ℕ} (element : Fin n → K) (weight : K) :
    ∑ i, element i * (weight / n) = weight * ((∑ i, element i) / n) := by
  rw [← Finset.sum_mul]
  ring

/-- The divergence of one log ratio. -/
def PolicyVariant.klOf (exp : K → K) (value : K) : PolicyVariant → K
  | .vanilla => (exp value - 1) - value
  | .fpoPlusPlus _ => (exp value - 1) - value
  | .flowGrpo => 1 / 2 * value ^ 2

theorem klOf_zero {exp : K → K} (hexp : exp 0 = 1) (variant : PolicyVariant) :
    variant.klOf exp 0 = 0 := by
  cases variant with
  | vanilla | fpoPlusPlus mode => simp [PolicyVariant.klOf, hexp]
  | flowGrpo => simp [PolicyVariant.klOf]

end WeightedSums

section Terms

variable {K : Type} [Field K] [LinearOrder K]

def PolicyVariant.surrogate (exp : K → K) (samples : ℕ)
    (clipCoef spoClipCoef : K) : (variant : PolicyVariant) →
      SurrogateRow K (variant.LogRatio K samples) → K
  | .vanilla, row => ppoLoss row.advantage (exp row.logRatio) clipCoef
  | .fpoPlusPlus mode, row =>
    (∑ sample, fpoPlusPlusElement mode clipCoef spoClipCoef row.advantage
      (exp (row.logRatio sample))) / samples
  | .flowGrpo, row =>
    (∑ transition, ppoLoss row.advantage (exp (row.logRatio transition))
      clipCoef) / samples

/-- The divergence that a chunk reports, before its weight. -/
def PolicyVariant.klTerm (exp : K → K) (samples : ℕ) :
    (variant : PolicyVariant) → SurrogateRow K (variant.LogRatio K samples) → K
  | .vanilla, row => (exp row.logRatio - 1) - row.logRatio
  | .fpoPlusPlus _, row =>
    (∑ sample, ((exp (row.logRatio sample) - 1) - row.logRatio sample)) /
      samples
  | .flowGrpo, row =>
    (∑ transition, 1 / 2 * row.logRatio transition ^ 2) / samples

def PolicyConfig.surrogate (exp : K → K) (config : PolicyConfig K) :
    config.Row → K :=
  config.variant.surrogate exp config.samples config.clipCoef
    config.spoClipCoef

def PolicyConfig.klTerm (exp : K → K) (config : PolicyConfig K) :
    config.Row → K :=
  config.variant.klTerm exp config.samples

theorem computeClippedPolicyLoss_eq (exp : K → K) (config : PolicyConfig K)
    (rows : List config.Row) (lossWeights : Option (config.Row → K))
    (normalization : Option K) :
    ∃ result, computeClippedPolicyLoss exp config rows lossWeights
        normalization = .ok result ∧
      result.loss = (rows.map fun row => chunkWeight lossWeights row *
        config.surrogate exp row).sum /
          lossDenominator rows lossWeights normalization ∧
      result.approxKl = (rows.map fun row => chunkWeight lossWeights row *
        config.klTerm exp row).sum /
          lossDenominator rows lossWeights normalization := by
  obtain ⟨variant, samples, clipCoef, spoClipCoef, _, _, _, hspo⟩ := config
  have hspo : ¬spoClipCoef ≤ 0 := not_le.mpr hspo
  cases variant with
  | vanilla =>
    refine ⟨_, rfl, congrArg (· / _) ?_, congrArg (· / _) ?_⟩
    · exact congrArg List.sum (List.map_congr_left fun row _ => mul_comm _ _)
    · exact congrArg List.sum (List.map_congr_left fun row _ => mul_comm _ _)
  | fpoPlusPlus mode =>
    refine ⟨_, if_neg hspo, congrArg (· / _) ?_, congrArg (· / _) ?_⟩
    · exact congrArg List.sum
        (List.map_congr_left fun row _ => sum_mul_share _ _)
    · exact congrArg List.sum
        (List.map_congr_left fun row _ => sum_mul_share _ _)
  | flowGrpo =>
    refine ⟨_, rfl, congrArg (· / _) ?_, congrArg (· / _) ?_⟩
    · exact congrArg List.sum
        (List.map_congr_left fun row _ => sum_mul_share _ _)
    · exact congrArg List.sum
        (List.map_congr_left fun row _ => sum_mul_share _ _)

def PolicyVariant.constLogRatio {samples : ℕ} (value : K) :
    (variant : PolicyVariant) → variant.LogRatio K samples
  | .vanilla => value
  | .fpoPlusPlus _ => fun _ => value
  | .flowGrpo => fun _ => value

end Terms

section Constants

variable {K : Type} [Field K] [LinearOrder K] [IsStrictOrderedRing K]

theorem mean_const (hsamples : 0 < samples) (value : K) :
    (∑ _sample : Fin samples, value) / samples = value := by
  have hne : (samples : K) ≠ 0 := Nat.cast_ne_zero.mpr hsamples.ne'
  rw [Finset.sum_const, Finset.card_univ, Fintype.card_fin, nsmul_eq_mul,
    mul_div_cancel_left₀ value hne]

theorem klTerm_const (exp : K → K) (config : PolicyConfig K)
    (slot : ChunkSlot K) (advantage value : K) :
    config.klTerm exp ⟨slot, advantage, config.variant.constLogRatio value⟩ =
      config.variant.klOf exp value := by
  obtain ⟨variant, samples, _, _, hsamples, _, _, _⟩ := config
  cases variant with
  | vanilla => rfl
  | fpoPlusPlus mode => exact mean_const hsamples ((exp value - 1) - value)
  | flowGrpo => exact mean_const hsamples (1 / 2 * value ^ 2)

end Constants

end VerlVla
