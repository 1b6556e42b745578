import Mathlib.Algebra.Order.Field.Basic
import Mathlib.Data.Rat.Floor
import VerlVla.FairAllocation
import VerlVla.ReplayHistory

/-!
# Sampling from the replay pool

A sample mixes positive and negative transitions in a given ratio.  What one
polarity cannot supply is taken from the other, and within a polarity the
tasks take turns.  Rows that are still missing are copies marked as invalid.
The random permutations and the product of batch size and ratio in floating
point are inputs of the model.
-/

namespace VerlVla

variable {τ D : Type}

/-- Python's `round`: ties go to the even integer. -/
def pyRound (x : ℚ) : ℤ := let below := ⌊x⌋
  let rest := x - below
  if rest < 1 / 2 then below
  else if 1 / 2 < rest then below + 1
  else if below % 2 = 0 then below
  else below + 1

/-- A stored row. -/
structure ReplaySlot where
  task : String
  positive : Bool
  index : ℕ
  deriving DecidableEq

/-- The permutations that `randperm` returns. -/
structure SampleDraws where
  task : Bool → String → List ℕ
  shuffle : List ℕ

structure SampleInfo where
  actualPositiveSampleRatio : ℚ
  positiveSize : ℕ
  negativeSize : ℕ
  taskCount : ℕ
  deriving DecidableEq

inductive SampleError
  | poolEmpty
  | notEnough (requested available : ℕ)
  | noEligibleTask
  | nothingSampled
  deriving DecidableEq

namespace ReplayPool

/-- The product of batch size and ratio, as the machine computes it. -/
abbrev Product : Type := ℕ → ℚ → ℚ

def clampedRatio (ratio : ℚ) : ℚ := max 0 (min 1 ratio)

def positiveSampleRatio (positiveOnly : Bool) (ratio : ℚ) : ℚ :=
  if positiveOnly then 1 else clampedRatio ratio

def targetPositive (product : Product) (positiveOnly : Bool)
    (batchSize : ℕ) (ratio : ℚ) : ℕ :=
  (pyRound (product batchSize (positiveSampleRatio positiveOnly ratio))).toNat

/-- Sampled rows of each polarity; a deficit is first taken from the polarity
with more rows left. -/
def sampleCounts (positiveSize negativeSize batchSize target : ℕ) : ℕ × ℕ :=
  let sampledPositive := min target positiveSize
  let sampledNegative := min (batchSize - target) negativeSize
  let deficit := batchSize - sampledPositive - sampledNegative
  let remainingPositive := positiveSize - sampledPositive
  let remainingNegative := negativeSize - sampledNegative
  if 0 < deficit then
    if remainingNegative ≤ remainingPositive then
      let extraPositive := min deficit remainingPositive
      (sampledPositive + extraPositive,
        sampledNegative + min (deficit - extraPositive) remainingNegative)
    else
      let extraNegative := min deficit remainingNegative
      (sampledPositive + min (deficit - extraNegative) remainingPositive,
        sampledNegative + extraNegative)
  else (sampledPositive, sampledNegative)

/-- The tasks with rows of this polarity, nothing taken yet. -/
def taskShares (pool : ReplayPool D) (positive : Bool) : List (Share String) :=
  (pool.taskPools.entries.filter fun entry =>
      0 < (entry.2.ring positive).size).map fun entry =>
    { key := entry.1
      size := (entry.2.ring positive).size
      count := 0 }

def allocateCountsAcrossTasks (shares : List (Share String))
    (totalCount : ℕ) : Except SampleError (List (Share String)) := do
  require (totalCount ≤ Share.available shares)
    (.notEnough totalCount (Share.available shares))
  match Share.allocateLoop totalCount shares totalCount with
  | some allocation => .ok allocation
  | none => .error .noEligibleTask

/-- The first indices of a permutation of the stored rows. -/
def sampleFromSingleTaskPool (draws : SampleDraws) (positive : Bool)
    (share : Share String) : List ReplaySlot :=
  ((draws.task positive share.key).take share.count).map fun index =>
    { task := share.key
      positive := positive
      index := index }

def sampleFromTaskPools (pool : ReplayPool D) (draws : SampleDraws)
    (count : ℕ) (positive : Bool) : Except SampleError (List ReplaySlot) :=
  if count = 0 then .ok []
  else do
    let allocation ← allocateCountsAcrossTasks (pool.taskShares positive) count
    pure (allocation.flatMap (sampleFromSingleTaskPool draws positive))

/-- Copies of the first row, marked as invalid, up to the batch size. -/
def padSampledBatch [Inhabited D] (rows : List (ReplayRow D))
    (targetBatchSize : ℕ) : List (ReplayRow D) :=
  rows ++ List.replicate (targetBatchSize - rows.length)
    { rows.headD default with valid := 0 }

def rowAt [Inhabited D] (pool : ReplayPool D) (slot : ReplaySlot) :
    ReplayRow D :=
  (pool.ring slot.task slot.positive).cells.getD slot.index default

def sampleInfo (pool : ReplayPool D) (ratio : ℚ) : SampleInfo where
  actualPositiveSampleRatio := ratio
  positiveSize := pool.positiveSize
  negativeSize := pool.negativeSize
  taskCount := pool.taskPools.entries.length

def sampleBatch [Inhabited D] (product : Product) (pool : ReplayPool D)
    (batchSize : ℕ) (ratio : ℚ) (draws : SampleDraws) :
    Except SampleError (List (ReplayRow D) × SampleInfo) :=
  if pool.size = 0 then
    match pool.invalidSample with
    | none => .error .poolEmpty
    | some sample => .ok
        (List.replicate batchSize { sample with valid := 0 },
          pool.sampleInfo 0)
  else do
    let counts := sampleCounts pool.positiveSize pool.negativeSize batchSize
      (targetPositive product pool.positiveOnly batchSize ratio)
    require (0 < counts.1 + counts.2) .nothingSampled
    let positives ← sampleFromTaskPools pool draws counts.1 true
    let negatives ← sampleFromTaskPools pool draws counts.2 false
    let padded := padSampledBatch
      ((positives ++ negatives).map pool.rowAt) batchSize
    pure (draws.shuffle.map fun i => padded.getD i default,
      pool.sampleInfo (counts.1 / (max batchSize 1 : ℕ)))

def load (pool : ReplayPool D) : ReplayPool D :=
  { pool with invalidSample := none }.refreshGlobalStats

/-! ## Target counts -/

theorem pyRound_bounds {x : ℚ} {n : ℕ} (hnonneg : 0 ≤ x) (hle : x ≤ n) :
    0 ≤ pyRound x ∧ pyRound x ≤ n := by
  have hbelow : 0 ≤ ⌊x⌋ := Int.floor_nonneg.mpr hnonneg
  have habove : ⌊x⌋ ≤ n := by
    have hfloor : (⌊x⌋ : ℚ) ≤ n := (Int.floor_le x).trans hle
    exact_mod_cast hfloor
  have hlast : 0 < x - ⌊x⌋ → ⌊x⌋ + 1 ≤ n := by
    intro hrest
    have hless : (⌊x⌋ : ℚ) < n := by linarith
    exact_mod_cast hless
  unfold pyRound
  dsimp only
  split_ifs with hsmall hlarge heven
  · exact ⟨hbelow, habove⟩
  · exact ⟨by omega, hlast (by linarith)⟩
  · exact ⟨hbelow, habove⟩
  · exact ⟨by omega, hlast (by linarith)⟩

theorem clampedRatio_bounds (ratio : ℚ) :
    0 ≤ clampedRatio ratio ∧ clampedRatio ratio ≤ 1 :=
  ⟨le_max_left _ _, max_le zero_le_one (min_le_left _ _)⟩

theorem positiveSampleRatio_bounds (positiveOnly : Bool) (ratio : ℚ) :
    0 ≤ positiveSampleRatio positiveOnly ratio ∧
      positiveSampleRatio positiveOnly ratio ≤ 1 := by
  unfold positiveSampleRatio
  split_ifs
  · exact ⟨zero_le_one, le_refl 1⟩
  · exact clampedRatio_bounds ratio

/-- The machine product of a batch size and a ratio stays between zero and
the batch size. -/
def Product.Bounded (product : Product) : Prop :=
  ∀ batchSize ratio, 0 ≤ ratio → ratio ≤ 1 →
    0 ≤ product batchSize ratio ∧ product batchSize ratio ≤ batchSize

theorem Product.Bounded.target {product : Product}
    (hproduct : product.Bounded) (batchSize : ℕ) (ratio : ℚ) :
    0 ≤ pyRound (product batchSize (clampedRatio ratio)) ∧
      pyRound (product batchSize (clampedRatio ratio)) ≤ batchSize := by
  obtain ⟨hzero, hone⟩ := clampedRatio_bounds ratio
  obtain ⟨hnonneg, hle⟩ := hproduct batchSize _ hzero hone
  exact pyRound_bounds hnonneg hle

theorem targetPositive_le {product : Product} (hproduct : product.Bounded)
    (positiveOnly : Bool) (batchSize : ℕ) (ratio : ℚ) :
    targetPositive product positiveOnly batchSize ratio ≤ batchSize ∧
      (targetPositive product positiveOnly batchSize ratio : ℤ) =
        pyRound (product batchSize
          (positiveSampleRatio positiveOnly ratio)) := by
  obtain ⟨hzero, hone⟩ := positiveSampleRatio_bounds positiveOnly ratio
  obtain ⟨hnonneg, hle⟩ := hproduct batchSize _ hzero hone
  obtain ⟨hround, hbound⟩ := pyRound_bounds hnonneg hle
  unfold targetPositive
  constructor
  · omega
  · exact Int.toNat_of_nonneg hround

/-- Rows of each polarity in a sample. -/
structure CountLaw (positiveSize negativeSize batchSize : ℕ) (target : ℤ)
    (positives negatives : ℕ) : Prop where
  positive_le : positives ≤ positiveSize
  negative_le : negatives ≤ negativeSize
  total : positives + negatives = min batchSize (positiveSize + negativeSize)
  supplied : target ≤ positiveSize → batchSize - target ≤ negativeSize →
    (positives : ℤ) = target ∧ (negatives : ℤ) = batchSize - target
  positive_short : (positives : ℤ) < target → positives = positiveSize
  negative_short : (negatives : ℤ) < batchSize - target →
    negatives = negativeSize

theorem CountLaw.of_no_negatives {positiveSize batchSize positives
    negatives : ℕ} {target other : ℤ}
    (hlaw : CountLaw positiveSize 0 batchSize target positives negatives)
    (hle : other ≤ batchSize) :
    CountLaw positiveSize 0 batchSize other positives negatives := by
  have hpositive := hlaw.positive_le
  have hnegative := hlaw.negative_le
  have htotal := hlaw.total
  constructor
  case positive_le => exact hpositive
  case negative_le => exact hnegative
  case total => exact htotal
  case supplied => omega
  case positive_short => omega
  case negative_short => omega

theorem sampleCounts_law (htarget : target ≤ batchSize)
    (positiveSize negativeSize : ℕ) :
    CountLaw positiveSize negativeSize batchSize target
      (sampleCounts positiveSize negativeSize batchSize target).1
      (sampleCounts positiveSize negativeSize batchSize target).2 := by
  unfold sampleCounts
  dsimp only
  split_ifs with hdeficit hmore
  · constructor <;> dsimp only <;> omega
  · constructor <;> dsimp only <;> omega
  · constructor <;> dsimp only <;> omega

end ReplayPool
end VerlVla
