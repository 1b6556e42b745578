import Mathlib.Algebra.Module.Basic
import Mathlib.Algebra.Order.Field.Rat
import Mathlib.Data.List.GetD
import Mathlib.Data.Rat.Floor
import Mathlib.Tactic.Linarith
import Mathlib.Tactic.Positivity
import Mathlib.Tactic.Ring

/-!
# Action chunks

A chunk is the list of its control ticks.  A tick holds the actions of all
environments and is an element of a rational vector space, so interpolation
and smoothing act on whole ticks, with exact arithmetic.
-/

namespace VerlVla
namespace ActionChunk

variable {A : Type} [AddCommGroup A] [Module ℚ A]

/-- `np.linspace(0, stop, count)` at one index. -/
def linspace (stop : ℚ) (count index : ℕ) : ℚ := index * stop / (count - 1)

/-- The cubic ramp of all action smoothing. -/
def rampWeight (count index : ℕ) : ℚ := let weight := linspace 1 count index
  weight * weight * (3 - 2 * weight)

def blend (weight : ℚ) (previous next : A) : A :=
  (1 - weight) • previous + weight • next

/-- Linearly upsample a chunk along time. -/
def interpolateActionChunk (factor : ℕ) (chunk : List A) : List A :=
  if factor = 1 then chunk
  else
    let outputSteps := chunk.length * factor
    (List.range outputSteps).map fun index =>
      let position := linspace ((chunk.length : ℚ) - 1) outputSteps index
      let left := ⌊position⌋.toNat
      let right := ⌈position⌉.toNat
      blend (position - ⌊position⌋) (chunk.getD left 0) (chunk.getD right 0)

/-- Blend the actual queued tail into the temporally aligned new plan. -/
def smoothActionChunkOverlap (previous next : List A) : List A :=
  let overlapSteps := min previous.length next.length
  next.mapIdx fun index action =>
    match previous[index]? with
    | some queued => blend (rampWeight overlapSteps index) queued action
    | none => action

/-! ## Weights -/

theorem linspace_mem_unit (hindex : index < count) :
    0 ≤ linspace 1 count index ∧ linspace 1 count index ≤ 1 := by
  have hcast : (index : ℚ) + 1 ≤ count := by exact_mod_cast hindex
  have hlow : (0 : ℚ) ≤ index := by positivity
  unfold linspace
  constructor
  · apply div_nonneg
    · linarith
    · linarith
  · apply div_le_one_of_le₀
    · linarith
    · linarith

theorem rampWeight_mem_unit (hindex : index < count) :
    0 ≤ rampWeight count index ∧ rampWeight count index ≤ 1 := by
  have hunit := linspace_mem_unit hindex
  unfold rampWeight
  generalize linspace 1 count index = weight at hunit
  have hrest : 0 ≤ 1 - weight := by linarith
  constructor
  · have hfactor : 0 ≤ 3 - 2 * weight := by linarith
    exact mul_nonneg (mul_nonneg hunit.1 hunit.1) hfactor
  · have hgap : 0 ≤ (1 - weight) * (1 - weight) * (1 + 2 * weight) := by
      apply mul_nonneg (mul_nonneg hrest hrest)
      linarith
    have hexpand : (1 - weight) * (1 - weight) * (1 + 2 * weight) =
        1 - weight * weight * (3 - 2 * weight) := by ring
    linarith

theorem rampWeight_zero (count : ℕ) : rampWeight count 0 = 0 := by
  simp [rampWeight, linspace]

theorem rampWeight_last (hcount : 2 ≤ count) :
    rampWeight count (count - 1) = 1 := by
  have hcast : ((count - 1 : ℕ) : ℚ) = (count : ℚ) - 1 := by
    rw [Nat.cast_sub (by omega), Nat.cast_one]
  have hpos : (count : ℚ) - 1 ≠ 0 := by
    have hlarge : (2 : ℚ) ≤ count := by exact_mod_cast hcount
    linarith
  have hend : linspace 1 count (count - 1) = 1 := by
    unfold linspace
    rw [hcast, mul_one, div_self hpos]
  unfold rampWeight
  rw [hend]
  norm_num

theorem linspace_le (hle : first ≤ second) (hsecond : second < count) :
    linspace 1 count first ≤ linspace 1 count second := by
  have hcast : (first : ℚ) ≤ second := by exact_mod_cast hle
  have hcount : (second : ℚ) + 1 ≤ count := by exact_mod_cast hsecond
  have hlow : (0 : ℚ) ≤ second := by positivity
  unfold linspace
  apply div_le_div_of_nonneg_right
  · linarith
  · linarith

theorem rampWeight_le (hle : first ≤ second) (hsecond : second < count) :
    rampWeight count first ≤ rampWeight count second := by
  have hfirstUnit := linspace_mem_unit (lt_of_le_of_lt hle hsecond)
  have hsecondUnit := linspace_mem_unit hsecond
  have hgrows := linspace_le hle hsecond
  unfold rampWeight
  generalize linspace 1 count first = x at *
  generalize linspace 1 count second = y at *
  have hx : 0 ≤ x * (1 - x) := mul_nonneg hfirstUnit.1 (by linarith)
  have hy : 0 ≤ y * (1 - y) := mul_nonneg hsecondUnit.1 (by linarith)
  have hslope : 0 ≤ 3 * (x + y) - 2 * (x * x + x * y + y * y) := by
    have hsquare : 0 ≤ (x - y) * (x - y) := mul_self_nonneg _
    have hexpand : 3 * (x + y) - 2 * (x * x + x * y + y * y) =
        3 * (x * (1 - x)) + 3 * (y * (1 - y)) + (x - y) * (x - y) := by ring
    linarith
  have hproduct := mul_nonneg (sub_nonneg.mpr hgrows) hslope
  have hexpand : (y - x) * (3 * (x + y) - 2 * (x * x + x * y + y * y)) =
      y * y * (3 - 2 * y) - x * x * (3 - 2 * x) := by ring
  linarith

/-! ## Lengths and elements -/

@[simp] theorem length_interpolateActionChunk (factor : ℕ)
    (chunk : List A) :
    (interpolateActionChunk factor chunk).length = chunk.length * factor := by
  unfold interpolateActionChunk
  split_ifs with hfactor
  · simp [hfactor]
  · simp

@[simp] theorem length_smoothActionChunkOverlap (previous next : List A) :
    (smoothActionChunkOverlap previous next).length = next.length := by
  simp [smoothActionChunkOverlap]

theorem smoothActionChunkOverlap_getElem {previous next : List A}
    {index : ℕ} {action : A}
    (hsmooth : (smoothActionChunkOverlap previous next)[index]? =
      some action) :
    ∃ element ∈ next[index]?, match previous[index]? with
      | none => action = element
      | some queued => ∃ weight : ℚ, 0 ≤ weight ∧ weight ≤ 1 ∧
          action = blend weight queued element := by
  simp only [smoothActionChunkOverlap, List.getElem?_mapIdx,
    Option.map_eq_some_iff] at hsmooth
  rcases hsmooth with ⟨element, helement, haction⟩
  refine ⟨element, helement, ?_⟩
  cases hprevious : previous[index]? with
  | none =>
    rw [hprevious] at haction
    exact haction.symm
  | some queued =>
    rw [hprevious] at haction
    have hlow : index < previous.length :=
      (List.getElem?_eq_some_iff.mp hprevious).1
    have hhigh : index < next.length :=
      (List.getElem?_eq_some_iff.mp helement).1
    have hweight := rampWeight_mem_unit (lt_min hlow hhigh)
    exact ⟨_, hweight.1, hweight.2, haction.symm⟩

theorem position_bounds {length outputSteps index : ℕ}
    (hlength : 0 < length) (hindex : index < outputSteps) :
    let position := linspace ((length : ℚ) - 1) outputSteps index
    ⌊position⌋.toNat < length ∧ ⌈position⌉.toNat < length ∧
      0 ≤ position - ⌊position⌋ ∧ position - ⌊position⌋ ≤ 1 := by
  intro position
  have hunit := linspace_mem_unit hindex
  have hone : (1 : ℚ) ≤ length := by exact_mod_cast hlength
  have hscale : position = linspace 1 outputSteps index * (length - 1) := by
    show index * ((length : ℚ) - 1) / (outputSteps - 1) =
      index * 1 / (outputSteps - 1) * (length - 1)
    ring
  have hhigh : position ≤ ((length - 1 : ℕ) : ℤ) := by
    have hend : (((length - 1 : ℕ) : ℤ) : ℚ) = (length : ℚ) - 1 := by
      rw [Int.cast_natCast, Nat.cast_sub hlength, Nat.cast_one]
    rw [hend, hscale]
    have hscaled := mul_le_mul_of_nonneg_right hunit.2
      (show (0 : ℚ) ≤ length - 1 by linarith)
    linarith
  have hceil : ⌈position⌉ ≤ ((length - 1 : ℕ) : ℤ) := Int.ceil_le.mpr hhigh
  have hfloor : ⌊position⌋ ≤ ⌈position⌉ := Int.floor_le_ceil position
  have hlow := Int.floor_le position
  have hnear := Int.lt_floor_add_one position
  constructor
  · omega
  · constructor
    · omega
    · constructor
      · linarith
      · linarith

theorem interpolateActionChunk_mem {factor : ℕ} {chunk : List A} {tick : A}
    (htick : tick ∈ interpolateActionChunk factor chunk) :
    ∃ weight : ℚ, 0 ≤ weight ∧ weight ≤ 1 ∧
      ∃ left ∈ chunk, ∃ right ∈ chunk, tick = blend weight left right := by
  unfold interpolateActionChunk at htick
  split_ifs at htick with hfactor
  · refine ⟨0, le_refl 0, zero_le_one, tick, htick, tick, htick, ?_⟩
    simp [blend]
  · obtain ⟨index, hindex, rfl⟩ := List.mem_map.mp htick
    have hrange := List.mem_range.mp hindex
    have hlength : 0 < chunk.length := by
      by_contra hnone
      have hzero : chunk.length = 0 := by omega
      rw [hzero, Nat.zero_mul] at hrange
      omega
    obtain ⟨hleft, hright, hlow, hhigh⟩ := position_bounds hlength hrange
    refine ⟨_, hlow, hhigh, _, ?_, _, ?_, rfl⟩
    · rw [List.getD_eq_getElem _ _ hleft]
      exact List.getElem_mem hleft
    · rw [List.getD_eq_getElem _ _ hright]
      exact List.getElem_mem hright

end ActionChunk
end VerlVla
