import Mathlib.Algebra.BigOperators.Expect
import Mathlib.Algebra.BigOperators.Field
import Mathlib.Tactic.FieldSimp
import Mathlib.Tactic.Ring

/-!
# Nested means as weighted sums

Dividing every weight by the number of members of its block turns a sum over
all members into a sum of block means.  Blocks of one length cover a range.
-/

namespace VerlVla
namespace NestedMeans

open Finset

variable {ι κ K : Type} [Field K] [CharZero K]

theorem sum_div_card (s : Finset ι) (f : ι → K) :
    ∑ i ∈ s, f i / #s = s.expect f := by
  rw [expect_eq_sum_div_card, sum_div]

/-- Weights divided by the size of their own block and scaled per block. -/
theorem sum_scaled_blocks (s : Finset ι) (members : ι → Finset κ)
    (scale : ι → K) (f : ι → κ → K) :
    ∑ i ∈ s, ∑ c ∈ members i, 1 / #(members i) * scale i * f i c =
      ∑ i ∈ s, scale i * (members i).expect (f i) := by
  apply sum_congr rfl
  intro i _
  rw [← sum_div_card, mul_sum]
  apply sum_congr rfl
  intro c _
  ring

theorem sum_div_fibre [DecidableEq κ] (s : Finset ι) (label : ι → κ)
    (f : ι → K) :
    ∑ i ∈ s, 1 / #{j ∈ s | label j = label i} * f i =
      ∑ k ∈ s.image label, ({i ∈ s | label i = k} : Finset ι).expect f := by
  have hfibre : ∀ k ∈ s.image label,
      ∑ i ∈ s with label i = k, 1 / #{j ∈ s | label j = label i} * f i =
        ({i ∈ s | label i = k} : Finset ι).expect f := by
    intro k _
    rw [← sum_div_card]
    apply sum_congr rfl
    intro i hi
    rw [(mem_filter.mp hi).2]
    ring
  rw [← sum_fiberwise_of_maps_to (fun i hi => mem_image_of_mem label hi)]
  exact sum_congr rfl hfibre

theorem sum_range_blocks {M : Type} [AddCommMonoid M] (count size : ℕ)
    (f : ℕ → M) :
    ∑ i ∈ range (count * size), f i =
      ∑ g ∈ range count, ∑ i ∈ range size, f (g * size + i) := by
  induction count with
  | zero => simp
  | succ count ih =>
    rw [Nat.succ_mul, sum_range_add, ih, sum_range_succ]

theorem sum_range_eq_card_mul_expect (size : ℕ) (f : ℕ → K) :
    ∑ i ∈ range size, f i = size * (range size).expect f := by
  have hcard := card_mul_expect (range size) f
  rw [card_range] at hcard
  exact hcard.symm

theorem sum_range_getD {M : Type} [AddCommMonoid M] (positions : List ℕ)
    (f : ℕ → M) :
    ∑ k ∈ range positions.length, f (positions.getD k 0) =
      (positions.map f).sum := by
  induction positions with
  | nil => rfl
  | cons position positions ih =>
    rw [List.length_cons, sum_range_succ', List.map_cons, List.sum_cons,
      ← ih, add_comm]
    rfl

theorem sum_map_filter_range {M : Type} [AddCommMonoid M] (n : ℕ)
    (keep : ℕ → Prop) [DecidablePred keep] (f : ℕ → M) :
    (((List.range n).filter fun i => keep i).map f).sum =
      ∑ i ∈ range n with keep i, f i := rfl

theorem count_eq_card {α : Type} [DecidableEq α] (labels : List α)
    (label : α) (default : α) :
    labels.count label =
      #{j ∈ range labels.length | labels.getD j default = label} := by
  have hlabels : labels =
      (List.range labels.length).map (labels.getD · default) := by
    apply List.ext_getElem
    · simp
    · intro j hj _
      simp [List.getD_eq_getElem?_getD, hj]
  calc labels.count label
      = ((List.range labels.length).map (labels.getD · default)).count
          label := congrArg (List.count label) hlabels
    _ = ((List.range labels.length).filter fun j =>
          labels.getD j default = label).length := by
        rw [List.count_eq_countP, List.countP_map,
          List.countP_eq_length_filter]
        simp only [Function.comp_def, beq_eq_decide]
    _ = #{j ∈ range labels.length | labels.getD j default = label} := rfl

end NestedMeans
end VerlVla
