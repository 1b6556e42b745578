import Mathlib.Analysis.InnerProductSpace.Basic
import Mathlib.Tactic.FieldSimp
import Mathlib.Tactic.Linarith

/-!
# Means with a clamped denominator

A weighted part of a whole has the sum of its vectors and the total of its
weights.  Its mean divides by the total, but never by less than one.
-/

namespace VerlVla

open List hiding cons nil sum
namespace ClampedMeans

variable {ι κ M E : Type}

/-! ## Sums along labels -/

section Labels

variable [AddCommMonoid M] [DecidableEq κ]

theorem sum_filter_cons (p : ι → Bool) (f : ι → M) (row : ι) (rows : List ι) :
    (((row :: rows).filter p).map f).sum =
      (if p row then f row else 0) + ((rows.filter p).map f).sum := by
  by_cases hrow : p row = true
  · rw [filter_cons_of_pos hrow, if_pos hrow, map_cons, sum_cons]
  · rw [filter_cons_of_neg hrow, if_neg hrow, zero_add]

theorem sum_single {labels : List κ} (hnodup : labels.Nodup) (own : κ)
    (value : M) :
    (labels.map fun label => if own = label then value else 0).sum =
      if own ∈ labels then value else 0 := by
  induction labels with
  | nil => rfl
  | cons label labels ih =>
    rw [nodup_cons] at hnodup
    obtain ⟨hnew, hrest⟩ := hnodup
    rw [map_cons, sum_cons, ih hrest]
    by_cases howns : own = label
    · have hmem : own ∈ label :: labels := by
        rw [howns]
        exact mem_cons_self
      rw [if_pos howns, if_neg (howns ▸ hnew), if_pos hmem, add_zero]
    · simp [howns]

theorem sum_filter_labels {labels : List κ} (hnodup : labels.Nodup)
    (label : ι → κ) (p : ι → Bool) (f : ι → M) {rows : List ι}
    (hlabels : ∀ row ∈ rows, (p row = true ↔ label row ∈ labels)) :
    ((rows.filter p).map f).sum = (labels.map fun own =>
      ((rows.filter fun row => label row = own).map f).sum).sum := by
  induction rows with
  | nil => simp
  | cons row rows ih =>
    have hrest := ih fun other hother =>
      hlabels other (mem_cons_of_mem row hother)
    have hrow := hlabels row mem_cons_self
    have hsingle := sum_single hnodup (label row) (f row)
    have hsplit : (labels.map fun own => (((row :: rows).filter fun row =>
        label row = own).map f).sum).sum =
          (labels.map fun own => if label row = own then f row else 0).sum +
            (labels.map fun own =>
              ((rows.filter fun row => label row = own).map f).sum).sum := by
      rw [← sum_map_add]
      congr 1
      apply map_congr_left
      intro own _
      rw [sum_filter_cons]
      simp only [decide_eq_true_eq]
    rw [hsplit, hsingle, sum_filter_cons, hrest]
    simp only [hrow]

theorem sum_labels {labels : List κ} (hnodup : labels.Nodup)
    (label : ι → κ) (f : ι → M) {rows : List ι}
    (hlabels : ∀ row ∈ rows, label row ∈ labels) :
    (rows.map f).sum = (labels.map fun own =>
      ((rows.filter fun row => label row = own).map f).sum).sum := by
  have hall := sum_filter_labels hnodup label (fun _ => true) f
    (fun row hrow => ⟨fun _ => hlabels row hrow, fun _ => rfl⟩)
  rw [← hall, filter_eq_self.mpr fun _ _ => rfl]

theorem sum_filter_support (p : ι → Bool) (f : ι → M) {rows : List ι}
    (hzero : ∀ row ∈ rows, p row = false → f row = 0) :
    ((rows.filter p).map f).sum = (rows.map f).sum := by
  induction rows with
  | nil => rfl
  | cons row rows ih =>
    have hrest := ih fun other hother =>
      hzero other (mem_cons_of_mem row hother)
    rw [sum_filter_cons, hrest, map_cons, sum_cons]
    by_cases hrow : p row = true
    · rw [if_pos hrow]
    · rw [if_neg hrow, hzero row mem_cons_self (by simpa using hrow)]

end Labels

section Means

variable [AddCommGroup E] [Module ℝ E]

noncomputable def clampedMean (total : ℝ) (sum : E) : E :=
  (max total 1)⁻¹ • sum

theorem sum_map_smul (c : ℝ) (f : ι → E) (items : List ι) :
    (items.map fun item => c • f item).sum = c • (items.map f).sum := by
  induction items with
  | nil => simp
  | cons item items ih =>
    rw [map_cons, sum_cons, ih, map_cons, sum_cons, smul_add]

theorem sum_map_const {weight : ι → ℝ} {value : ℝ} {parts : List ι}
    (hweight : ∀ part ∈ parts, weight part = value) :
    (parts.map weight).sum = parts.length * value := by
  rw [map_congr_left hweight, map_const', sum_replicate, nsmul_eq_mul]

theorem clampedMean_of_parts {parts : List ι} (hparts : parts ≠ [])
    {weight : ι → ℝ} (vector : ι → E) {value : ℝ} (hvalue : 1 ≤ value)
    (hweight : ∀ part ∈ parts, weight part = value) :
    clampedMean (parts.map weight).sum (parts.map vector).sum =
      (parts.length : ℝ)⁻¹ • (parts.map fun part =>
        clampedMean (weight part) (vector part)).sum := by
  have hlength : (1 : ℝ) ≤ parts.length := by
    exact_mod_cast length_pos_of_ne_nil hparts
  have htotal : 1 ≤ parts.length * value := by nlinarith
  have hmeans : parts.map (fun part =>
      clampedMean (weight part) (vector part)) =
        parts.map fun part => value⁻¹ • vector part := by
    apply map_congr_left
    intro part hpart
    rw [clampedMean, hweight part hpart, max_eq_left hvalue]
  rw [hmeans, sum_map_smul, smul_smul, clampedMean, sum_map_const hweight,
    max_eq_left htotal, mul_inv]

end Means

section Norms

variable [NormedAddCommGroup E]

theorem norm_sum_le (vectors : List E) :
    ‖vectors.sum‖ ≤ (vectors.map norm).sum := by
  induction vectors with
  | nil => simp
  | cons vector vectors ih =>
    have hadd := norm_add_le vector vectors.sum
    rw [sum_cons, map_cons, sum_cons]
    linarith

variable [InnerProductSpace ℝ E]

theorem norm_mean_ratio_le {vectors : List E} (hvectors : vectors ≠ [])
    (hfloor : 0 < floor) :
    ‖(vectors.length : ℝ)⁻¹ • vectors.sum‖ * vectors.length /
      max (vectors.map norm).sum floor ≤ 1 := by
  have hlength : (0 : ℝ) < vectors.length := by
    exact_mod_cast length_pos_of_ne_nil hvectors
  have hpositive : 0 < max (vectors.map norm).sum floor :=
    lt_max_of_lt_right hfloor
  have hscale : ‖(vectors.length : ℝ)⁻¹ • vectors.sum‖ * vectors.length =
      ‖vectors.sum‖ := by
    rw [norm_smul, norm_inv, Real.norm_natCast]
    field_simp
  rw [div_le_one hpositive, hscale]
  exact (norm_sum_le vectors).trans (le_max_left _ _)

/-! ## Linear combinations -/

variable (coefficient : ι → ℝ) (vector : ι → E)

def combination (items : List ι) : E :=
  (items.map fun item => coefficient item • vector item).sum

theorem inner_combination (left : E) (items : List ι) :
    inner ℝ left (combination coefficient vector items) =
      (items.map fun item =>
        coefficient item * inner ℝ left (vector item)).sum := by
  unfold combination
  induction items with
  | nil => simp
  | cons item items ih =>
    rw [map_cons, sum_cons, inner_add_right, ih,
      inner_smul_right, map_cons, sum_cons]

theorem combination_inner (right : E) (items : List ι) :
    inner ℝ (combination coefficient vector items) right =
      (items.map fun item =>
        coefficient item * inner ℝ (vector item) right).sum := by
  rw [real_inner_comm, inner_combination]
  simp only [real_inner_comm]

theorem sum_gram (items : List ι) :
    (items.map fun left => (items.map fun right =>
        coefficient left * coefficient right *
          inner ℝ (vector left) (vector right)).sum).sum =
      ‖combination coefficient vector items‖ ^ 2 := by
  have hrows : ∀ left ∈ items, (items.map fun right =>
      coefficient left * coefficient right *
        inner ℝ (vector left) (vector right)).sum =
      coefficient left * inner ℝ (vector left)
        (combination coefficient vector items) := by
    intro left _
    simp only [inner_combination, ← sum_map_mul_left, mul_assoc]
  rw [map_congr_left hrows, ← combination_inner, real_inner_self_eq_norm_sq]

/-- Combined in proportion to their weights, the means of parts that are not
clamped give the mean of the whole. -/
theorem combination_of_clampedMeans (hparts : parts ≠ [])
    (hweight : ∀ part ∈ parts, 1 ≤ weight part) (hcoefficient : ∀ part ∈ parts,
      coefficient part = weight part / (parts.map weight).sum) :
    combination coefficient
        (fun part => clampedMean (weight part) (vector part)) parts =
      clampedMean (parts.map weight).sum (parts.map vector).sum := by
  have htotal : 1 ≤ (parts.map weight).sum := by
    obtain ⟨part, hpart⟩ := exists_mem_of_ne_nil parts hparts
    have hle : weight part ≤ (parts.map weight).sum := by
      apply single_le_sum _ _ (mem_map_of_mem hpart)
      intro value hvalue
      obtain ⟨other, hother, rfl⟩ := mem_map.mp hvalue
      exact zero_le_one.trans (hweight other hother)
    exact (hweight part hpart).trans hle
  have hterms : parts.map (fun part =>
      coefficient part • clampedMean (weight part) (vector part)) =
        parts.map fun part => (parts.map weight).sum⁻¹ • vector part := by
    apply map_congr_left
    intro part hpart
    have hone := hweight part hpart
    have hne : weight part ≠ 0 := by linarith
    rw [clampedMean, max_eq_left hone, smul_smul, hcoefficient part hpart]
    congr 1
    field_simp
  rw [combination, hterms, sum_map_smul, clampedMean, max_eq_left htotal]

end Norms

end ClampedMeans
end VerlVla
