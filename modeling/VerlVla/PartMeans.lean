import Mathlib.Algebra.BigOperators.Group.List.Basic
import Mathlib.Algebra.BigOperators.Ring.List
import Mathlib.Algebra.Group.Action.Defs
import Mathlib.Algebra.Order.BigOperators.Group.List
import Mathlib.Algebra.Order.Field.Basic
import Mathlib.Data.Nat.Cast.Order.Field
import Mathlib.Tactic.FieldSimp
import Mathlib.Tactic.LinearCombination
import Mathlib.Tactic.Push
import Mathlib.Tactic.Ring

/-!
# Means of means over parts

A list is cut into parts, the valid items of each part are averaged with a
divisor of at least one, and the averages are averaged once more.  The result is
the average over the whole list for all values exactly when the parts have the
same number of valid items.
-/

namespace VerlVla

open List hiding after cons count nil sum
namespace PartMeans

variable {ι K : Type} [Field K]

def maskedSum (valid : ι → Bool) (f : ι → K) (items : List ι) : K :=
  (items.map fun item => if valid item then f item else 0).sum

def Even (valid : ι → Bool) (parts : List (List ι)) : Prop :=
  ∀ part ∈ parts, ∀ other ∈ parts, part.countP valid = other.countP valid

instance (valid : ι → Bool) (parts : List (List ι)) :
    Decidable (Even valid parts) :=
  inferInstanceAs (Decidable (∀ part ∈ parts, ∀ other ∈ parts,
    part.countP valid = other.countP valid))

theorem even_map {κ : Type} {g : κ → ι} {parts : List (List κ)} :
    Even valid (parts.map (List.map g)) ↔ Even (valid ∘ g) parts := by
  simp only [Even, forall_mem_map, countP_map]

/-! ## Sums over valid items -/

theorem maskedSum_flatten (valid : ι → Bool) (f : ι → K)
    (parts : List (List ι)) :
    maskedSum valid f parts.flatten = (parts.map (maskedSum valid f)).sum := by
  induction parts with
  | nil => rfl
  | cons part parts ih =>
    rw [map_cons, sum_cons, ← ih, flatten_cons, maskedSum,
      map_append, sum_append]
    rfl

theorem maskedSum_eq_zero {f : ι → K}
    (hzero : ∀ item ∈ items, valid item = true → f item = 0) :
    maskedSum valid f items = 0 := by
  unfold maskedSum
  apply sum_eq_zero
  intro value hvalue
  obtain ⟨item, hitem, rfl⟩ := mem_map.mp hvalue
  by_cases hvalid : valid item = true
  · rw [if_pos hvalid, hzero item hitem hvalid]
  · rw [if_neg hvalid]

theorem maskedSum_of_const {f : ι → K}
    (hconst : ∀ item ∈ items, f item = value) :
    maskedSum valid f items = items.countP valid * value := by
  induction items with
  | nil => simp [maskedSum]
  | cons item items ih =>
    have hrest := ih fun other hother =>
      hconst other (mem_cons_of_mem item hother)
    have hsplit : maskedSum valid f (item :: items) =
        (if valid item then f item else 0) + maskedSum valid f items := rfl
    rw [hsplit, hrest, hconst item mem_cons_self]
    by_cases hvalid : valid item = true
    · rw [if_pos hvalid, countP_cons_of_pos hvalid]
      push_cast
      ring
    · rw [if_neg hvalid, countP_cons_of_neg hvalid, zero_add]

theorem maskedSum_map {κ : Type} (g : κ → ι) (valid : ι → Bool) (f : ι → K)
    (items : List κ) :
    maskedSum valid f (items.map g) = maskedSum (valid ∘ g) (f ∘ g) items := by
  unfold maskedSum
  rw [map_map]
  rfl

theorem maskedSum_sub (valid : ι → Bool) (f g : ι → K) (items : List ι) :
    maskedSum valid f items - maskedSum valid g items =
      maskedSum valid (f - g) items := by
  induction items with
  | nil => exact sub_zero 0
  | cons item items ih =>
    have hsplit (h : ι → K) : maskedSum valid h (item :: items) =
        (if valid item then h item else 0) + maskedSum valid h items := rfl
    rw [hsplit, hsplit, hsplit, ← ih, Pi.sub_apply]
    by_cases hvalid : valid item = true
    · rw [if_pos hvalid, if_pos hvalid, if_pos hvalid]
      ring
    · rw [if_neg hvalid, if_neg hvalid, if_neg hvalid]
      ring

/-! ## Means -/

variable [LinearOrder K]

def maskedMean (valid : ι → Bool) (f : ι → K) (items : List ι) : K :=
  maskedSum valid f items / max (items.countP valid : K) 1

def meanOfMeans (valid : ι → Bool) (f : ι → K) (parts : List (List ι)) : K :=
  (parts.map (maskedMean valid f)).sum / parts.length

theorem maskedMean_map {κ : Type} (g : κ → ι) (valid : ι → Bool) (f : ι → K)
    (items : List κ) :
    maskedMean valid f (items.map g) =
      maskedMean (valid ∘ g) (f ∘ g) items := by
  unfold maskedMean
  rw [maskedSum_map, countP_map]

theorem meanOfMeans_map {κ : Type} (g : κ → ι) (valid : ι → Bool) (f : ι → K)
    (parts : List (List κ)) :
    meanOfMeans valid f (parts.map (List.map g)) =
      meanOfMeans (valid ∘ g) (f ∘ g) parts := by
  unfold meanOfMeans
  rw [map_map, length_map]
  congr 2
  apply map_congr_left
  intro part _
  exact maskedMean_map g valid f part

theorem maskedMean_sub (valid : ι → Bool) (f g : ι → K) (items : List ι) :
    maskedMean valid f items - maskedMean valid g items =
      maskedMean valid (f - g) items := by
  unfold maskedMean
  rw [← sub_div, maskedSum_sub]

theorem meanOfMeans_sub (valid : ι → Bool) (f g : ι → K)
    (parts : List (List ι)) :
    meanOfMeans valid f parts - meanOfMeans valid g parts =
      meanOfMeans valid (f - g) parts := by
  unfold meanOfMeans
  rw [← sub_div]
  congr 1
  induction parts with
  | nil => exact sub_zero 0
  | cons part parts ih =>
    rw [map_cons, map_cons, map_cons, sum_cons,
      sum_cons, sum_cons, ← ih, ← maskedMean_sub]
    ring

theorem meanOfMeans_eq_zero {f : ι → K} (hzero : ∀ item, f item = 0)
    (parts : List (List ι)) :
    meanOfMeans valid f parts = 0 := by
  have hmeans : (parts.map (maskedMean valid f)).sum = 0 := by
    apply sum_eq_zero
    intro mean hmean
    obtain ⟨part, _, rfl⟩ := mem_map.mp hmean
    rw [maskedMean, maskedSum_eq_zero fun item _ _ => hzero item, zero_div]
  rw [meanOfMeans, hmeans, zero_div]

theorem meanOfMeans_singleton (valid : ι → Bool) (f : ι → K) (items : List ι) :
    meanOfMeans valid f [items] = maskedMean valid f items := by
  simp [meanOfMeans]

variable [IsStrictOrderedRing K]

/-- Parts with the same number of valid items. -/
theorem meanOfMeans_of_even (heven : Even valid parts) (f : ι → K) :
    meanOfMeans valid f parts = maskedMean valid f parts.flatten := by
  cases parts with
  | nil => simp [meanOfMeans, maskedMean, maskedSum]
  | cons first rest =>
    have hcount : ∀ part ∈ first :: rest,
        part.countP valid = first.countP valid := by
      intro part hpart
      exact heven part hpart first mem_cons_self
    generalize first.countP valid = count at hcount
    generalize hparts : first :: rest = parts at hcount
    have htotal : parts.flatten.countP valid = parts.length * count := by
      rw [countP_flatten, map_congr_left hcount, map_const',
        sum_replicate, smul_eq_mul]
    have hlength : (parts.length : K) ≠ 0 := by
      rw [← hparts, length_cons]
      exact Nat.cast_ne_zero.mpr (Nat.succ_ne_zero _)
    have hmean : ∀ part ∈ parts, maskedMean valid f part =
        maskedSum valid f part * (max (count : K) 1)⁻¹ := by
      intro part hpart
      rw [maskedMean, hcount part hpart, div_eq_mul_inv]
    rw [meanOfMeans, maskedMean, map_congr_left hmean,
      sum_map_mul_right, ← maskedSum_flatten, htotal,
      ← div_eq_mul_inv]
    by_cases hzero : count = 0
    · have hnone : maskedSum valid f parts.flatten = 0 := by
        apply maskedSum_eq_zero
        intro item hitem hvalid
        rw [hzero, Nat.mul_zero] at htotal
        have habsent := countP_eq_zero.mp htotal item hitem
        contradiction
      rw [hnone, zero_div, zero_div, zero_div]
    · have hpos : (1 : K) ≤ count := by
        exact_mod_cast Nat.one_le_iff_ne_zero.mpr hzero
      have hall : (1 : K) ≤ (parts.length * count : ℕ) := by
        rw [Nat.one_le_cast, ← hparts, length_cons]
        exact Nat.mul_pos (Nat.succ_pos _) (Nat.pos_of_ne_zero hzero)
      rw [max_eq_left hpos, max_eq_left hall]
      push_cast
      have hcast : (count : K) ≠ 0 := Nat.cast_ne_zero.mpr hzero
      field_simp

/-- Parts that each have their share where they have any are even. -/
theorem even_of_shares {parts : List (List ι)}
    (hshares : ∀ part ∈ parts, 0 < part.countP valid →
      parts.length * part.countP valid = parts.flatten.countP valid) :
    Even valid parts := by
  by_cases htotal : parts.flatten.countP valid = 0
  · have hzero : ∀ part ∈ parts, part.countP valid = 0 := by
      intro part hpart
      rw [countP_eq_zero] at htotal ⊢
      intro item hitem
      exact htotal item (mem_flatten.mpr ⟨part, hpart, hitem⟩)
    intro part hpart other hother
    rw [hzero part hpart, hzero other hother]
  · have hle : ∀ part ∈ parts,
        parts.length * part.countP valid ≤ parts.flatten.countP valid := by
      intro part hpart
      by_cases hsome : 0 < part.countP valid
      · exact (hshares part hpart hsome).le
      · rw [Nat.eq_zero_of_not_pos hsome, Nat.mul_zero]
        exact Nat.zero_le _
    -- a part with no valid item would leave the others more than their shares
    have hall : ∀ part ∈ parts, 0 < part.countP valid := by
      by_contra hsome
      push Not at hsome
      obtain ⟨part, hpart, hzero⟩ := hsome
      have hlt : (parts.map fun part =>
          parts.length * part.countP valid).sum <
            (parts.map fun _ => parts.flatten.countP valid).sum := by
        apply sum_lt_sum _ _ hle
        refine ⟨part, hpart, ?_⟩
        rw [Nat.le_zero.mp hzero, Nat.mul_zero]
        exact Nat.pos_of_ne_zero htotal
      rw [sum_map_mul_left, map_const', sum_replicate,
        smul_eq_mul, countP_flatten] at hlt
      exact lt_irrefl _ hlt
    intro part hpart other hother
    have hlength : 0 < parts.length := length_pos_of_mem hpart
    apply Nat.eq_of_mul_eq_mul_left hlength
    rw [hshares part hpart (hall part hpart),
      hshares other hother (hall other hother)]

section Separation

variable [DecidableEq ι]

def onPart (part : List ι) (value : K) (item : ι) : K :=
  if item ∈ part then value else 0

/-- A part whose items are in no other part has its share of the valid items
where it has any. -/
theorem count_of_meanOfMeans_onPart {valid : ι → Bool}
    {parts : List (List ι)} (hnodup : parts.flatten.Nodup) {part : List ι}
    (hpart : part ∈ parts) {value : K} (hvalue : value ≠ 0)
    (heq : meanOfMeans valid (onPart part value) parts =
      maskedMean valid (onPart part value) parts.flatten)
    (hsome : 0 < part.countP valid) :
    parts.length * part.countP valid = parts.flatten.countP valid := by
  obtain ⟨before, after, rfl⟩ := append_of_mem hpart
  rw [flatten_append, flatten_cons, nodup_append, nodup_append] at hnodup
  obtain ⟨_, ⟨_, _, hafter⟩, hbefore⟩ := hnodup
  have hinside : maskedSum valid (onPart part value) part =
      part.countP valid * value := by
    apply maskedSum_of_const
    intro item hitem
    exact if_pos hitem
  have houtside : ∀ other ∈ before ++ after,
      maskedSum valid (onPart part value) other = 0 := by
    intro other hother
    apply maskedSum_eq_zero
    intro item hitem _
    apply if_neg
    intro hmem
    rcases mem_append.mp hother with hother | hother
    · exact hbefore item (mem_flatten.mpr ⟨other, hother, hitem⟩) item
        (mem_append_left _ hmem) rfl
    · exact hafter item hmem item (mem_flatten.mpr ⟨other, hother, hitem⟩) rfl
  have hzero (others : List (List ι))
      (hothers : ∀ other ∈ others, other ∈ before ++ after) :
      (others.map (maskedMean valid (onPart part value))).sum = 0 := by
    apply sum_eq_zero
    intro mean hmean
    obtain ⟨other, hother, rfl⟩ := mem_map.mp hmean
    rw [maskedMean, houtside other (hothers other hother), zero_div]
  have hnone (others : List (List ι))
      (hothers : ∀ other ∈ others, other ∈ before ++ after) :
      (others.map (maskedSum valid (onPart part value))).sum = 0 := by
    apply sum_eq_zero
    intro sum hsum
    obtain ⟨other, hother, rfl⟩ := mem_map.mp hsum
    exact houtside other (hothers other hother)
  have hleft : ∀ other ∈ before, other ∈ before ++ after := by
    intro other hother
    exact mem_append_left after hother
  have hright : ∀ other ∈ after, other ∈ before ++ after := by
    intro other hother
    exact mem_append_right before hother
  have hmean : meanOfMeans valid (onPart part value)
      (before ++ part :: after) =
        value / (before ++ part :: after).length := by
    have hone : (1 : K) ≤ part.countP valid := by exact_mod_cast hsome
    have hne : (part.countP valid : K) ≠ 0 := Nat.cast_ne_zero.mpr hsome.ne'
    rw [meanOfMeans, map_append, map_cons, sum_append,
      sum_cons, hzero before hleft, hzero after hright, zero_add,
      add_zero, maskedMean, hinside, max_eq_left hone,
      mul_div_cancel_left₀ value hne]
  have htotal : part.countP valid ≤
      (before ++ part :: after).flatten.countP valid := by
    rw [flatten_append, flatten_cons, countP_append, countP_append]
    omega
  have hwhole : maskedMean valid (onPart part value)
      (before ++ part :: after).flatten = part.countP valid * value /
        (before ++ part :: after).flatten.countP valid := by
    have hone : (1 : K) ≤ (before ++ part :: after).flatten.countP valid := by
      exact_mod_cast hsome.trans_le htotal
    rw [maskedMean, max_eq_left hone, maskedSum_flatten, map_append,
      map_cons, sum_append, sum_cons, hnone before hleft,
      hnone after hright, zero_add, add_zero, hinside]
  rw [hmean, hwhole] at heq
  have hlength : ((before ++ part :: after).length : K) ≠ 0 := by
    rw [length_append, length_cons]
    exact Nat.cast_ne_zero.mpr (by omega)
  have hcount : ((before ++ part :: after).flatten.countP valid : K) ≠ 0 :=
    Nat.cast_ne_zero.mpr (by omega)
  rw [div_eq_div_iff hlength hcount] at heq
  have hcast : ((before ++ part :: after).length : K) * part.countP valid =
      (before ++ part :: after).flatten.countP valid := by
    apply mul_left_cancel₀ hvalue
    linear_combination -heq
  exact_mod_cast hcast

theorem even_of_meanOfMeans {valid : ι → Bool} {parts : List (List ι)}
    (hnodup : parts.flatten.Nodup) {value : K} (hvalue : value ≠ 0)
    (heq : ∀ part ∈ parts, meanOfMeans valid (onPart part value) parts =
      maskedMean valid (onPart part value) parts.flatten) :
    Even valid parts := by
  apply even_of_shares
  intro part hpart
  exact count_of_meanOfMeans_onPart hnodup hpart hvalue (heq part hpart)

end Separation

end PartMeans
end VerlVla
