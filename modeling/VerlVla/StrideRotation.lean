import Mathlib.Data.List.Nodup
import Mathlib.Data.List.Perm.Subperm
import Mathlib.Data.Nat.GCD.Basic
import Mathlib.Data.Nat.ModEq
import Mathlib.Order.Interval.Finset.Nat
import Mathlib.Tactic.Ring

/-!
# Rotation by a stride

Slots of a pool are taken in turn, a fixed stride apart.  As many turns as there
are slots take every slot once exactly when the stride is coprime to the number
of slots.  The turns of a lane are the numbers of one residue.
-/

namespace VerlVla

open List hiding length

/-- The slots of consecutive turns. -/
def rotation (length start stride turns : ℕ) : List ℕ :=
  (range turns).map fun turn => (start + turn * stride) % length

theorem rotation_injective (hcoprime : Nat.Coprime length stride)
    (hleft : left < length) (hright : right < length)
    (hsame : (start + left * stride) % length =
      (start + right * stride) % length) : left = right := by
  have hmul : left * stride ≡ right * stride [MOD length] :=
    Nat.ModEq.add_left_cancel' start hsame
  have hturn : left ≡ right [MOD length] :=
    Nat.ModEq.cancel_right_of_coprime hcoprime hmul
  rw [Nat.ModEq, Nat.mod_eq_of_lt hleft, Nat.mod_eq_of_lt hright] at hturn
  exact hturn

theorem perm_rotation (start : ℕ) (hcoprime : Nat.Coprime length stride) :
    (rotation length start stride length).Perm (range length) := by
  have hnodup : (rotation length start stride length).Nodup := by
    apply Nodup.map_on _ nodup_range
    intro left hleft right hright hsame
    exact rotation_injective hcoprime (mem_range.mp hleft)
      (mem_range.mp hright) hsame
  have hsubset : rotation length start stride length ⊆ range length := by
    intro slot hslot
    obtain ⟨turn, hturn, rfl⟩ := mem_map.mp hslot
    have hpositive : 0 < length := Nat.zero_lt_of_lt (mem_range.mp hturn)
    exact mem_range.mpr (Nat.mod_lt _ hpositive)
  apply (subperm_of_subset hnodup hsubset).perm_of_length_le
  rw [rotation, length_map]

theorem not_nodup_rotation (start : ℕ) (hpositive : 0 < length)
    (hfactor : ¬ Nat.Coprime length stride) :
    ¬ (rotation length start stride length).Nodup := by
  intro hnodup
  have hgcd : 1 < Nat.gcd length stride := by
    have hpos := Nat.gcd_pos_of_pos_left stride hpositive
    have hone : Nat.gcd length stride ≠ 1 := hfactor
    omega
  obtain ⟨turns, hturns⟩ := Nat.gcd_dvd_left length stride
  obtain ⟨times, htimes⟩ := Nat.gcd_dvd_right length stride
  generalize Nat.gcd length stride = common at hgcd hturns htimes
  have hpos : 0 < turns := by
    apply Nat.pos_of_ne_zero
    intro hzero
    rw [hturns, hzero, Nat.mul_zero] at hpositive
    exact Nat.lt_irrefl 0 hpositive
  have hless : turns < length := by
    calc turns = 1 * turns := (Nat.one_mul turns).symm
      _ < common * turns := Nat.mul_lt_mul_of_pos_right hgcd hpos
      _ = length := hturns.symm
  have hback : (start + turns * stride) % length =
      (start + 0 * stride) % length := by
    have hmul : turns * stride = times * length := by
      rw [htimes, hturns]
      ring
    rw [hmul, Nat.add_mul_mod_self_right, Nat.zero_mul, Nat.add_zero]
  have hsame := inj_on_of_nodup_map hnodup (mem_range.mpr hless)
    (mem_range.mpr hpositive) hback
  exact hpos.ne' hsame

theorem existsUnique_residue (hresidue : residue < lanes) (start : ℕ) :
    ∃! index, (start ≤ index ∧ index < start + lanes) ∧
      index % lanes = residue := by
  have himage : residue ∈
      (Finset.Ico start (start + lanes)).image (· % lanes) := by
    rw [Nat.image_Ico_mod]
    exact Finset.mem_range.mpr hresidue
  obtain ⟨index, hindex, hmod⟩ := Finset.mem_image.mp himage
  refine ⟨index, ⟨Finset.mem_Ico.mp hindex, hmod⟩, ?_⟩
  intro other hother
  apply Nat.mod_injOn_Ico start lanes
  · exact Finset.mem_coe.mpr (Finset.mem_Ico.mpr hother.1)
  · exact Finset.mem_coe.mpr hindex
  · exact hother.2.trans hmod.symm

/-- How many numbers below a bound have a residue. -/
def residueCount (lanes residue bound : ℕ) : ℕ :=
  (bound + (lanes - 1 - residue)) / lanes

theorem le_residueCount_iff (hresidue : residue < lanes) (hturns : 0 < turns) :
    turns ≤ residueCount lanes residue bound ↔
      residue + (turns - 1) * lanes < bound := by
  unfold residueCount
  rw [Nat.le_div_iff_mul_le (by omega)]
  have hlast : turns * lanes = (turns - 1) * lanes + lanes := by
    rw [← Nat.succ_mul]
    congr 1
    omega
  omega

theorem filter_residue_range (hresidue : residue < lanes) (bound : ℕ) :
    ((range bound).filter fun index => index % lanes = residue) =
      (range (residueCount lanes residue bound)).map
        fun turn => residue + turn * lanes := by
  induction bound with
  | zero =>
    have hnone : residueCount lanes residue 0 = 0 :=
      Nat.div_eq_of_lt (by omega)
    rw [hnone]
    rfl
  | succ bound ih =>
    rw [range_succ, filter_append, ih]
    by_cases hsame : bound % lanes = residue
    · have hbound : bound = lanes * (bound / lanes) + residue := by
        rw [← hsame]
        exact (Nat.div_add_mod bound lanes).symm
      generalize bound / lanes = turn at hbound
      have hbefore : residueCount lanes residue bound = turn := by
        unfold residueCount
        have hsum : bound + (lanes - 1 - residue) =
            lanes * turn + (lanes - 1) := by omega
        rw [hsum, Nat.mul_add_div (by omega), Nat.div_eq_of_lt (by omega),
          Nat.add_zero]
      have hafter : residueCount lanes residue (bound + 1) = turn + 1 := by
        unfold residueCount
        have hsum : bound + 1 + (lanes - 1 - residue) =
            lanes * turn + lanes := by omega
        rw [hsum, Nat.mul_add_div (by omega), Nat.div_self (by omega)]
      rw [hbefore, hafter, range_succ, map_append]
      have hlast : residue + turn * lanes = bound := by
        rw [Nat.mul_comm, Nat.add_comm]
        exact hbound.symm
      simp [hsame, hlast]
    · have hcount : residueCount lanes residue (bound + 1) =
          residueCount lanes residue bound := by
        unfold residueCount
        have hmod := Nat.mod_lt bound (by omega : 0 < lanes)
        have hbound := Nat.div_add_mod bound lanes
        generalize bound / lanes = turn at hbound
        generalize bound % lanes = found at hbound hmod hsame
        by_cases hless : found < residue
        · have hsum : bound + 1 + (lanes - 1 - residue) =
              lanes * turn + (found + (lanes - residue)) := by omega
          have hother : bound + (lanes - 1 - residue) =
              lanes * turn + (found + (lanes - 1 - residue)) := by omega
          rw [hsum, hother, Nat.mul_add_div (by omega),
            Nat.mul_add_div (by omega), Nat.div_eq_of_lt (by omega),
            Nat.div_eq_of_lt (by omega)]
        · have hsum : bound + 1 + (lanes - 1 - residue) =
              lanes * (turn + 1) + (found - residue) := by
            rw [Nat.mul_add, Nat.mul_one]
            omega
          have hother : bound + (lanes - 1 - residue) =
              lanes * (turn + 1) + (found - residue - 1) := by
            rw [Nat.mul_add, Nat.mul_one]
            omega
          rw [hsum, hother, Nat.mul_add_div (by omega),
            Nat.mul_add_div (by omega), Nat.div_eq_of_lt (by omega),
            Nat.div_eq_of_lt (by omega)]
      rw [hcount]
      simp [hsame]

end VerlVla
