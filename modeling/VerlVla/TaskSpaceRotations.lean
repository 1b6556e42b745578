import Mathlib.Analysis.InnerProductSpace.PiL2
import Mathlib.Analysis.Real.Pi.Bounds
import Mathlib.Analysis.SpecialFunctions.Trigonometric.Bounds
import Mathlib.Analysis.SpecialFunctions.Trigonometric.Inverse
import Mathlib.Data.Real.Sign

/-!
# Task-space orientations of the policy and the simulator

The simulator speaks quaternions `[x, y, z, w]` and the policy rotation
vectors.  The sign that turns a quaternion to the half sphere `0 ≤ w` is
`np.sign(w)`, which is zero on the half-turns, so exactly they do not survive
the conversions.
-/

namespace VerlVla

noncomputable section

open Real

abbrev Vector3 := EuclideanSpace ℝ (Fin 3)

@[ext]
structure QuatXyzw where
  xyz : Vector3
  w : ℝ

instance : Neg QuatXyzw := ⟨fun q => ⟨-q.xyz, -q.w⟩⟩

/-- The unit quaternions, which the simulator reports. -/
structure Orientation extends QuatXyzw where
  unit : ‖xyz‖ ^ 2 + w ^ 2 = 1

local instance two_le_two : Nat.AtLeastTwo 2 := ⟨le_rfl⟩

def quatXyzwToRotvec (q : QuatXyzw) : Vector3 := let w := min (max q.w (-1)) 1
  let angle := 2 * arccos |w|
  let den := √(1 - w * w)
  if den < 1e-8 then 0 else (angle * sign w) • den⁻¹ • q.xyz

def rotvecToQuatXyzw (rotvec : Vector3) : QuatXyzw :=
  let angle := max ‖rotvec‖ 1e-8
  let axis := angle⁻¹ • rotvec
  let half := angle * 0.5
  ⟨sin half • axis, cos half⟩

/-- The Abs-IK action of the simulator, and what it reports of the gripper. -/
@[ext]
structure SimPose where
  pos : Vector3
  quatXyzw : QuatXyzw
  gripper : ℝ

structure PolicyVector where
  pos : Vector3
  rotvec : Vector3
  gripper : ℝ

def policyToSimAction (action : PolicyVector) : SimPose :=
  ⟨action.pos, rotvecToQuatXyzw action.rotvec, action.gripper⟩

def extractState (obs : SimPose) : PolicyVector :=
  ⟨obs.pos, quatXyzwToRotvec obs.quatXyzw, obs.gripper⟩

theorem Orientation.abs_w_le (q : Orientation) : |q.w| ≤ 1 := by
  have hunit := q.unit
  have hxyz := sq_nonneg ‖q.xyz‖
  rw [← sq_le_one_iff_abs_le_one]
  linarith

theorem Orientation.clip_w (q : Orientation) : min (max q.w (-1)) 1 = q.w := by
  have hle := abs_le.mp q.abs_w_le
  rw [max_eq_left hle.1, min_eq_left hle.2]

theorem Orientation.sqrt_eq (q : Orientation) :
    √(1 - q.w * q.w) = ‖q.xyz‖ := by
  have hsq : 1 - q.w * q.w = ‖q.xyz‖ ^ 2 := by
    linarith [q.unit, sq q.w]
  rw [hsq, sqrt_sq (norm_nonneg _)]

theorem Orientation.sin_half (q : Orientation) :
    sin (arccos |q.w|) = ‖q.xyz‖ := by
  rw [sin_arccos, sq_abs, sq, q.sqrt_eq]

theorem Orientation.norm_xyz_le (q : Orientation) :
    ‖q.xyz‖ ≤ arccos |q.w| := by
  rw [← q.sin_half]
  exact sin_le (arccos_nonneg _)

theorem Orientation.rotvec_eq (q : Orientation) (hxyz : 1e-8 ≤ ‖q.xyz‖) :
    quatXyzwToRotvec q.toQuatXyzw =
      (2 * arccos |q.w| * sign q.w) • ‖q.xyz‖⁻¹ • q.xyz := by
  simp only [quatXyzwToRotvec, q.clip_w, q.sqrt_eq]
  rw [if_neg (not_lt.mpr hxyz)]

theorem Orientation.rotvec_half_turn (q : Orientation) (hw : q.w = 0)
    (hxyz : 1e-8 ≤ ‖q.xyz‖) : quatXyzwToRotvec q.toQuatXyzw = 0 := by
  rw [q.rotvec_eq hxyz, hw, sign_zero, mul_zero, zero_smul]

theorem abs_sign_of_ne_zero {w : ℝ} (hw : w ≠ 0) : |sign w| = 1 := by
  rcases sign_apply_eq_of_ne_zero w hw with hneg | hpos
  · rw [hneg, abs_neg, abs_one]
  · rw [hpos, abs_one]

theorem Orientation.norm_rotvec (q : Orientation) (hw : q.w ≠ 0)
    (hxyz : 1e-8 ≤ ‖q.xyz‖) :
    ‖quatXyzwToRotvec q.toQuatXyzw‖ = 2 * arccos |q.w| := by
  have hpos : ‖q.xyz‖ ≠ 0 := by
    linarith
  rw [q.rotvec_eq hxyz, norm_smul, norm_smul, norm_inv, norm_norm,
    inv_mul_cancel₀ hpos, mul_one, norm_mul, norm_eq_abs, norm_eq_abs,
    abs_sign_of_ne_zero hw, mul_one, abs_of_nonneg]
  exact mul_nonneg zero_le_two (arccos_nonneg _)

/-- Away from the half-turns the quaternion comes back with its sign taken
off. -/
theorem Orientation.round_trip (q : Orientation) (hw : q.w ≠ 0)
    (hxyz : 1e-8 ≤ ‖q.xyz‖) :
    rotvecToQuatXyzw (quatXyzwToRotvec q.toQuatXyzw) =
      ⟨sign q.w • q.xyz, |q.w|⟩ := by
  have hhalf := q.norm_xyz_le
  have hpos : ‖q.xyz‖ ≠ 0 := by
    linarith
  have hangle : arccos |q.w| ≠ 0 := by
    linarith
  have hmax : max (2 * arccos |q.w|) 1e-8 = 2 * arccos |q.w| :=
    max_eq_left (by linarith)
  have hscale : 2 * arccos |q.w| * 0.5 = arccos |q.w| := by
    ring
  simp only [rotvecToQuatXyzw, q.norm_rotvec hw hxyz, hmax, hscale, q.sin_half]
  rw [cos_arccos (by linarith [abs_nonneg q.w]) q.abs_w_le, q.rotvec_eq hxyz]
  congr 1
  simp only [smul_smul]
  congr 1
  field_simp

theorem quatXyzw_sign_cases (q : QuatXyzw) (hw : q.w ≠ 0) :
    (⟨sign q.w • q.xyz, |q.w|⟩ : QuatXyzw) = q ∨
      (⟨sign q.w • q.xyz, |q.w|⟩ : QuatXyzw) = -q := by
  rcases lt_or_gt_of_ne hw with hneg | hpos
  · right
    rw [sign_of_neg hneg, abs_of_neg hneg, neg_one_smul]
    rfl
  · left
    rw [sign_of_pos hpos, abs_of_pos hpos, one_smul]

theorem rotvecToQuatXyzw_zero_w : (rotvecToQuatXyzw 0).w ≠ 0 := by
  have hmax : max ‖(0 : Vector3)‖ 1e-8 = 1e-8 := by
    rw [norm_zero]
    norm_num
  simp only [rotvecToQuatXyzw, hmax]
  apply ne_of_gt
  apply cos_pos_of_mem_Ioo
  have hpi := pi_gt_three
  constructor <;> linarith

theorem Orientation.round_trip_iff (q : Orientation) (hxyz : 1e-8 ≤ ‖q.xyz‖) :
    (rotvecToQuatXyzw (quatXyzwToRotvec q.toQuatXyzw) = q.toQuatXyzw ∨
      rotvecToQuatXyzw (quatXyzwToRotvec q.toQuatXyzw) = -q.toQuatXyzw) ↔
    q.w ≠ 0 := by
  constructor
  · intro hback hw
    rw [q.rotvec_half_turn hw hxyz] at hback
    apply rotvecToQuatXyzw_zero_w
    rcases hback with hback | hback
    · rw [hback, hw]
    · rw [hback]
      exact neg_eq_zero.mpr hw
  · intro hw
    rw [q.round_trip hw hxyz]
    exact quatXyzw_sign_cases _ hw

theorem Orientation.rotvec_ne_zero_iff (q : Orientation)
    (hxyz : 1e-8 ≤ ‖q.xyz‖) :
    quatXyzwToRotvec q.toQuatXyzw ≠ 0 ↔ q.w ≠ 0 := by
  constructor
  · intro hrotvec hw
    exact hrotvec (q.rotvec_half_turn hw hxyz)
  · intro hw
    rw [← norm_ne_zero_iff, q.norm_rotvec hw hxyz]
    linarith [q.norm_xyz_le]

theorem rotvec_round_trip_eq {r : Vector3} (hlower : 1e-7 ≤ ‖r‖)
    (hupper : ‖r‖ ≤ π) :
    quatXyzwToRotvec (rotvecToQuatXyzw r) = sign (cos (‖r‖ / 2)) • r := by
  have hpi := pi_gt_three
  have hmax : max ‖r‖ 1e-8 = ‖r‖ := max_eq_left (by linarith)
  have hhalf : ‖r‖ * 0.5 = ‖r‖ / 2 := by
    ring
  have hcos : 0 ≤ cos (‖r‖ / 2) :=
    cos_nonneg_of_mem_Icc ⟨by linarith, by linarith⟩
  have hclip : min (max (cos (‖r‖ / 2)) (-1)) 1 = cos (‖r‖ / 2) := by
    rw [max_eq_left (neg_one_le_cos _), min_eq_left (cos_le_one _)]
  have hsin : 1e-8 ≤ sin (‖r‖ / 2) := by
    have hmul := mul_le_sin (x := ‖r‖ / 2) (by linarith) (by linarith)
    have hdiv : 1e-7 / 4 ≤ 2 / π * (‖r‖ / 2) := by
      rw [div_mul_div_comm, div_le_div_iff₀ (by norm_num) (by positivity)]
      nlinarith [pi_le_four]
    linarith
  have hden : √(1 - cos (‖r‖ / 2) * cos (‖r‖ / 2)) = sin (‖r‖ / 2) := by
    rw [← sq, ← sin_sq, sqrt_sq (by linarith)]
  simp only [quatXyzwToRotvec, rotvecToQuatXyzw, hmax, hhalf, hclip, hden,
    abs_of_nonneg hcos]
  rw [if_neg (not_lt.mpr hsin), arccos_cos (by linarith) (by linarith)]
  simp only [smul_smul]
  congr 1
  have hr : ‖r‖ ≠ 0 := by
    linarith
  have hs : sin (‖r‖ / 2) ≠ 0 := by
    linarith
  field_simp

theorem rotvec_round_trip_iff {r : Vector3} (hlower : 1e-7 ≤ ‖r‖)
    (hupper : ‖r‖ ≤ π) :
    (quatXyzwToRotvec (rotvecToQuatXyzw r) = r ∨
      ‖r‖ = π ∧ quatXyzwToRotvec (rotvecToQuatXyzw r) = -r) ↔ ‖r‖ ≠ π := by
  rw [rotvec_round_trip_eq hlower hupper]
  constructor
  · intro hback hr
    have hzero : r = 0 := by
      simpa [hr, eq_comm] using hback
    rw [hzero, norm_zero] at hlower
    linarith
  · intro hr
    left
    have hlt := lt_of_le_of_ne hupper hr
    have hcos : 0 < cos (‖r‖ / 2) :=
      cos_pos_of_mem_Ioo ⟨by linarith, by linarith⟩
    rw [sign_of_pos hcos, one_smul]

theorem task_space_round_trips_iff (q : Orientation) (pos : Vector3)
    (gripper : ℝ) (r : Vector3) :
    (1e-8 ≤ ‖q.xyz‖ →
      ((policyToSimAction (extractState ⟨pos, q.toQuatXyzw, gripper⟩) =
            ⟨pos, q.toQuatXyzw, gripper⟩ ∨
          policyToSimAction (extractState ⟨pos, q.toQuatXyzw, gripper⟩) =
            ⟨pos, -q.toQuatXyzw, gripper⟩) ↔ q.w ≠ 0) ∧
      ((rotvecToQuatXyzw (quatXyzwToRotvec q.toQuatXyzw) = q.toQuatXyzw ∨
          rotvecToQuatXyzw (quatXyzwToRotvec q.toQuatXyzw) =
            -q.toQuatXyzw) ↔ q.w ≠ 0) ∧
      (quatXyzwToRotvec q.toQuatXyzw ≠ 0 ↔ q.w ≠ 0)) ∧
    (1e-7 ≤ ‖r‖ → ‖r‖ ≤ π →
      ((quatXyzwToRotvec (rotvecToQuatXyzw r) = r ∨
        ‖r‖ = π ∧ quatXyzwToRotvec (rotvecToQuatXyzw r) = -r) ↔
          ‖r‖ ≠ π)) := by
  constructor
  · intro hxyz
    refine ⟨?_, q.round_trip_iff hxyz, q.rotvec_ne_zero_iff hxyz⟩
    rw [← q.round_trip_iff hxyz]
    simp [policyToSimAction, extractState]
  · intro hlower hupper
    exact rotvec_round_trip_iff hlower hupper

/-- The half-turn about the first axis, in which a gripper points down. -/
def gripperDown : Orientation where
  xyz := EuclideanSpace.single 0 1
  w := 0
  unit := by simp

theorem gripperDown_not_returned : 1e-8 ≤ ‖gripperDown.xyz‖ ∧
    quatXyzwToRotvec gripperDown.toQuatXyzw = 0 ∧
    rotvecToQuatXyzw (quatXyzwToRotvec gripperDown.toQuatXyzw) ≠
      gripperDown.toQuatXyzw ∧
    rotvecToQuatXyzw (quatXyzwToRotvec gripperDown.toQuatXyzw) ≠
      -gripperDown.toQuatXyzw := by
  have hxyz : 1e-8 ≤ ‖gripperDown.xyz‖ := by
    norm_num [gripperDown]
  have hback := mt (gripperDown.round_trip_iff hxyz).mp (fun hw => hw rfl)
  exact ⟨hxyz, gripperDown.rotvec_half_turn rfl hxyz, not_or.mp hback⟩

def gripperTilted : Orientation where
  xyz := EuclideanSpace.single 0 0.6
  w := 0.8
  unit := by norm_num

theorem gripperTilted_returned :
    rotvecToQuatXyzw (quatXyzwToRotvec gripperTilted.toQuatXyzw) =
      gripperTilted.toQuatXyzw ∨
    rotvecToQuatXyzw (quatXyzwToRotvec gripperTilted.toQuatXyzw) =
      -gripperTilted.toQuatXyzw :=
  ((task_space_round_trips_iff gripperTilted 0 0 0).1
    (by norm_num [gripperTilted])).2.1.mpr (by norm_num [gripperTilted])

end

end VerlVla
