import Mathlib.Algebra.GroupWithZero.Action.Defs
import Mathlib.Algebra.Module.Rat
import Mathlib.Algebra.Group.Action.Opposite
import Mathlib.Tactic.Abel

/-!
# Rigid motions

A pose is a rotation and a position.  Rotations are any group that acts on the
positions; their rotation vectors scale a motion and carry its increments.
-/

namespace VerlVla

@[ext] structure Pose (G V : Type) where
  rotation : G
  position : V

namespace Pose

variable {G V : Type} [Group G] [AddCommGroup V] [DistribMulAction G V]

def still : Pose G V where
  rotation := 1
  position := 0

def comp (outer inner : Pose G V) : Pose G V where
  rotation := outer.rotation * inner.rotation
  position := outer.rotation • inner.position + outer.position

def inv (pose : Pose G V) : Pose G V where
  rotation := pose.rotation⁻¹
  position := -(pose.rotation⁻¹ • pose.position)

@[simp] theorem comp_still (pose : Pose G V) : pose.comp still = pose := by
  ext <;> simp [comp, still]

/-- A pose that moves while a frame with rotation `zero` goes from one motion
to another. -/
def shift (zero : G) (base relative previous : Pose G V) : Pose G V where
  rotation := zero * (relative.rotation * previous.rotation⁻¹) * zero⁻¹ *
    base.rotation
  position := base.position + zero • (relative.position - previous.position)

@[simp] theorem shift_self (zero : G) (base relative : Pose G V) :
    shift zero base relative relative = base := by
  ext <;> simp [shift]

end Pose

/-- An increment of a pose, in a fixed frame. -/
structure PoseDelta (V : Type) where
  position : V
  rotation : V
  deriving DecidableEq

def PoseDelta.zero {V : Type} [AddCommGroup V] : PoseDelta V where
  position := 0
  rotation := 0

/-- Rotation vectors of the rotations. -/
structure RotationVectors (G V : Type) [Group G] [AddCommGroup V] where
  asRotvec : G → V
  fromRotvec : V → G
  fromRotvec_asRotvec : ∀ rotation, fromRotvec (asRotvec rotation) = rotation
  fromRotvec_zero : fromRotvec 0 = 1

/-- Turns about one axis. -/
example : RotationVectors (Multiplicative ℚ) ℚ where
  asRotvec := Multiplicative.toAdd
  fromRotvec := Multiplicative.ofAdd
  fromRotvec_asRotvec _ := rfl
  fromRotvec_zero := rfl

namespace RotationVectors

variable {G V : Type} [Group G] [AddCommGroup V]
  (vectors : RotationVectors G V)

/-- The motion with its position and its rotation vector scaled. -/
def scale [SMul ℚ V] (positionScale rotationScale : ℚ) (pose : Pose G V) :
    Pose G V where
  rotation :=
    vectors.fromRotvec (rotationScale • vectors.asRotvec pose.rotation)
  position := positionScale • pose.position

def apply (delta : PoseDelta V) (pose : Pose G V) : Pose G V where
  rotation := vectors.fromRotvec delta.rotation * pose.rotation
  position := pose.position + delta.position

@[simp] theorem apply_zero (pose : Pose G V) :
    vectors.apply .zero pose = pose := by
  ext <;> simp [apply, PoseDelta.zero, vectors.fromRotvec_zero]

variable [DistribMulAction G V]

/-- The increment between two motions of a frame with rotation `zero`. -/
def between (zero : G) (relative previous : Pose G V) : PoseDelta V where
  position := zero • (relative.position - previous.position)
  rotation := vectors.asRotvec
    (zero * (relative.rotation * previous.rotation⁻¹) * zero⁻¹)

/-- The increments between successive motions telescope. -/
theorem apply_between (anchor relative previous : Pose G V) :
    vectors.apply (vectors.between anchor.rotation relative previous)
      (anchor.comp previous) = anchor.comp relative := by
  ext
  · simp [apply, between, Pose.comp, vectors.fromRotvec_asRotvec, mul_assoc]
  · simp only [apply, between, Pose.comp, smul_sub]
    abel

theorem apply_between_shift (zero : G) (base relative previous first :
    Pose G V) :
    vectors.apply (vectors.between zero relative previous)
      (Pose.shift zero base previous first) =
        Pose.shift zero base relative first := by
  ext
  · simp [apply, between, Pose.shift, vectors.fromRotvec_asRotvec, mul_assoc]
  · simp only [apply, between, Pose.shift, smul_sub]
    abel

end RotationVectors
end VerlVla
