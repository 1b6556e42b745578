import Mathlib.Tactic.Common
import Mathlib.Tactic.Cases
import Mathlib.Algebra.Order.Ring.Nat
import Mathlib.Data.Nat.ModEq

/-!
# Loaders of passes

A loader yields the batches of one pass after another.  Its state says how many
batches of the current pass are drawn.  A loader whose state was loaded goes on
in the pass of that state, and one iterated again starts the next pass.
-/

namespace VerlVla

structure PassPosition where
  pass : ℕ
  drawn : ℕ
  deriving DecidableEq

structure BatchIndex where
  pass : ℕ
  place : ℕ
  deriving DecidableEq

structure PassLoader where
  position : PassPosition
  /-- The next iterator goes on at the position. -/
  pending : Bool
  deriving DecidableEq

namespace PassLoader

def fresh : PassLoader := ⟨⟨0, 0⟩, true⟩

def stateDict (loader : PassLoader) : PassPosition := loader.position

def loadStateDict (position : PassPosition) : PassLoader := ⟨position, true⟩

def iter (loader : PassLoader) : PassLoader :=
  if loader.pending then ⟨loader.position, false⟩
  else ⟨⟨loader.position.pass + 1, 0⟩, false⟩

def next (length : ℕ) (loader : PassLoader) : Option (BatchIndex × PassLoader) :=
  let position := loader.position
  if position.drawn < length then
    some (⟨position.pass, position.drawn⟩,
      ⟨⟨position.pass, position.drawn + 1⟩, loader.pending⟩)
  else none

end PassLoader

/-- Where a loader is once so many batches are drawn. -/
def afterDraws (length : ℕ) : ℕ → PassPosition
  | 0 => ⟨0, 0⟩
  | draws + 1 => ⟨draws / length, draws % length + 1⟩

def batchAt (length draws : ℕ) : BatchIndex := ⟨draws / length, draws % length⟩

section Draws

theorem afterDraws_inside (hinside : draws = 0 ∨ ¬ length ∣ draws) :
    afterDraws length draws = ⟨draws / length, draws % length⟩ := by
  cases draws with
  | zero => simp [afterDraws]
  | succ before =>
    have hdvd : ¬ length ∣ before + 1 := by
      cases hinside with
      | inl hzero => cases hzero
      | inr hdvd => exact hdvd
    have hdiv := Nat.succ_div_of_not_dvd hdvd
    have hmod : (before + 1) % length = before % length + 1 := by
      have hfirst := Nat.div_add_mod before length
      have hsecond := Nat.div_add_mod (before + 1) length
      rw [hdiv] at hsecond
      omega
    simp only [afterDraws]
    rw [hdiv, hmod]

theorem afterDraws_end (hdraws : 0 < draws) (hdvd : length ∣ draws) :
    (afterDraws length draws).pass + 1 = draws / length ∧
      (afterDraws length draws).drawn = length := by
  cases draws with
  | zero => cases hdraws
  | succ before =>
    have hdiv := Nat.succ_div_of_dvd hdvd
    have hfirst := Nat.div_add_mod before length
    have hsecond := Nat.div_add_mod (before + 1) length
    have hrest : (before + 1) % length = 0 := Nat.mod_eq_zero_of_dvd hdvd
    constructor
    · exact hdiv.symm
    · rw [hdiv, hrest, Nat.mul_add] at hsecond
      simp only [afterDraws]
      omega

theorem next_inside (hlength : 0 < length)
    (hinside : draws = 0 ∨ ¬ length ∣ draws) (pending : Bool) :
    PassLoader.next length ⟨afterDraws length draws, pending⟩ =
      some (batchAt length draws,
        ⟨afterDraws length (draws + 1), pending⟩) := by
  rw [afterDraws_inside hinside]
  exact if_pos (Nat.mod_lt draws hlength)

theorem next_end (hlength : 0 < length) (hdraws : 0 < draws)
    (hdvd : length ∣ draws) :
    PassLoader.next length ⟨afterDraws length draws, false⟩ = none ∧
      PassLoader.next length
          (PassLoader.iter ⟨afterDraws length draws, false⟩) =
        some (batchAt length draws,
          ⟨afterDraws length (draws + 1), false⟩) := by
  obtain ⟨hpass, hdrawn⟩ := afterDraws_end hdraws hdvd
  have hrest : draws % length = 0 := Nat.mod_eq_zero_of_dvd hdvd
  constructor
  · apply if_neg
    show ¬ (afterDraws length draws).drawn < length
    omega
  · unfold PassLoader.iter
    simp only [Bool.false_eq_true, if_false]
    rw [hpass]
    unfold batchAt
    simp only [afterDraws, hrest]
    exact if_pos hlength

end Draws

end VerlVla
