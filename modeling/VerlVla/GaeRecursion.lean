import Mathlib.Algebra.BigOperators.Intervals
import Mathlib.Algebra.BigOperators.Ring.Finset
import Mathlib.Tactic.Ring
import VerlVla.RolloutBatch

/-!
# Generalized advantages of chunks

The advantages of a lane are computed from its last slot backwards.  Each is
the sum of the one-step errors from its slot on, weighted by the discounts in
between, and an invalid slot ends the sum.
-/

namespace VerlVla

open Finset

structure GaeState where
  lastAdvantage : ℕ → ℚ
  advantages : ℕ → ℕ → ℚ

section Gae

variable (rewards values nextValues discounts gaeDiscounts valids : Tensor ℚ)

/-- The one-step error of a slot. -/
def gaeDelta (lane step : ℕ) : ℚ := rewards.entry [lane, step] +
      discounts.entry [lane, step] * nextValues.entry [lane, step] -
    values.entry [lane, step]

def gaeStep (state : GaeState) (step : ℕ) : GaeState :=
  let lastAdvantage := fun lane =>
    (gaeDelta rewards values nextValues discounts lane step +
        gaeDiscounts.entry [lane, step] * state.lastAdvantage lane) *
      valids.entry [lane, step]
  { lastAdvantage
    advantages := fun lane position =>
      if position = step then lastAdvantage lane
      else state.advantages lane position }

def gaeLoop (steps : List ℕ) : GaeState := steps.foldl
    (gaeStep rewards values nextValues discounts gaeDiscounts valids)
    { lastAdvantage := fun _ => 0, advantages := fun _ _ => 0 }

def computeGae : Tensor ℚ × Tensor ℚ :=
  let advantages := (gaeLoop rewards values nextValues discounts gaeDiscounts
    valids (List.range values.steps).reverse).advantages
  (.matrix values.rows values.steps advantages,
    .matrix values.rows values.steps fun lane step =>
      advantages lane step + values.entry [lane, step])

/-! ## The closed form -/

/-- The weighted sum of the errors from a slot on. -/
def laneAdvantage (lane step : ℕ) : ℚ := ∑ j ∈ Ico step values.steps,
    (∏ i ∈ Ico step j, gaeDiscounts.entry [lane, i] * valids.entry [lane, i]) *
      (gaeDelta rewards values nextValues discounts lane j *
        valids.entry [lane, j])

/-- What the loop holds after the slots from this one on. -/
structure Swept (step : ℕ) (state : GaeState) : Prop where
  last : ∀ lane, state.lastAdvantage lane = laneAdvantage rewards values
    nextValues discounts gaeDiscounts valids lane step
  written : ∀ lane position, step ≤ position → position < values.steps →
    state.advantages lane position = laneAdvantage rewards values nextValues
      discounts gaeDiscounts valids lane position

variable {rewards values nextValues discounts gaeDiscounts valids}

theorem laneAdvantage_end (lane : ℕ) :
    laneAdvantage rewards values nextValues discounts gaeDiscounts valids
      lane values.steps = 0 := by
  rw [laneAdvantage, Ico_self, sum_empty]

theorem laneAdvantage_step (hstep : step < values.steps) :
    laneAdvantage rewards values nextValues discounts gaeDiscounts valids
        lane step =
      (gaeDelta rewards values nextValues discounts lane step +
          gaeDiscounts.entry [lane, step] *
            laneAdvantage rewards values nextValues discounts gaeDiscounts
              valids lane (step + 1)) *
        valids.entry [lane, step] := by
  unfold laneAdvantage
  rw [sum_eq_sum_Ico_succ_bot hstep, Ico_self, prod_empty, one_mul, add_mul,
    mul_sum, sum_mul]
  congr 1
  apply sum_congr rfl
  intro j hj
  have hfirst : step < j := (mem_Ico.mp hj).1
  rw [prod_eq_prod_Ico_succ_bot hfirst]
  ring

theorem Swept.gaeStep (hstep : step < values.steps)
    (hswept : Swept rewards values nextValues discounts gaeDiscounts valids
      (step + 1) state) :
    Swept rewards values nextValues discounts gaeDiscounts valids step
      (gaeStep rewards values nextValues discounts gaeDiscounts valids state
        step) := by
  have hlast : ∀ lane, (VerlVla.gaeStep rewards values nextValues discounts
      gaeDiscounts valids state step).lastAdvantage lane =
        laneAdvantage rewards values nextValues discounts gaeDiscounts valids
          lane step := by
    intro lane
    rw [laneAdvantage_step hstep, ← hswept.last lane]
    rfl
  constructor
  · exact hlast
  · intro lane position hposition hfits
    by_cases hsame : position = step
    · rw [hsame]
      exact (if_pos rfl).trans (hlast lane)
    · exact (if_neg hsame).trans
        (hswept.written lane position (by omega) hfits)

theorem swept_loop (hfits : step + length = values.steps)
    (hswept : Swept rewards values nextValues discounts gaeDiscounts valids
      values.steps state) :
    Swept rewards values nextValues discounts gaeDiscounts valids step
      ((List.range' step length).reverse.foldl
        (gaeStep rewards values nextValues discounts gaeDiscounts valids)
        state) := by
  induction length generalizing step with
  | zero =>
    rw [Nat.add_zero] at hfits
    rw [hfits]
    exact hswept
  | succ length ih =>
    rw [List.range'_succ, List.reverse_cons, List.foldl_append]
    have hrest : step + 1 + length = values.steps := by omega
    exact (ih hrest).gaeStep (by omega)

theorem computeGae_entry (hstep : step < values.steps) :
    (computeGae rewards values nextValues discounts gaeDiscounts
        valids).1.entry [lane, step] =
      laneAdvantage rewards values nextValues discounts gaeDiscounts valids
        lane step := by
  have hstart : Swept rewards values nextValues discounts gaeDiscounts valids
      values.steps
      { lastAdvantage := fun _ => 0, advantages := fun _ _ => 0 } := by
    constructor
    · intro lane
      exact (laneAdvantage_end lane).symm
    · intro lane position hafter hbefore
      exact absurd hafter (Nat.not_le.mpr hbefore)
  have hswept := swept_loop (Nat.zero_add values.steps) hstart
  rw [← List.range_eq_range'] at hswept
  exact hswept.written lane step (Nat.zero_le step) hstep

end Gae

end VerlVla
