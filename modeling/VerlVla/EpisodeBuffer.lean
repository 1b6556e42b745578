import Mathlib.Data.List.GetD
import VerlVla.FpoActorInput
import VerlVla.SerialFeedback

/-!
# Raw episodes of a rollout

The steps of each lane are buffered until one of them is done.  A segment of
one step is taken for repeated terminal padding and dropped.  Without
auto-reset a rollout must leave no step behind.
-/

namespace VerlVla

open List hiding after cons nil

open BaseEnv (Report)

variable {D : Type}

structure RolloutStep (D : Type) where
  substeps : List Report
  data : D
  deriving DecidableEq

namespace RolloutStep

def terminated (step : RolloutStep D) : Bool :=
  step.substeps.any (·.terminated)

def truncated (step : RolloutStep D) : Bool := step.substeps.any (·.truncated)

def done (step : RolloutStep D) : Bool := step.terminated || step.truncated

def success (step : RolloutStep D) : Bool := step.substeps.any (·.success)

def reward (step : RolloutStep D) : ℚ :=
  (step.substeps.mapIdx fun position substep =>
    if (step.substeps.take position).all fun earlier => !earlier.done then
      substep.reward
    else 0).sum

theorem done_eq_any (step : RolloutStep D) :
    step.done = step.substeps.any Report.done := by
  unfold done terminated truncated
  induction step.substeps with
  | nil => rfl
  | cons report reports ih =>
    simp only [any_cons, ← ih, Report.done]
    cases report.terminated <;> cases report.truncated <;> simp

end RolloutStep

abbrev Episode (D : Type) : Type := List (RolloutStep D)

/-! ## The buffer -/

structure EpisodeBuffer (D : Type) where
  autoReset : Bool
  lanes : Option (List (Episode D))

inductive IngestError
  | laneMissing
  | unfinishedLanes (lanes : List ℕ)
  deriving DecidableEq

namespace EpisodeBuffer

def create (autoReset : Bool) : EpisodeBuffer D where
  autoReset := autoReset
  lanes := none

def ingestStep (state : Episode D × List (Episode D))
    (step : RolloutStep D) : Episode D × List (Episode D) :=
  let buffer := state.1 ++ [step]
  if step.done then
    ([], if 1 < buffer.length then state.2 ++ [buffer] else state.2)
  else (buffer, state.2)

def ingestLane (buffer steps : Episode D) : Episode D × List (Episode D) :=
  steps.foldl ingestStep (buffer, [])

def unfinished (lanes : List (Episode D)) : List ℕ :=
  (range lanes.length).filter fun lane =>
    !(lanes.getD lane []).isEmpty

/-- The buffer changes even if an error is raised. -/
def ingest (buffer : EpisodeBuffer D) (rollout : List (Episode D)) :
    EpisodeBuffer D × Except IngestError (List (Episode D)) :=
  let lanes := buffer.lanes.getD (rollout.map fun _ => [])
  let ingested := List.zipWith ingestLane lanes rollout
  let left := ingested.map (·.1) ++ lanes.drop rollout.length
  ({ buffer with lanes := some left }, do
    require (rollout.length ≤ lanes.length) .laneMissing
    require (buffer.autoReset ∨ unfinished left = [])
      (.unfinishedLanes (unfinished left))
    pure (ingested.map (·.2)).flatten)

def clear (buffer : EpisodeBuffer D) : EpisodeBuffer D :=
  { buffer with lanes := buffer.lanes.map fun lanes => lanes.map fun _ => [] }

end EpisodeBuffer

/-! ## Transitions of an episode -/

/-- Valid and success flags of the steps; a step is valid if it belongs to a
segment that ends with a done step. -/
structure TransitionMasks where
  startIdx : ℕ
  valid : List Bool
  success : List Bool
  deriving DecidableEq

def markSegment (mask : List Bool) (start stop : ℕ) : List Bool :=
  mask.mapIdx fun index flag =>
    if start ≤ index ∧ index < stop then true else flag

def closeSegment (successSteps : List Bool) (masks : TransitionMasks)
    (doneIdx : ℕ) : TransitionMasks :=
  if doneIdx < masks.startIdx then masks
  else
    { startIdx := doneIdx + 1
      valid := markSegment masks.valid masks.startIdx (doneIdx + 1)
      success :=
        if ((successSteps.take (doneIdx + 1)).drop masks.startIdx).any id then
          markSegment masks.success masks.startIdx (doneIdx + 1)
        else masks.success }

def buildSacTransitionMasks (doneSteps successSteps : List Bool) :
    TransitionMasks :=
  ((range doneSteps.length).filter fun index =>
      doneSteps.getD index false).foldl (closeSegment successSteps)
    { startIdx := 0
      valid := doneSteps.map fun _ => false
      success := doneSteps.map fun _ => false }

structure SacTransition (D : Type) where
  t0 : D
  t1 : D
  terminateds : ℚ
  valids : ℚ
  rewards : ℚ
  successMask : ℚ

def nextData (episode : Episode D) (index : ℕ) (step : RolloutStep D) : D :=
  if step.done then step.data
  else (episode.getD (index + 1) step).data

def prepareSacActorInput (stepPenalty : ℚ) (episode : Episode D) :
    List (SacTransition D) :=
  let masks := buildSacTransitionMasks (episode.map (·.done))
    (episode.map (·.success))
  episode.mapIdx fun index step =>
    let valid := float (masks.valid.getD index false)
    { t0 := step.data
      t1 := nextData episode index step
      terminateds := float step.terminated
      valids := valid
      rewards := (step.reward - stepPenalty) * valid
      successMask := float (masks.success.getD index false) }

/-! ## One lane with one end -/

namespace EpisodeBuffer

theorem ingestLane_unfinished {buffer steps : Episode D}
    (hlive : ∀ step ∈ steps, step.done = false) :
    steps.foldl ingestStep (buffer, episodes) =
      (buffer ++ steps, episodes) := by
  induction steps generalizing buffer with
  | nil => simp
  | cons step steps ih =>
    obtain ⟨hstep, hsteps⟩ := forall_mem_cons.mp hlive
    rw [foldl_cons, ingestStep, hstep, if_neg Bool.false_ne_true,
      ih hsteps, append_assoc]
    rfl

/-- A lane that ends once completes the episode up to its end, unless that is
a single step, and buffers the steps after it. -/
theorem ingestLane_ended {before after : Episode D} {last : RolloutStep D}
    (hbefore : ∀ step ∈ before, step.done = false)
    (hlast : last.done = true)
    (hafter : ∀ step ∈ after, step.done = false) :
    ingestLane [] (before ++ last :: after) =
      (after, if before = [] then [] else [before ++ [last]]) := by
  unfold ingestLane
  rw [foldl_append, ingestLane_unfinished hbefore, foldl_cons,
    ingestStep, hlast, if_pos rfl, ingestLane_unfinished hafter]
  cases before <;> simp

theorem unfinished_eq_nil {lanes : List (Episode D)} :
    unfinished lanes = [] ↔ ∀ lane ∈ lanes, lane = [] := by
  unfold unfinished
  rw [filter_eq_nil_iff]
  constructor
  · intro hempty lane hlane
    obtain ⟨index, hindex, rfl⟩ := getElem_of_mem hlane
    have hdone := hempty index (mem_range.mpr hindex)
    simpa [getD_eq_getElem, hindex] using hdone
  · intro hempty index hindex
    have hlt := mem_range.mp hindex
    rw [getD_eq_getElem _ _ hlt, hempty _ (getElem_mem hlt)]
    simp

end EpisodeBuffer

/-! ## The masks of an episode -/

theorem markSegment_all (mask : List Bool) (hstop : mask.length ≤ stop) :
    markSegment mask 0 stop = mask.map fun _ => true := by
  apply ext_getElem
  · simp [markSegment]
  · intro index hindex _
    have hlt : index < mask.length := by simpa [markSegment] using hindex
    simp [markSegment, Nat.lt_of_lt_of_le hlt hstop]

theorem doneIdx_of_ended {before : Episode D} {last : RolloutStep D}
    (hbefore : ∀ step ∈ before, step.done = false)
    (hlast : last.done = true) :
    ((range ((before ++ [last]).map (·.done)).length).filter fun index =>
      ((before ++ [last]).map (·.done)).getD index false) =
      [before.length] := by
  have hlength : ((before ++ [last]).map (·.done)).length =
      before.length + 1 := by simp
  rw [hlength, range_succ, filter_append]
  have hnone : ((range before.length).filter fun index =>
      ((before ++ [last]).map (·.done)).getD index false) = [] := by
    rw [filter_eq_nil_iff]
    intro index hindex
    have hlt := mem_range.mp hindex
    rw [map_append, getD_append _ _ _ _ (by simpa using hlt),
      getD_eq_getElem _ _ (by simpa using hlt), getElem_map,
      hbefore _ (getElem_mem hlt)]
    exact Bool.false_ne_true
  rw [hnone]
  simp [hlast]

/-- Every step of an episode that ends once, at its last step, is valid, and
is marked a success exactly if the episode is one. -/
theorem prepareSacActorInput_ended {before : Episode D}
    {last : RolloutStep D} (stepPenalty : ℚ)
    (hbefore : ∀ step ∈ before, step.done = false)
    (hlast : last.done = true) :
    ∀ transition ∈ prepareSacActorInput stepPenalty (before ++ [last]),
      transition.valids = 1 ∧ transition.successMask =
        float ((before ++ [last]).any (·.success)) := by
  have hmasks : buildSacTransitionMasks ((before ++ [last]).map (·.done))
      ((before ++ [last]).map (·.success)) =
      { startIdx := before.length + 1
        valid := (before ++ [last]).map fun _ => true
        success := (before ++ [last]).map fun _ =>
          (before ++ [last]).any (·.success) } := by
    unfold buildSacTransitionMasks
    rw [doneIdx_of_ended hbefore hlast]
    simp only [foldl_cons, foldl_nil, closeSegment,
      Nat.not_lt_zero, if_false, drop_zero]
    rw [markSegment_all _ (by simp), take_of_length_le (by simp)]
    cases hany : (before ++ [last]).any (·.success) with
    | true =>
      have hmap : ((before ++ [last]).map (·.success)).any id = true := by
        rw [any_map]
        exact hany
      rw [hmap]
      simp
    | false =>
      have hmap : ((before ++ [last]).map (·.success)).any id = false := by
        rw [any_map]
        exact hany
      rw [hmap]
      simp
  intro transition htransition
  rw [prepareSacActorInput, hmasks, mem_mapIdx] at htransition
  obtain ⟨index, hindex, rfl⟩ := htransition
  have hgetD : ∀ flag : Bool,
      ((before ++ [last]).map fun _ => flag).getD index false = flag := by
    intro flag
    rw [getD_eq_getElem _ _ (by simpa using hindex), getElem_map]
  simp only [hgetD]
  exact ⟨rfl, trivial⟩

end VerlVla
