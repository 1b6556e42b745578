import Mathlib.Analysis.Convex.Hull
import VerlVla.SerialExecutor

/-!
# Smoothed plans

The plan of a lane blends the unexecuted tail of the lane's plan before into
its new input.  A lane that was reset, or an executor that was reset, starts
from the input alone, so no action from before a reset is left in a later plan.
-/

namespace VerlVla
namespace SerialExecutor

open ActionChunk
open Transition

/-! ## Runs of the executor -/

inductive SerialCall
  | exchange (actions values : Tensor ℚ) (resetMask : ℕ → Bool)
  | reset

/-- What a call did.  `plan` is what an exchange leaves in the executor. -/
inductive SerialEntry
  | executed (actions values : Tensor ℚ) (resetMask : ℕ → Bool)
      (plan : Option Plan) (steps : List StepCall)
  | rejected (error : ChunkError)
  | reset

def serialMachine (config : SerialConfig) :
    Machine Executor SerialCall (List SerialEntry) where
  step
    | executor, .exchange actions values resetMask =>
      match exchange config actions values resetMask executor with
      | (.ok steps, next) =>
        some ([.executed actions values resetMask next.previousActions
          steps], next)
      | (.error error, next) => some ([.rejected error], next)
    | executor, .reset => some ([.reset], (SerialExecutor.reset executor).2)

def carry (i : ℕ) (plan : Option Plan) : SerialEntry → Option Plan
  | .executed _ _ resetMask next _ => if resetMask i then none else next
  | .rejected _ => plan
  | .reset => none

/-- The plan of the exchange before, unless the lane was reset since. -/
def carriedPlan (i : ℕ) (entries : List SerialEntry) : Option Plan :=
  entries.foldl (carry i) none

/-- The chunks that were accepted since the lane was last reset. -/
def collect (i : ℕ) (chunks : List (Tensor ℚ)) : SerialEntry → List (Tensor ℚ)
  | .executed actions _ resetMask _ _ =>
    if resetMask i then [] else chunks ++ [actions]
  | .rejected _ => chunks
  | .reset => []

def sinceReset (i : ℕ) (entries : List SerialEntry) : List (Tensor ℚ) :=
  entries.foldl (collect i) []

def lanePlan (config : SerialConfig) (i : ℕ) (chunks : List (Tensor ℚ)) :
    Option (List LaneAction) :=
  chunks.foldl (fun previous actions =>
    some (laneNext config.smoothing previous (inputLane config i actions)))
    none

def policyActions (i : ℕ) (chunks : List (Tensor ℚ)) : Set LaneAction :=
  {action | ∃ actions ∈ chunks, ∃ j < actions.steps,
    action = fun d => actions.entry [i, j, d]}

def Plan.action (plan : Plan) (i j : ℕ) : LaneAction := plan.ticks.getD j 0 i

structure PlanLaw (config : SerialConfig) (earlier : List SerialEntry)
    (actions values : Tensor ℚ) (plan : Plan) (steps : List StepCall) :
    Prop where
  recurrence : ∃ input times,
    prepare config actions values = .ok (input, times) ∧
      plan.ticks.length = input.ticks.length ∧
      ∀ i j, j < input.ticks.length → plan.action i j =
        match carriedPlan i earlier with
        | none => input.action i j
        | some previous =>
          if j < config.smoothing.blendSteps then
            blend (rampWeight config.smoothing.blendSteps j)
              (previous.action i (config.smoothing.executionSteps + j))
              (input.action i j)
          else input.action i j
  executed : config.smoothing.executionSteps ≤ plan.ticks.length ∧
    steps.map StepCall.action = plan.ticks.take config.smoothing.executionSteps
  ownChunks : ∀ i, some (plan.lane i) =
    lanePlan config i (sinceReset i earlier ++ [actions])
  convex : ∀ i, ∀ j < plan.ticks.length, plan.action i j ∈
    convexHull ℚ (policyActions i (sinceReset i earlier ++ [actions]))

def EntryLaw (config : SerialConfig) (earlier : List SerialEntry) :
    SerialEntry → Prop
  | .executed actions values _ plan steps =>
    ∃ next, plan = some next ∧ PlanLaw config earlier actions values next steps
  | .rejected _ => True
  | .reset => True

/-- The ramp from the plan before to the new input. -/
structure RampLaw (blendSteps : ℕ) : Prop where
  unit : ∀ j < blendSteps,
    0 ≤ rampWeight blendSteps j ∧ rampWeight blendSteps j ≤ 1
  zero : rampWeight blendSteps 0 = 0
  nondecreasing : ∀ j k, j ≤ k → k < blendSteps →
    rampWeight blendSteps j ≤ rampWeight blendSteps k
  last : 2 ≤ blendSteps → rampWeight blendSteps (blendSteps - 1) = 1

theorem rampLaw (blendSteps : ℕ) : RampLaw blendSteps where
  unit _ hj := rampWeight_mem_unit hj
  zero := rampWeight_zero blendSteps
  nondecreasing _ _ hle hk := rampWeight_le hle hk
  last hlarge := rampWeight_last hlarge

/-! ## Convexity of one exchange -/

section Convexity

variable {config : SerialConfig} {actions : Tensor ℚ} {set : Set LaneAction}
  {lane queued : List LaneAction} {i : ℕ}

theorem blend_mem (hset : Convex ℚ set) (hlow : 0 ≤ weight)
    (hhigh : weight ≤ 1) (hleft : left ∈ set) (hright : right ∈ set) :
    blend weight left right ∈ set := by
  have hrest : 0 ≤ 1 - weight := by linarith
  have hsum : 1 - weight + weight = 1 := by ring
  exact hset hleft hright hrest hlow hsum

theorem inputLane_mem (haction : action ∈ inputLane config i actions) :
    action ∈ convexHull ℚ (policyActions i [actions]) := by
  obtain ⟨tick, htick, rfl⟩ := List.mem_map.mp haction
  obtain ⟨weight, hlow, hhigh, left, hleft, right, hright, rfl⟩ :=
    interpolateActionChunk_mem htick
  have hpolicy : ∀ tick ∈ actionTicks actions,
      tick i ∈ convexHull ℚ (policyActions i [actions]) := by
    intro tick htick
    obtain ⟨j, hj, rfl⟩ := List.mem_map.mp htick
    apply subset_convexHull
    exact ⟨actions, List.mem_singleton_self _, j, List.mem_range.mp hj, rfl⟩
  have hblend : blend weight left right i =
      blend weight (left i) (right i) := rfl
  rw [hblend]
  exact blend_mem (convex_convexHull ℚ _) hlow hhigh (hpolicy left hleft)
    (hpolicy right hright)

theorem laneNext_mem (hset : Convex ℚ set)
    (hlane : ∀ action ∈ lane, action ∈ set)
    (hqueued : ∀ queued, previous = some queued →
      config.smoothing.executionSteps + config.smoothing.blendSteps ≤
        queued.length ∧ ∀ action ∈ queued, action ∈ set) :
    ∀ action ∈ laneNext config.smoothing previous lane, action ∈ set := by
  intro action haction
  obtain ⟨index, hindex, rfl⟩ := List.mem_mapIdx.mp haction
  have hinput := hlane _ (List.getElem_mem hindex)
  unfold laneStep
  cases previous with
  | none => exact hinput
  | some queued =>
    obtain ⟨hlength, hmem⟩ := hqueued queued rfl
    dsimp only
    split_ifs with hblend
    · have hweight := rampWeight_mem_unit hblend
      have hrange : config.smoothing.executionSteps + index <
          queued.length := by omega
      apply blend_mem hset hweight.1 hweight.2
      · rw [List.getD_eq_getElem _ _ hrange]
        exact hmem _ (List.getElem_mem hrange)
      · exact hinput
    · exact hinput

theorem policyActions_append (i : ℕ) (actions : Tensor ℚ)
    (chunks : List (Tensor ℚ)) :
    policyActions i chunks ⊆ policyActions i (chunks ++ [actions]) ∧
      policyActions i [actions] ⊆ policyActions i (chunks ++ [actions]) := by
  constructor
  · rintro action ⟨chunk, hchunk, hstep⟩
    exact ⟨chunk, List.mem_append_left _ hchunk, hstep⟩
  · rintro action ⟨chunk, hchunk, hstep⟩
    exact ⟨chunk, List.mem_append_right _ hchunk, hstep⟩

end Convexity

/-! ## One exchange -/

section Exchange

variable {config : SerialConfig} {entries : List SerialEntry}
  {executor : Executor} {actions values : Tensor ℚ} {plan : Plan}

structure Tracks (config : SerialConfig) (entries : List SerialEntry)
    (executor : Executor) : Prop where
  lawful : Lawful (EntryLaw config) entries
  carried : ∀ i, executor.carried i =
    (carriedPlan i entries).map fun plan => plan.lane i
  ownChunks : ∀ i plan, carriedPlan i entries = some plan →
    some (plan.lane i) = lanePlan config i (sinceReset i entries)
  convex : ∀ i plan, carriedPlan i entries = some plan →
    ∀ action ∈ plan.lane i,
      action ∈ convexHull ℚ (policyActions i (sinceReset i entries))
  fresh : ∀ i, carriedPlan i entries = none → sinceReset i entries = []

theorem lanePlan_append (config : SerialConfig) (i : ℕ)
    (chunks : List (Tensor ℚ)) (actions : Tensor ℚ) :
    lanePlan config i (chunks ++ [actions]) =
      some (laneNext config.smoothing (lanePlan config i chunks)
        (inputLane config i actions)) := by
  unfold lanePlan
  rw [List.foldl_append]
  rfl

section

variable (htracks : Tracks config entries executor)

include htracks

theorem Tracks.lanePlan_eq (i : ℕ) : lanePlan config i (sinceReset i entries) =
      executor.carried i := by
  rw [htracks.carried i]
  cases hcarried : carriedPlan i entries with
  | none =>
    rw [htracks.fresh i hcarried]
    rfl
  | some previous => exact (htracks.ownChunks i previous hcarried).symm

theorem Tracks.convex_planned
    (hplanned : Planned config actions values executor plan input) (i : ℕ) :
    ∀ action ∈ plan.lane i, action ∈
      convexHull ℚ (policyActions i (sinceReset i entries ++ [actions])) := by
  obtain ⟨inputTimes, hprepare⟩ := hplanned.prepared
  obtain ⟨hearlier, hown⟩ :=
    policyActions_append i actions (sinceReset i entries)
  rw [hplanned.lane i]
  apply laneNext_mem (convex_convexHull ℚ _)
  · intro action haction
    rw [(prepare_eq_ok hprepare).2] at haction
    exact convexHull_mono hown (inputLane_mem haction)
  · intro queued hqueued
    constructor
    · rw [hplanned.carriedLength i queued hqueued]
      exact hplanned.fits
    · intro action haction
      have hcarried := htracks.carried i
      rw [hqueued] at hcarried
      obtain ⟨previous, hprevious, hlane⟩ :=
        Option.map_eq_some_iff.mp hcarried.symm
      rw [← hlane] at haction
      exact convexHull_mono hearlier
        (htracks.convex i previous hprevious action haction)

theorem Tracks.planLaw
    (hplan : planned config actions values executor = .ok (plan, times)) :
    PlanLaw config entries actions values plan
      (stepCalls (plan.ticks.take config.smoothing.executionSteps)
        (times.take config.smoothing.executionSteps)) := by
  obtain ⟨input, hplanned⟩ := planned_eq_ok hplan
  obtain ⟨inputTimes, hprepare⟩ := hplanned.prepared
  have hfits := hplanned.fits
  have hlength := hplanned.length
  constructor
  · refine ⟨input, inputTimes, hprepare, hlength, ?_⟩
    intro i j hj
    have hlane : plan.action i j = laneStep config.smoothing
        (executor.carried i) j (input.action i j) := by
      unfold Plan.action
      rw [← Plan.getD_lane, ← Plan.getD_lane, hplanned.lane i]
      apply getD_laneNext
      rw [Plan.length_lane]
      exact hj
    rw [hlane, htracks.carried i]
    cases hcarried : carriedPlan i entries with
    | none => rfl
    | some previous =>
      simp only [Option.map_some, laneStep]
      rw [Plan.getD_lane]
      rfl
  · constructor
    · omega
    · apply map_action_stepCalls
      rw [List.length_take, List.length_take, length_of_planned hplan]
  · intro i
    rw [lanePlan_append, htracks.lanePlan_eq i, hplanned.lane i,
      (prepare_eq_ok hprepare).2]
  · intro i j hj
    apply htracks.convex_planned hplanned i
    unfold Plan.action
    rw [← Plan.getD_lane, List.getD_eq_getElem _ _ (by simpa using hj)]
    exact List.getElem_mem _

end

end Exchange

/-! ## Every exchange of a run -/

section Steps

variable {config : SerialConfig} {entries : List SerialEntry}
  {executor : Executor}

theorem carriedPlan_append (i : ℕ) (entry : SerialEntry) :
    carriedPlan i (entries ++ [entry]) =
      carry i (carriedPlan i entries) entry := by
  unfold carriedPlan
  rw [List.foldl_append]
  rfl

theorem sinceReset_append (i : ℕ) (entry : SerialEntry) :
    sinceReset i (entries ++ [entry]) =
      collect i (sinceReset i entries) entry := by
  unfold sinceReset
  rw [List.foldl_append]
  rfl

theorem carry_executed (i : ℕ) (previous plan : Option Plan)
    (actions values : Tensor ℚ) (resetMask : ℕ → Bool)
    (steps : List StepCall) :
    carry i previous (.executed actions values resetMask plan steps) =
      if resetMask i then none else plan :=
  rfl

theorem collect_executed (i : ℕ) (chunks : List (Tensor ℚ))
    (actions values : Tensor ℚ) (resetMask : ℕ → Bool)
    (plan : Option Plan) (steps : List StepCall) :
    collect i chunks (.executed actions values resetMask plan steps) =
      if resetMask i then [] else chunks ++ [actions] :=
  rfl

theorem Tracks.start : Tracks config [] Executor.initial where
  lawful := lawful_nil
  carried _ := rfl
  ownChunks i plan hcarried := by cases hcarried
  convex i plan hcarried := by cases hcarried
  fresh _ _ := rfl

section

variable (htracks : Tracks config entries executor)

include htracks

theorem Tracks.reject (error : ChunkError) :
    Tracks config (entries ++ [.rejected error]) executor := by
  constructor
  · exact htracks.lawful.snoc trivial
  · intro i
    rw [carriedPlan_append]
    exact htracks.carried i
  · intro i plan
    rw [carriedPlan_append, sinceReset_append]
    exact htracks.ownChunks i plan
  · intro i plan
    rw [carriedPlan_append, sinceReset_append]
    exact htracks.convex i plan
  · intro i
    rw [carriedPlan_append, sinceReset_append]
    exact htracks.fresh i

theorem Tracks.reset :
    Tracks config (entries ++ [.reset]) Executor.initial := by
  constructor
  · exact htracks.lawful.snoc trivial
  · intro i
    rw [carriedPlan_append]
    rfl
  · intro i plan hcarried
    rw [carriedPlan_append] at hcarried
    cases hcarried
  · intro i plan hcarried
    rw [carriedPlan_append] at hcarried
    cases hcarried
  · intro i _
    rw [sinceReset_append]
    rfl

theorem Tracks.execute
    (hplan : planned config actions values executor = .ok (plan, times))
    (resetMask : ℕ → Bool) :
    Tracks config (entries ++ [.executed actions values resetMask (some plan)
      (stepCalls (plan.ticks.take config.smoothing.executionSteps)
        (times.take config.smoothing.executionSteps))])
      ⟨some plan, some fun i => !resetMask i⟩ := by
  have hlaw := htracks.planLaw hplan
  obtain ⟨input, hplanned⟩ := planned_eq_ok hplan
  constructor
  · exact htracks.lawful.snoc ⟨plan, rfl, hlaw⟩
  · intro i
    rw [carriedPlan_append]
    unfold Executor.carried carry
    cases hreset : resetMask i with
    | true | false => simp [hreset]
  · intro i next hcarried
    rw [carriedPlan_append, carry_executed] at hcarried
    rw [sinceReset_append, collect_executed]
    split_ifs at hcarried ⊢ with hreset
    cases hcarried
    exact hlaw.ownChunks i
  · intro i next hcarried
    rw [carriedPlan_append, carry_executed] at hcarried
    rw [sinceReset_append, collect_executed]
    split_ifs at hcarried ⊢ with hreset
    cases hcarried
    exact htracks.convex_planned hplanned i
  · intro i hcarried
    rw [carriedPlan_append, carry_executed] at hcarried
    rw [sinceReset_append, collect_executed]
    split_ifs at hcarried ⊢ with hreset
    rfl

end

theorem Tracks.step (hsmooth : config.smoothing.enable = true)
    (htracks : Tracks config entries executor)
    (hstep : (serialMachine config).step executor call = some (output, next)) :
    Tracks config (entries ++ output) next ∧
      ∀ error, output = [.rejected error] → next = executor := by
  cases call with
  | exchange actions values resetMask =>
    simp only [serialMachine] at hstep
    rw [exchange_run hsmooth] at hstep
    cases hplan : planned config actions values executor with
    | error error =>
      rw [hplan] at hstep
      cases hstep
      exact ⟨htracks.reject error, fun _ _ => rfl⟩
    | ok plan =>
      rw [hplan] at hstep
      cases hstep
      constructor
      · exact htracks.execute hplan resetMask
      · exact nofun
  | reset =>
    cases hstep
    constructor
    · exact htracks.reset
    · exact nofun

end Steps

/-- In every run each plan follows the recurrence of its lanes, its executed
steps are its first ones, a lane's plan depends on the chunks since the lane's
last reset and its actions are convex combinations of theirs.  A rejected
exchange changes nothing. -/
theorem smoothed_plans {config : SerialConfig}
    (hsmooth : config.smoothing.enable = true)
    {events : List (Event Executor SerialCall (List SerialEntry))}
    {final : Executor}
    (hrun : Run (serialMachine config) Executor.initial events final) :
    Lawful (EntryLaw config) (log events) ∧
      (∀ event ∈ events, ∀ error, event.output = [.rejected error] →
        event.after = event.before) ∧
      RampLaw config.smoothing.blendSteps := by
  have htracks : Tracks config (log events) final := by
    apply Run.log_invariant (fun _ _ => True) (Tracks config) ?_ hrun
      (fun _ _ => trivial) Tracks.start
    intro entries state label output next hstate _ hstep
    exact (hstate.step hsmooth hstep).1
  refine ⟨htracks.lawful, ?_, rampLaw _⟩
  intro event hevent error houtput
  obtain ⟨left, right, hsplit⟩ := List.append_of_mem hevent
  rw [hsplit] at hrun
  obtain ⟨hbefore, hstep, -⟩ := hrun.at_event
  have hprior : Tracks config (log left) event.before := by
    apply Run.log_invariant (fun _ _ => True) (Tracks config) ?_ hbefore
      (fun _ _ => trivial) Tracks.start
    intro entries state label output next hstate _ hlast
    exact (hstate.step hsmooth hlast).1
  exact (hprior.step hsmooth hstep).2 error houtput

def twoLaneConfig : SerialConfig where
  interpolation := ⟨true, 2, le_refl 2⟩
  smoothing := ⟨true, 4, 2, by decide, le_refl 2⟩

/-- Two exchanges around one that is rejected; the second resets lane 1. -/
def twoLaneCalls : List SerialCall :=
  [.exchange (Tensor.cube 2 3 1 fun _ j _ => 3 * j)
      (Tensor.matrix 2 3 fun _ _ => 0) fun _ => false,
    .exchange (Tensor.cube 2 2 1 fun _ _ _ => 0)
      (Tensor.matrix 2 2 fun _ _ => 0) fun _ => false,
    .exchange (Tensor.cube 2 3 1 fun _ _ _ => 10)
      (Tensor.matrix 2 3 fun _ _ => 0) fun i => i == 1]

theorem smoothed_plans_twoLanes : ∃ events final,
    (serialMachine twoLaneConfig).exec Executor.initial twoLaneCalls =
      some (events, final) ∧
    Lawful (EntryLaw twoLaneConfig) (log events) ∧
    (∀ event ∈ events, ∀ error, event.output = [.rejected error] →
      event.after = event.before) ∧
    RampLaw 2 := by
  have hsome : ((serialMachine twoLaneConfig).exec Executor.initial
      twoLaneCalls).isSome = true := rfl
  obtain ⟨⟨events, final⟩, hexec⟩ := Option.isSome_iff_exists.mp hsome
  exact ⟨events, final, hexec, smoothed_plans rfl (Machine.run_of_exec hexec)⟩

end SerialExecutor
end VerlVla
