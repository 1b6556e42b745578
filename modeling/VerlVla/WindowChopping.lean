import VerlVla.EpisodeBuffer
import VerlVla.StreamCuts

/-!
# Rollout windows and SAC episodes

A rollout stream reaches the episode buffer in windows.  The buffer carries the
open steps of every lane from one window to the next, so the episodes of a lane
depend on its stream only.  They are the runs of the stream that have more than
one step, and every step of them becomes a valid transition.
-/

namespace VerlVla

open List hiding cons nil

variable {D : Type}

theorem mapIdx_reward_sum (earlier substeps : List BaseEnv.Report) :
    (substeps.mapIdx fun position substep =>
        if ((earlier ++ substeps).take (earlier.length + position)).all
          fun report => !report.done then substep.reward else 0).sum =
      if earlier.all fun report => !report.done then
        ((substeps.take (substeps.findIdx (·.done) + 1)).map (·.reward)).sum
      else 0 := by
  induction substeps generalizing earlier with
  | nil => simp
  | cons substep substeps ih =>
    have hstep := ih (earlier ++ [substep])
    have hlength : (earlier ++ [substep]).length = earlier.length + 1 := by
      simp
    simp only [append_assoc, singleton_append, hlength,
      Nat.add_assoc, Nat.add_comm 1] at hstep
    rw [mapIdx_cons, sum_cons, Nat.add_zero, take_left, hstep]
    cases hearlier : earlier.all fun report => !report.done with
    | false =>
      simp [all_append, hearlier]
    | true =>
      cases hdone : substep.done with
      | true | false =>
        simp [all_append, hearlier, hdone, findIdx_cons]

theorem RolloutStep.reward_eq (step : RolloutStep D) : step.reward =
      ((step.substeps.take (step.substeps.findIdx (·.done) + 1)).map
        (·.reward)).sum := by
  have hsum := mapIdx_reward_sum [] step.substeps
  simpa [RolloutStep.reward] using hsum

/-! ## One lane of the buffer -/

namespace EpisodeBuffer

def laneMachine : Transducer (Episode D) (RolloutStep D) (Episode D) where
  start := []
  step := fun buffer step => ingestStep (buffer, []) step

theorem ingestStep_eq (buffer : Episode D) (episodes : List (Episode D))
    (step : RolloutStep D) :
    ingestStep (buffer, episodes) step = ((laneMachine.step buffer step).1,
        episodes ++ (laneMachine.step buffer step).2) := by
  unfold laneMachine ingestStep
  cases hdone : step.done with
  | false => simp [hdone]
  | true =>
    by_cases hlength : 1 < (buffer ++ [step]).length
    · simp only [hdone, if_true, if_pos hlength, nil_append]
    · simp only [hdone, if_true, if_neg hlength, append_nil]

theorem ingestLane_eq_feed (buffer steps : Episode D) :
    ingestLane buffer steps = laneMachine.feed buffer steps := by
  have hfold : ∀ episodes : List (Episode D),
      steps.foldl ingestStep (buffer, episodes) =
        ((laneMachine.feed buffer steps).1,
          episodes ++ (laneMachine.feed buffer steps).2) := by
    induction steps generalizing buffer with
    | nil => simp
    | cons step steps ih =>
      intro episodes
      rw [foldl_cons, ingestStep_eq, ih, Transducer.feed, append_assoc]
  exact hfold []

theorem laneMachine_fresh :
    (laneMachine : Transducer (Episode D) _ _).Fresh RolloutStep.done := by
  constructor
  · intro buffer step hlive
    simp [laneMachine, ingestStep, hlive]
  · intro buffer step hended
    simp [laneMachine, ingestStep, hended]

theorem feed_run {run : Episode D} (hrun : IsRun RolloutStep.done run) :
    (laneMachine.feed [] run).2 = if 1 < run.length then [run] else [] := by
  obtain ⟨before, last, rfl, hbefore, hlast⟩ := hrun
  have hended := ingestLane_ended hbefore hlast
    (forall_mem_nil fun step : RolloutStep D => step.done = false)
  rw [ingestLane_eq_feed] at hended
  have houtputs := congrArg Prod.snd hended
  cases before with
  | nil | cons step before => simpa using houtputs

theorem feed_stream {stream rest : Episode D} {runs : List (Episode D)}
    (hcut : Cut RolloutStep.done stream runs rest) :
    (laneMachine.feed [] stream).2 = runs.filter (1 < ·.length) := by
  have houtputs : ∀ runs : List (Episode D),
      (∀ run ∈ runs, IsRun RolloutStep.done run) →
      (runs.map fun run => (laneMachine.feed [] run).2).flatten =
        runs.filter (1 < ·.length) := by
    intro runs hclosed
    induction runs with
    | nil => rfl
    | cons run runs ih =>
      obtain ⟨hrun, hclosed⟩ := forall_mem_cons.mp hclosed
      rw [map_cons, flatten_cons, feed_run hrun, ih hclosed]
      by_cases hlength : 1 < run.length
      · simp [hlength]
      · simp [hlength]
  have hfeed := congrArg Prod.snd (laneMachine_fresh.feed_cut hcut)
  exact hfeed.trans (houtputs runs hcut.closed)

/-! ## All lanes -/

def ingestAll (buffer : EpisodeBuffer D) :
    List (List (Episode D)) → Except IngestError (List (List (Episode D)))
  | [] => .ok []
  | rollout :: rollouts => do
    let episodes ← (buffer.ingest rollout).2
    let later ← ingestAll (buffer.ingest rollout).1 rollouts
    pure (episodes :: later)

def returned (lanes : ℕ) (rollouts : List (List (Episode D))) :
    List (List (List (Episode D))) :=
  (laneMachine.feedLaneWindows id (replicate lanes []) rollouts).2

section Windows

variable {rollouts : List (List (Episode D))} {lanes : ℕ}

theorem ingest_feedLanes {buffer : EpisodeBuffer D}
    {rollout states : List (Episode D)} (hauto : buffer.autoReset = true)
    (hstates : buffer.lanes.getD (rollout.map fun _ => []) = states)
    (hlength : rollout.length = states.length) :
    buffer.ingest rollout = ({ buffer with
          lanes := some ((laneMachine.feedLanes states rollout).map (·.1)) },
        .ok ((laneMachine.feedLanes states rollout).map (·.2)).flatten) := by
  have hlanes : List.zipWith ingestLane states rollout =
      laneMachine.feedLanes states rollout :=
    congrArg (fun read => List.zipWith read states rollout)
      (funext₂ ingestLane_eq_feed)
  unfold ingest
  dsimp only
  rw [hstates, hlanes, drop_eq_nil_of_le (by rw [hlength]),
    append_nil, require_of (by rw [hlength]), require_of (.inl hauto)]
  rfl

theorem ingestAll_feedLanes {buffer : EpisodeBuffer D}
    {states : List (Episode D)} (hauto : buffer.autoReset = true)
    (hstates : buffer.lanes.getD (replicate states.length []) = states)
    (hlengths : ∀ rollout ∈ rollouts, rollout.length = states.length) :
    buffer.ingestAll rollouts =
      .ok ((laneMachine.feedLaneWindows id states rollouts).2.map
        List.flatten) := by
  induction rollouts generalizing buffer states with
  | nil => rfl
  | cons rollout rollouts ih =>
    obtain ⟨hlength, hlengths⟩ := forall_mem_cons.mp hlengths
    rw [← hlength, ← map_const'] at hstates
    have hnext : ((laneMachine.feedLanes states rollout).map
        fun lane => id lane.1).length = states.length := by
      rw [length_map, Transducer.feedLanes, length_zipWith,
        hlength, Nat.min_self]
    rw [← hnext] at hlengths
    have hlater := ih (show ({ buffer with
      lanes := some ((laneMachine.feedLanes states rollout).map (·.1)) } :
        EpisodeBuffer D).autoReset = true from hauto) rfl hlengths
    rw [ingestAll, ingest_feedLanes hauto hstates hlength]
    dsimp only
    rw [hlater]
    rfl

theorem ingestAll_returned
    (hlengths : ∀ rollout ∈ rollouts, rollout.length = lanes) :
    (create true).ingestAll rollouts =
      .ok ((returned lanes rollouts).map List.flatten) := by
  have hstates : (create true : EpisodeBuffer D).lanes.getD
      (replicate (replicate lanes ([] : Episode D)).length []) =
        replicate lanes [] := by
    rw [length_replicate]
    rfl
  have hwidth : ∀ rollout ∈ rollouts,
      rollout.length = (replicate lanes ([] : Episode D)).length := by
    intro rollout hrollout
    rw [hlengths rollout hrollout, length_replicate]
  exact ingestAll_feedLanes rfl hstates hwidth

theorem laneOf_returned
    (hlengths : ∀ rollout ∈ rollouts, rollout.length = lanes) {lane : ℕ}
    (hlane : lane < lanes) {runs : List (Episode D)} {rest : Episode D}
    (hcut : Cut RolloutStep.done (laneOf lane rollouts) runs rest) :
    laneOf lane (returned lanes rollouts) = runs.filter (1 < ·.length) := by
  have hwidth : ∀ rollout ∈ rollouts,
      rollout.length = (replicate lanes ([] : Episode D)).length := by
    intro rollout hrollout
    rw [hlengths rollout hrollout, length_replicate]
  have hstate : (replicate lanes ([] : Episode D))[lane]? = some [] := by
    rw [getElem?_replicate, if_pos hlane]
  rw [returned, (laneMachine.feedLaneWindows_lane id hwidth hstate).2,
    (laneMachine.feedWindows_id [] _).2]
  exact feed_stream hcut

end Windows

end EpisodeBuffer

/-! ## The transitions of an episode -/

structure StepTransition (stepPenalty : ℚ) (step next : RolloutStep D)
    (transition : SacTransition D) : Prop where
  valid : transition.valids = 1
  current : transition.t0 = step.data
  following : transition.t1 = next.data
  reward : transition.rewards =
    ((step.substeps.take (step.substeps.findIdx (·.done) + 1)).map
      (·.reward)).sum - stepPenalty

theorem prepareSacActorInput_run {episode : Episode D} (stepPenalty : ℚ)
    (hrun : IsRun RolloutStep.done episode) {index : ℕ} {step : RolloutStep D}
    (hstep : episode[index]? = some step) :
    ∃ transition,
      (prepareSacActorInput stepPenalty episode)[index]? = some transition ∧
        StepTransition stepPenalty step (episode[index + 1]?.getD step)
          transition := by
  obtain ⟨before, last, rfl, hbefore, hlast⟩ := hrun
  have hvalids := prepareSacActorInput_ended stepPenalty hbefore hlast
  have htransition : ∃ transition,
      (prepareSacActorInput stepPenalty (before ++ [last]))[index]? =
        some transition ∧ transition.t0 = step.data ∧
        transition.t1 = nextData (before ++ [last]) index step ∧
        transition.rewards =
          (step.reward - stepPenalty) * transition.valids := by
    unfold prepareSacActorInput
    rw [getElem?_mapIdx, hstep]
    exact ⟨_, rfl, rfl, rfl, rfl⟩
  obtain ⟨transition, hget, hcurrent, hfollowing, hrewards⟩ := htransition
  have hvalid := (hvalids transition (mem_of_getElem? hget)).1
  refine ⟨transition, hget, hvalid, hcurrent, ?_, ?_⟩
  · rw [hfollowing]
    unfold nextData
    obtain ⟨hindex, _⟩ := List.getElem?_eq_some_iff.mp hstep
    rw [length_append, length_singleton] at hindex
    by_cases hfinal : index = before.length
    · rw [hfinal, getElem?_concat_length, Option.some.injEq] at hstep
      rw [← hstep, hlast, if_pos rfl, getElem?_eq_none (by simp; omega)]
      rfl
    · have hinside : index < before.length := by omega
      rw [getElem?_append_left hinside] at hstep
      rw [hbefore step (mem_of_getElem? hstep),
        if_neg Bool.false_ne_true, getD_eq_getElem?_getD]
  · rw [hrewards, hvalid, mul_one, step.reward_eq]

/-- Rollouts with the same stream in every lane give the same episodes, the
runs of the stream of more than one step, however the stream is chopped. -/
theorem chopping_keeps_sac_data (stepPenalty : ℚ) (lanes : ℕ)
    (rollouts rollouts' : List (List (Episode D)))
    (hlengths : ∀ rollout ∈ rollouts, rollout.length = lanes)
    (hlengths' : ∀ rollout ∈ rollouts', rollout.length = lanes)
    (hstreams : ∀ lane < lanes, laneOf lane rollouts = laneOf lane rollouts') :
    let returned := EpisodeBuffer.returned lanes rollouts
    let returned' := EpisodeBuffer.returned lanes rollouts'
    (EpisodeBuffer.create true).ingestAll rollouts =
        .ok (returned.map List.flatten) ∧
      (EpisodeBuffer.create true).ingestAll rollouts' =
        .ok (returned'.map List.flatten) ∧
      ∀ lane < lanes, laneOf lane returned = laneOf lane returned' ∧
        (∃ runs rest, Cut RolloutStep.done (laneOf lane rollouts) runs rest ∧
            laneOf lane returned = runs.filter (1 < ·.length)) ∧
        ∀ episode ∈ laneOf lane returned,
          (prepareSacActorInput stepPenalty episode).length = episode.length ∧
          ∀ index step, episode[index]? = some step → ∃ transition,
              (prepareSacActorInput stepPenalty episode)[index]? =
                some transition ∧
              StepTransition stepPenalty step
                (episode[index + 1]?.getD step) transition := by
  constructor
  · exact EpisodeBuffer.ingestAll_returned hlengths
  constructor
  · exact EpisodeBuffer.ingestAll_returned hlengths'
  intro lane hlane
  obtain ⟨runs, rest, hcut⟩ :=
    Cut.existing RolloutStep.done (laneOf lane rollouts)
  have hepisodes := EpisodeBuffer.laneOf_returned hlengths hlane hcut
  constructor
  · have hcut' := hcut
    rw [hstreams lane hlane] at hcut'
    rw [hepisodes, EpisodeBuffer.laneOf_returned hlengths' hlane hcut']
  constructor
  · exact ⟨runs, rest, hcut, hepisodes⟩
  · intro episode hepisode
    rw [hepisodes] at hepisode
    have hrun := hcut.closed episode (mem_of_mem_filter hepisode)
    constructor
    · exact length_mapIdx
    · intro index step hstep
      exact prepareSacActorInput_run stepPenalty hrun hstep

namespace ChoppedStream

def substep (terminated : Bool) : BaseEnv.Report where
  reward := 1
  terminated := terminated
  truncated := false
  success := terminated

def step (terminated : Bool) (frame : ℕ) : RolloutStep ℕ where
  substeps := [substep terminated, substep false]
  data := frame

def first : Episode ℕ := [step false 0, step true 1]

def second : Episode ℕ := [step false 2, step true 3]

end ChoppedStream

open ChoppedStream in
theorem chopping_keeps_sac_data_across_episode :
    laneOf 0 (EpisodeBuffer.returned 1 [[first ++ second]]) =
      laneOf 0 (EpisodeBuffer.returned 1
        [[[step false 0]], [[step true 1, step false 2]], [[step true 3]]]) :=
  have hkept := chopping_keeps_sac_data (D := ℕ) 0 1 [[first ++ second]]
    [[[step false 0]], [[step true 1, step false 2]], [[step true 3]]]
    (by decide) (by decide) (by decide)
  (hkept.2.2 0 Nat.one_pos).1

end VerlVla
