import VerlVla.ReturnedEpisodes
import VerlVla.TrainingLanes

/-!
# Episodes that cross an evaluation

What a lane has buffered, followed by the window that waits to be returned,
leads to the position of the lane.  A window continues it and an ingested one
keeps it.  An evaluation on shared simulators moves the lane, so a waiting
window has to be closed then.
-/

namespace VerlVla

open List hiding after cons nil

open Transition

/-! ## One lane after the other -/

abbrev Window : Type := List (Episode LanePosition)

/-- Before the first reset nothing is buffered.  After it, the steps of every
lane lead to its position. -/
structure SpliceFree (lanes : ℕ) (sims : LaneSims) (waiting : List Window)
    (fit : FitState LanePosition) : Prop where
  lanes_length : sims.lanes.length = lanes
  windows : ∀ window ∈ waiting, window.length = lanes
  buffer : ∀ buffers, fit.buffer.lanes = some buffers → buffers.length = lanes
  autoReset : fit.buffer.autoReset = true
  alive : fit.failed = false
  fresh : sims.cached = false → ∀ lane,
    fit.lane lane ++ waitingSteps waiting lane = []
  leads : ∀ (lane : ℕ) position, sims.lanes[lane]? = some position →
    Leads (fit.lane lane ++ waitingSteps waiting lane) position
  live : ∀ lane, ∀ step ∈ fit.lane lane, step.done = false
  episodes : ∀ episode ∈ fit.episodes, Continuous episode

section Lanes

variable {lanes : ℕ} {sims : LaneSims} {waiting : List Window}
  {fit : FitState LanePosition}

theorem SpliceFree.initial :
    SpliceFree lanes (SimWorld.initial lanes).train [] (.initial true) := by
  constructor
  · simp [SimWorld.initial]
  · simp
  · intro _ hwindow
    cases hwindow
  · rfl
  · rfl
  · intro _ lane
    simp [FitState.lane, FitState.initial, EpisodeBuffer.create, waitingSteps]
  · intro lane position _
    simp [FitState.lane, FitState.initial, EpisodeBuffer.create, waitingSteps,
      Leads]
  · intro lane step hstep
    simp [FitState.lane, FitState.initial, EpisodeBuffer.create] at hstep
  · intro _ hepisode
    cases hepisode

/-- A reset that starts a training window keeps the position of a lane with
steps to continue. -/
theorem SpliceFree.reset (hfree : SpliceFree lanes sims waiting fit) :
    SpliceFree lanes (sims.reset false) waiting fit := by
  unfold LaneSims.reset
  cases hcached : sims.cached with
  | true => exact hfree
  | false =>
    have hempty := hfree.fresh hcached
    constructor
    · exact (length_map ..).trans hfree.lanes_length
    · exact hfree.windows
    · exact hfree.buffer
    · exact hfree.autoReset
    · exact hfree.alive
    · exact nofun
    · intro lane position _
      rw [hempty lane]
      trivial
    · exact hfree.live
    · exact hfree.episodes

theorem SpliceFree.run (hfree : SpliceFree lanes sims waiting fit)
    (hcached : sims.cached = true) {answer : SimAnswer}
    (hends : ∀ row ∈ answer, EndsReported row) :
    SpliceFree lanes (sims.run answer).2 (waiting ++ [(sims.run answer).1])
      fit := by
  constructor
  · simp [LaneSims.run, hfree.lanes_length]
  · intro window hwindow
    rcases mem_append.mp hwindow with hold | hnew
    · exact hfree.windows window hold
    · rw [mem_singleton.mp hnew]
      simp [LaneSims.run, hfree.lanes_length]
  · exact hfree.buffer
  · exact hfree.autoReset
  · exact hfree.alive
  · intro hfresh
    rw [show (sims.run answer).2.cached = sims.cached from rfl, hcached]
      at hfresh
    cases hfresh
  · intro lane position hposition
    have hlane : ∃ before, sims.lanes[lane]? = some before ∧
        position = (runLane before (answer.getD lane [])).2 := by
      simp only [LaneSims.run, getElem?_map, getElem?_mapIdx,
        Option.map_map, Option.map_eq_some_iff, Function.comp] at hposition
      obtain ⟨before, hbefore, rfl⟩ := hposition
      exact ⟨before, hbefore, rfl⟩
    obtain ⟨before, hbefore, rfl⟩ := hlane
    have hrow : EndsReported (answer.getD lane []) := by
      by_cases hlt : lane < answer.length
      · rw [getD_eq_getElem _ _ hlt]
        exact hends _ (getElem_mem hlt)
      · rw [getD_eq_default _ _ (by omega)]
        exact nofun
    have hleads := (hfree.leads lane before hbefore).runLane hrow
    have hwindow : (sims.run answer).1.getD lane [] =
        (runLane before (answer.getD lane [])).1 := by
      simp [LaneSims.run, getD_eq_getElem?_getD, hbefore]
    rw [waitingSteps_append, hwindow, ← append_assoc]
    exact hleads
  · exact hfree.live
  · exact hfree.episodes

theorem SpliceFree.restart (hfree : SpliceFree lanes sims waiting fit)
    (hclosed : ∀ lane < lanes,
      Closed (fit.lane lane ++ waitingSteps waiting lane)) :
    SpliceFree lanes ({ sims with cached := false }.reset false) waiting
      fit := by
  constructor
  · exact (length_map ..).trans hfree.lanes_length
  · exact hfree.windows
  · exact hfree.buffer
  · exact hfree.autoReset
  · exact hfree.alive
  · exact nofun
  · intro lane position hposition
    obtain ⟨before, hbefore, _⟩ := getElem?_map ▸ hposition |>
      Option.map_eq_some_iff.mp
    have hlt : lane < lanes := by
      rw [← hfree.lanes_length]
      exact (List.getElem?_eq_some_iff.mp hbefore).1
    exact (hfree.leads lane before hbefore).of_closed (hclosed lane hlt)
  · exact hfree.live
  · exact hfree.episodes

/-- Simulators that an evaluation has moved.  What is buffered is cleared,
and a waiting window must not be continued. -/
theorem SpliceFree.move (hfree : SpliceFree lanes sims waiting fit)
    {moved : LaneSims} (hlanes : moved.lanes.length = lanes)
    (hcached : moved.cached = false → moved = sims)
    (hclosed : moved ≠ sims → ∀ lane, Closed (waitingSteps waiting lane)) :
    SpliceFree lanes moved waiting fit.clear := by
  have hempty := fit.clear_lane
  constructor
  · exact hlanes
  · exact hfree.windows
  · intro buffers hbuffers
    simp only [FitState.clear, EpisodeBuffer.clear,
      Option.map_eq_some_iff] at hbuffers
    obtain ⟨before, hbefore, rfl⟩ := hbuffers
    rw [length_map, hfree.buffer before hbefore]
  · exact hfree.autoReset
  · exact hfree.alive
  · intro hfresh lane
    rw [hempty lane, nil_append]
    rw [hcached hfresh] at hfresh
    exact (append_eq_nil_iff.mp (hfree.fresh hfresh lane)).2
  · intro lane position hposition
    rw [hempty lane, nil_append]
    by_cases hmoved : moved = sims
    · rw [hmoved] at hposition
      exact (leads_append.mp (hfree.leads lane position hposition)).2
    · have hlt : lane < sims.lanes.length := by
        rw [hfree.lanes_length, ← hlanes]
        exact (List.getElem?_eq_some_iff.mp hposition).1
      have hbefore := hfree.leads lane _ (getElem?_eq_getElem hlt)
      exact (leads_append.mp hbefore).2.of_closed (hclosed hmoved lane)
  · intro lane step hstep
    rw [hempty lane] at hstep
    cases hstep
  · exact hfree.episodes

theorem SpliceFree.ingest
    (hfree : SpliceFree lanes sims (window :: waiting) fit) :
    SpliceFree lanes sims waiting (fit.ingest window) := by
  have hwindow : window.length = lanes :=
    hfree.windows window (mem_cons_self ..)
  have hingested : fit.Ingested (fit.ingest window) window := by
    apply FitState.ingested hfree.autoReset
    intro buffers hbuffers
    rw [hfree.buffer buffers hbuffers, hwindow]
  have hrow : ∀ lane < window.length, ∃ position,
      sims.lanes[lane]? = some position ∧
        Leads ((fit.ingest window).lane lane ++ waitingSteps waiting lane)
          position ∧
        (∀ step ∈ (fit.ingest window).lane lane, step.done = false) ∧
        ∀ episode ∈ (EpisodeBuffer.ingestLane (fit.lane lane)
          (window.getD lane [])).2, Continuous episode := by
    intro lane hlt
    have hposition : lane < sims.lanes.length := by
      rw [hfree.lanes_length, ← hwindow]
      exact hlt
    have hleads := hfree.leads lane _ (getElem?_eq_getElem hposition)
    rw [waitingSteps_cons] at hleads
    rw [hingested.lane lane hlt]
    exact ⟨_, getElem?_eq_getElem hposition,
      hleads.ingestLane (hfree.live lane) (by simp)⟩
  constructor
  · exact hfree.lanes_length
  · intro other hother
    exact hfree.windows other (mem_cons_of_mem _ hother)
  · intro after hafter
    rw [hingested.buffer after hafter, hwindow]
  · rw [hingested.autoReset]
    exact hfree.autoReset
  · rw [hingested.failed]
    exact hfree.alive
  · intro hfresh lane
    have hempty := hfree.fresh hfresh lane
    rw [waitingSteps_cons] at hempty
    obtain ⟨hbuffer, hrest⟩ := append_eq_nil_iff.mp hempty
    obtain ⟨hnone, hwaiting⟩ := append_eq_nil_iff.mp hrest
    rw [hwaiting, append_nil]
    by_cases hlt : lane < window.length
    · rw [hingested.lane lane hlt, hbuffer, hnone]
      rfl
    · exact hingested.beyond lane (by omega)
  · intro lane position hposition
    have hlt : lane < window.length := by
      rw [hwindow, ← hfree.lanes_length]
      exact (List.getElem?_eq_some_iff.mp hposition).1
    obtain ⟨same, hsame, hleads, _⟩ := hrow lane hlt
    rw [hposition] at hsame
    cases hsame
    exact hleads
  · intro lane step hstep
    by_cases hlt : lane < window.length
    · obtain ⟨_, _, _, hlive, _⟩ := hrow lane hlt
      exact hlive step hstep
    · rw [hingested.beyond lane (by omega)] at hstep
      cases hstep
  · intro episode hepisode
    rcases hingested.episodes episode hepisode with hold | hnew
    · exact hfree.episodes episode hold
    · obtain ⟨lane, hlt, hmember⟩ := hnew
      obtain ⟨_, _, _, _, hcontinuous⟩ := hrow lane hlt
      exact hcontinuous episode hmember

end Lanes

/-! ## Windows and evaluations of the cluster -/

section World

variable {lanes : ℕ} {shared : Bool}
  {records : Window → CarryState → CarryState} {datasets : Window → Bool}
  {config : ClusterConfig} {waiting : List Window}
  {fit : FitState LanePosition} {world : SimWorld}

theorem cached_reset (resetEval : Bool) (sims : LaneSims) :
    (sims.reset resetEval).cached = true := by
  unfold LaneSims.reset
  cases hcached : sims.cached <;> cases resetEval <;> simp [hcached]

theorem length_reset (resetEval : Bool) (sims : LaneSims) :
    (sims.reset resetEval).lanes.length = sims.lanes.length := by
  unfold LaneSims.reset
  split
  · rfl
  · exact length_map ..

def RestartDue (config : ClusterConfig) (state : RolloutState Unit) : Prop :=
  config.restartBetweenRollouts = true ∧
    config.restartEveryRollouts ≤ state.rolloutsSinceSimulatorRestart + 1

/-- What a rollout may collect: only a step that reports its end restarts the
episode, and before a restart of the simulators every lane is done. -/
structure RolloutUnspliced (lanes : ℕ) (config : ClusterConfig)
    (state : RolloutState Unit) (answer : SimAnswer) : Prop where
  ends : ∀ row ∈ answer, EndsReported row
  restart : RestartDue config state → ∀ lane < lanes, ∃ last,
    (answer.getD lane []).getLast? = some last ∧ last.done = true

theorem SpliceFree.rolloutOnce
    (hfree : SpliceFree lanes world.train waiting fit)
    {state : RolloutState Unit} {answer : SimAnswer}
    (hanswer : RolloutUnspliced lanes config state answer)
    (hfuture : state.resetFuture = none ∨ world.train.cached = true)
    (stages : Option ℕ) :
    let result := TrainCluster.rolloutOnce
      (simulatorWorld shared records datasets) config stages state answer world
    SpliceFree lanes result.2.train (waiting ++ [result.1.1]) fit ∧
      result.2.train.cached = true := by
  have hstart : ∃ first, TrainCluster.takeReset
        (simulatorWorld shared records datasets) state world = ((), first) ∧
      SpliceFree lanes first.train waiting fit ∧
      first.train.cached = true := by
    unfold TrainCluster.takeReset
    cases hreset : state.resetFuture with
    | none => exact ⟨_, rfl, hfree.reset, cached_reset false world.train⟩
    | some future =>
      rw [hreset] at hfuture
      refine ⟨world, rfl, hfree, ?_⟩
      exact hfuture.resolve_left (by simp)
  obtain ⟨first, hfirst, hreset, hcached⟩ := hstart
  have hrun := hreset.run hcached hanswer.ends
  simp only [TrainCluster.rolloutOnce, hfirst]
  by_cases hdue : RestartDue config state
  · have hclosed : ∀ lane < lanes, Closed (fit.lane lane ++
        waitingSteps (waiting ++ [(first.train.run answer).1]) lane) := by
      intro lane hlt
      obtain ⟨last, hlast, hdone⟩ := hanswer.restart hdue lane hlt
      have hposition : lane < first.train.lanes.length := by
        rw [hreset.lanes_length]
        exact hlt
      have hwindow : (first.train.run answer).1.getD lane [] =
          (runLane first.train.lanes[lane] (answer.getD lane [])).1 := by
        simp [LaneSims.run, getD_eq_getElem?_getD, hposition]
      rw [waitingSteps_append, hwindow, ← append_assoc]
      exact closed_of_window hlast hdone
    simp only [hdue.1, if_true, true_and, if_pos hdue.2]
    exact ⟨hrun.restart hclosed, cached_reset false _⟩
  · have hkeep : ¬ (config.restartBetweenRollouts = true ∧
        config.restartEveryRollouts ≤
          if config.restartBetweenRollouts = true then
            state.rolloutsSinceSimulatorRestart + 1
          else state.rolloutsSinceSimulatorRestart) := by
      rintro ⟨hbetween, hevery⟩
      rw [if_pos hbetween] at hevery
      exact hdue ⟨hbetween, hevery⟩
    rw [if_neg hkeep]
    exact ⟨hrun.reset, cached_reset false _⟩

theorem evalWaves_train (waves : List SimAnswer)
    (first : Bool) (world : SimWorld) :
    let after := TrainCluster.evalWaves
      (simulatorWorld shared records datasets) first waves world
    after.train.lanes.length = world.train.lanes.length ∧
      (shared = false → after.train = world.train) ∧
      (after.train.cached = false → after.train = world.train) := by
  induction waves generalizing first world with
  | nil => exact ⟨rfl, fun _ => rfl, fun _ => rfl⟩
  | cons answer waves ih =>
    simp only [TrainCluster.evalWaves]
    obtain ⟨hlength, hseparate, hcached⟩ := ih false
      ((simulatorWorld shared records datasets).generateSequences .eval none
        () answer ((simulatorWorld shared records datasets).resetEnv .eval
          first world).2).2
    cases hshared : shared with
    | false =>
      subst hshared
      exact ⟨hlength, fun _ => hseparate rfl, hcached⟩
    | true =>
      subst hshared
      refine ⟨?_, ?_, ?_⟩
      · rw [hlength]
        simp [simulatorWorld, SimWorld.simulators,
          SimWorld.setSimulators, LaneSims.run, length_reset]
      · exact nofun
      · intro hfresh
        have hsame := hcached hfresh
        rw [hsame] at hfresh
        simp only [simulatorWorld, SimWorld.simulators,
          SimWorld.setSimulators, LaneSims.run, if_true,
          cached_reset] at hfresh
        cases hfresh

theorem SpliceFree.evaluate (hfree : SpliceFree lanes world.train waiting fit)
    (hclosed : shared = true → ∀ lane, Closed (waitingSteps waiting lane))
    (waves : List SimAnswer) :
    let after := ((simulatorWorld shared records datasets).resetEnv .train
      false (TrainCluster.evalWaves (simulatorWorld shared records datasets)
        true waves world)).2
    SpliceFree lanes after.train waiting fit.clear ∧
      after.train.cached = true := by
  obtain ⟨hlength, hseparate, hcached⟩ := @evalWaves_train shared records
    datasets waves true world
  have hmoved := hfree.move (hlength.trans hfree.lanes_length) hcached
    (fun hmoved => by
      apply hclosed
      cases hshared : shared with
      | true => rfl
      | false => exact absurd (hseparate hshared) hmoved)
  exact ⟨hmoved.reset, cached_reset false _⟩

end World

/-! ## Runs of the trainer -/

section Fit

variable {lanes : ℕ} {shared asyncRollout : Bool}
  {records : Window → CarryState → CarryState} {datasets : Window → Bool}
  {config : ClusterConfig}

abbrev SacCluster : Type := TrainCluster SimWorld Unit Window SimAnswer

def WindowClosed (window : Window) : Prop := ∀ row ∈ window, Closed row

instance : DecidablePred WindowClosed := fun window =>
  inferInstanceAs (Decidable (∀ row ∈ window, Closed row))

/-- Rollouts collect what they may, an evaluation returns, and the windows
that wait while it runs on shared simulators are closed. -/
def fitConditions (lanes : ℕ) (shared : Bool) (config : ClusterConfig) :
    FlowConditions Unit Window SimAnswer where
  rollout := RolloutUnspliced lanes config
  call _ fails := fails = false
  windows waiting := shared = true → ∀ window ∈ waiting, WindowClosed window

theorem closed_append (hleft : Closed left) (hright : Closed right) :
    Closed (left ++ right) := by
  intro last hlast
  rw [getLast?_append] at hlast
  cases hempty : right.getLast? with
  | none =>
    rw [hempty, Option.none_or] at hlast
    exact hleft last hlast
  | some other =>
    rw [hempty, Option.some_or] at hlast
    cases hlast
    exact hright last hempty

theorem closed_waitingSteps {windows : List Window}
    (hwindows : ∀ window ∈ windows, WindowClosed window) (lane : ℕ) :
    Closed (waitingSteps windows lane) := by
  induction windows with
  | nil =>
    exact nofun
  | cons window windows ih =>
    obtain ⟨hfirst, hrest⟩ := forall_mem_cons.mp hwindows
    have hrow : Closed (window.getD lane []) := by
      by_cases hlt : lane < window.length
      · rw [getD_eq_getElem _ _ hlt]
        exact hfirst _ (getElem_mem hlt)
      · rw [getD_eq_default _ _ (by omega)]
        exact nofun
    exact closed_append hrow (ih hrest)

/-- What waits and what is buffered leads to the lanes through every
rollout, return and evaluation. -/
theorem fitRules : FlowRules (simulatorWorld shared records datasets) config
      (fitConditions lanes shared config)
      (fun world => world.train.cached = true)
      (fun entries world waiting =>
        SpliceFree lanes world.train waiting (fitAfter true entries)) := by
  constructor
  case still =>
    intro entries world waiting entry hfree hstill
    rw [fitAfter_append, FitState.follow_still hstill]
    exact hfree
  case rollout =>
    intro entries world state answer stages hfree hfuture hanswer
    obtain ⟨hrun, hcached⟩ := @SpliceFree.rolloutOnce lanes shared records
      datasets config _ _ _ hfree state answer hanswer hfuture stages
    refine ⟨hcached, ?_, ?_⟩
    · intro task
      rw [fitAfter_append, FitState.follow_finished]
      exact hrun
    · rw [fitAfter_append, FitState.follow_returnedSync hfree.alive]
      exact hrun.ingest
  case returned =>
    intro entries world window task hfree
    rw [fitAfter_append, FitState.follow_returned hfree.alive]
    exact hfree.ingest
  case evaluated =>
    intro entries world waiting waves hfree _ hclosed
    obtain ⟨hevaluated, hcached⟩ := @SpliceFree.evaluate lanes shared records
      datasets _ _ _ hfree
      (fun hshared => closed_waitingSteps (hclosed hshared)) waves
    refine ⟨hcached, ?_⟩
    rw [fitAfter_append, FitState.follow_evaluated hfree.alive]
    exact hevaluated
  case failed =>
    exact nofun
  case quiet =>
    exact nofun

/-- No returned episode is spliced from two simulated ones, if a window that
waits for its return while shared simulators are evaluated is closed in every
lane. -/
theorem episodes_not_spliced {final : SacCluster}
    {events : List (Event SacCluster (ClusterLabel SimAnswer)
      (List (ClusterEvent Unit Window)))}
    (hrun : Run (TrainCluster.machine
      (simulatorWorld shared records datasets) config)
      (TrainCluster.start (.initial lanes)) events final)
    (hflow : ∀ event ∈ events, FlowStep (fitConditions lanes shared config)
      asyncRollout event.before event.label) :
    ∀ episode ∈ (fitAfter true (log events)).episodes, Continuous episode := by
  have hinv := flowInv_of_run fitRules hrun hflow SpliceFree.initial
  exact hinv.windows.kept.episodes

end Fit

/-! ## A window that waits through an evaluation -/

def sharedLane : ClusterWorld SimWorld Unit Window SimAnswer :=
  simulatorWorld true (fun _ carry => carry) fun _ => false

/-- Two windows, an evaluation after the second iteration while the third
window waits, and the return of the third and the fourth. -/
def evalDuringRollout (third : List StepAnswer) :
    List (ClusterLabel SimAnswer) :=
  [.rollout true none [], .finish 0 [[stepAnswer false]], .get, .train,
    .rollout true none [], .finish 1 [[stepAnswer true]], .get, .train,
    .eval [[[stepAnswer false]]] false, .finish 2 [third], .get,
    .rollout true none [], .train, .finish 3 [[stepAnswer true]],
    .rollout true none [], .get, .train]

/-- What the trainer calls: asynchronous rollouts, evaluations and updates,
with no episode restarted in a step. -/
def FitLabel : ClusterLabel SimAnswer → Bool
  | .rollout flag stages _ => flag && stages.isNone
  | .eval _ fails => !fails
  | .finish _ answer => answer.all (·.all (!·.restartEpisode))
  | .train | .get => true
  | .beginRolloutCollection | .endRolloutCollection => false

theorem evalDuringRollout_fit (hthird : third.all (!·.restartEpisode) = true) :
    ∀ label ∈ evalDuringRollout third, FitLabel label = true := by
  simpa [evalDuringRollout, FitLabel, stepAnswer] using hthird

theorem rolloutUnspliced_of_unrestarted
    (hanswer : answer.all (·.all (!·.restartEpisode)) = true) :
    RolloutUnspliced lanes TrainCluster.separateModel state answer := by
  simp only [all_eq_true, Bool.not_eq_true'] at hanswer
  constructor
  · intro row hrow step hstep hrestart
    rw [hanswer row hrow step hstep] at hrestart
    cases hrestart
  · intro hdue
    cases hdue.1

section

variable {lanes : ℕ} {shared : Bool} {cluster : SacCluster}
  {label : ClusterLabel SimAnswer} (hlabel : FitLabel label = true)

include hlabel

theorem rollouts_of_fit :
    (fitConditions lanes shared TrainCluster.separateModel).Rollouts cluster
      label := by
  cases label with
  | rollout flag stages answer =>
    cases flag with
    | true => trivial
    | false => cases hlabel
  | finish task answer =>
    exact fun _ _ => rolloutUnspliced_of_unrestarted hlabel
  | _ => trivial

theorem calls_of_fit :
    (fitConditions lanes shared TrainCluster.separateModel).Calls cluster
      label := by
  cases label with
  | eval waves fails =>
    intro _
    cases fails with
    | true => cases hlabel
    | false => rfl
  | _ => trivial

end

theorem oneKind_of_fit (hlabel : FitLabel label = true) :
    OneKind true label := by
  cases label with
  | rollout flag stages answer =>
    cases flag with
    | true => rfl
    | false => cases hlabel
  | _ => trivial

abbrev SacEvent : Type :=
  Event SacCluster (ClusterLabel SimAnswer) (List (ClusterEvent Unit Window))

theorem evalDuringRollout_run {third : List StepAnswer} {result : Bool}
    {check : List SacEvent → Bool}
    (hcheck : ((TrainCluster.machine sharedLane
      TrainCluster.separateModel).exec (TrainCluster.start (.initial 1))
        (evalDuringRollout third)).map (fun final => check final.1) =
          some result) :
    ∃ events final,
      Run (TrainCluster.machine sharedLane TrainCluster.separateModel)
        (TrainCluster.start (.initial 1)) events final ∧
      events.map Event.label = evalDuringRollout third ∧
      check events = result := by
  obtain ⟨⟨events, final⟩, hexec, hresult⟩ := Option.map_eq_some_iff.mp hcheck
  exact ⟨events, final, Machine.run_of_exec hexec,
    Machine.labels_of_exec hexec, hresult⟩

def spliced (events : List SacEvent) : Bool :=
  decide (¬ ∀ episode ∈ (fitAfter true (log events)).episodes, Continuous episode)

/-- The third window waits with an open episode, which is then joined with the
steps after the evaluation. -/
theorem window_before_eval_is_spliced : ∃ events final,
      Run (TrainCluster.machine sharedLane TrainCluster.separateModel)
        (TrainCluster.start (.initial 1)) events final ∧
      (∀ event ∈ events, FitLabel event.label = true) ∧
      ¬ ∀ episode ∈ (fitAfter true (log events)).episodes, Continuous episode := by
  obtain ⟨events, final, hrun, hlabels, hspliced⟩ :=
    @evalDuringRollout_run [stepAnswer false] true spliced
      (by decide +kernel)
  refine ⟨events, final, hrun, ?_, of_decide_eq_true hspliced⟩
  intro event hevent
  have hlabel : event.label ∈ evalDuringRollout [stepAnswer false] := by
    rw [← hlabels]
    exact mem_map_of_mem hevent
  exact evalDuringRollout_fit rfl _ hlabel

def closedWhileWaiting (events : List SacEvent) : Bool :=
  decide (∀ event ∈ events, RunsEvaluation event.before event.label →
    ∀ window ∈ waitingWindows event.before, WindowClosed window)

theorem episodes_not_spliced_around_eval : ∃ events final,
      Run (TrainCluster.machine sharedLane TrainCluster.separateModel)
        (TrainCluster.start (.initial 1)) events final ∧
      ∀ episode ∈ (fitAfter true (log events)).episodes, Continuous episode := by
  obtain ⟨events, final, hrun, hlabels, hclosed⟩ :=
    @evalDuringRollout_run [stepAnswer false, stepAnswer true] true
      closedWhileWaiting (by decide +kernel)
  have hwaiting := of_decide_eq_true hclosed
  refine ⟨events, final, hrun, ?_⟩
  apply @episodes_not_spliced 1 true true (fun _ carry => carry)
    (fun _ => false) TrainCluster.separateModel final events hrun
  intro event hevent
  have hlabel : event.label ∈
      evalDuringRollout [stepAnswer false, stepAnswer true] := by
    rw [← hlabels]
    exact mem_map_of_mem hevent
  have hfit := evalDuringRollout_fit rfl _ hlabel
  constructor
  · exact oneKind_of_fit hfit
  · exact rollouts_of_fit hfit
  · exact calls_of_fit hfit
  · exact fun _ hruns _ => hwaiting event hevent hruns

end VerlVla
