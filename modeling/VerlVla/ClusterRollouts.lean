import VerlVla.TrajectoryRecords
import VerlVla.TransitionRun

/-!
# Rollouts and evaluations of a train cluster

The driver calls the cluster, and a remote task runs a rollout at the same
time.  A result waits as a pending task or as a ready result until a rollout
call returns it.  The rollout state is an object: a ready result and the
cluster may hold the same one.
-/

namespace VerlVla

inductive EnvMode
  | train
  | eval
  deriving DecidableEq

/-- The simulators and workers as the cluster drives them: what a reset
returns, what a rollout collects, and what is left of it in the carry. -/
structure ClusterWorld (W R D A : Type) where
  resetEnv : EnvMode → Bool → W → R × W
  generateSequences : EnvMode → Option ℕ → R → A → W → D × W
  restartSimulators : W → W
  collectRecords : D → CarryState → CarryState
  collectDatasets : D → Bool

structure ClusterConfig where
  separateRolloutModel : Bool
  restartBetweenRollouts : Bool
  restartEveryRollouts : ℕ

structure RolloutState (R : Type) where
  resetFuture : Option R
  carryState : CarryState
  lerobotCollectedOnce : Bool
  rolloutsSinceSimulatorRestart : ℕ

def RolloutState.initial {R : Type} : RolloutState R where
  resetFuture := none
  carryState := .empty
  lerobotCollectedOnce := false
  rolloutsSinceSimulatorRestart := 0

/-- A remote rollout, with a copy of the state it was given, and what it
returned. -/
inductive RolloutTask (R D : Type)
  | running (state : RolloutState R)
  | done (data : D) (state : RolloutState R)

structure RolloutResult (D : Type) where
  task : ℕ
  data : D
  state : ℕ

inductive DriverCall (A : Type)
  | idle
  | rollout
  | eval (waves : List A) (fails : Bool)

structure TrainCluster (W R D A : Type) where
  world : W
  objects : ℕ → RolloutState R
  nextObject : ℕ
  rolloutState : ℕ
  tasks : List (RolloutTask R D)
  pendingRolloutRef : Option ℕ
  readyRolloutResult : Option (RolloutResult D)
  rolloutCollectionActive : Bool
  driver : DriverCall A

inductive ClusterLabel (A : Type)
  | rollout (asyncRollout : Bool) (activePipelineStages : Option ℕ)
      (answer : A)
  | eval (waves : List A) (fails : Bool)
  | train
  | beginRolloutCollection
  | endRolloutCollection
  | get
  | finish (task : ℕ) (answer : A)

inductive ClusterEvent (R D : Type)
  | launched (task : ℕ) (state : RolloutState R)
  | finished (task : ℕ) (data : D) (state : RolloutState R)
  | weightsUpdated
  | evaluated (resetFuture : R)
  | returned (task : ℕ) (data : D)
  | returnedSync (data : D)
  | trained
  | raised

namespace TrainCluster

variable {W R D A : Type} (world : ClusterWorld W R D A)
  (config : ClusterConfig)

def start (initial : W) : TrainCluster W R D A where
  world := initial
  objects _ := .initial
  nextObject := 1
  rolloutState := 0
  tasks := []
  pendingRolloutRef := none
  readyRolloutResult := none
  rolloutCollectionActive := false
  driver := .idle

def takeReset (state : RolloutState R) (current : W) : R × W :=
  match state.resetFuture with
  | some future => (future, current)
  | none => world.resetEnv .train false current

def rolloutOnce (activePipelineStages : Option ℕ) (state : RolloutState R)
    (answer : A) (current : W) : (D × RolloutState R) × W :=
  let reset := takeReset world state current
  let output := world.generateSequences .train activePipelineStages reset.1
    answer reset.2
  let rollouts := if config.restartBetweenRollouts then
      state.rolloutsSinceSimulatorRestart + 1
    else state.rolloutsSinceSimulatorRestart
  let restartDue := config.restartBetweenRollouts ∧
    config.restartEveryRollouts ≤ rollouts
  let restarted := if restartDue then world.restartSimulators output.2
    else output.2
  let prefetched := world.resetEnv .train false restarted
  ((output.1,
    { resetFuture := some prefetched.1
      carryState := world.collectRecords output.1 state.carryState
      lerobotCollectedOnce :=
        state.lerobotCollectedOnce || world.collectDatasets output.1
      rolloutsSinceSimulatorRestart := if restartDue then 0 else rollouts }),
    prefetched.2)

section Tasks

variable (cluster : TrainCluster W R D A)

def launch : List (ClusterEvent R D) × TrainCluster W R D A :=
  let state := cluster.objects cluster.rolloutState
  ([.launched cluster.tasks.length state], { cluster with
      tasks := cluster.tasks ++ [.running state]
      pendingRolloutRef := some cluster.tasks.length })

def receive (task : ℕ) : Option (RolloutResult D × TrainCluster W R D A) :=
  match cluster.tasks[task]? with
  | some (.done data state) =>
    some (⟨task, data, cluster.nextObject⟩, { cluster with
        objects := Function.update cluster.objects cluster.nextObject state
        nextObject := cluster.nextObject + 1
        pendingRolloutRef := none })
  | _ => none

def finishTask (task : ℕ) (answer : A) :
    Option (List (ClusterEvent R D) × TrainCluster W R D A) :=
  match cluster.tasks[task]? with
  | some (.running state) =>
    let result := rolloutOnce world config none state answer cluster.world
    some ([.finished task result.1.1 result.1.2], { cluster with
        world := result.2
        tasks := cluster.tasks.set task (.done result.1.1 result.1.2) })
  | _ => none

/-- The rest of an asynchronous rollout call, once it has its result. -/
def returnResult (result : RolloutResult D) :
    List (ClusterEvent R D) × TrainCluster W R D A :=
  let launched := launch
    { cluster with rolloutState := result.state, driver := .idle }
  (.weightsUpdated :: launched.1 ++ [.returned result.task result.data],
    launched.2)

def evalWaves (first : Bool) (waves : List A) (current : W) : W :=
  match waves with
  | [] => current
  | answer :: rest =>
    let reset := world.resetEnv .eval first current
    let output := world.generateSequences .eval none reset.1 answer reset.2
    evalWaves false rest output.2

/-- The rest of an evaluation, with no rollout pending.  A failed one does not
refresh the rollout state. -/
def runEval (waves : List A) (fails : Bool) :
    List (ClusterEvent R D) × TrainCluster W R D A :=
  let evaluated := evalWaves world true waves cluster.world
  if fails then
    ([.weightsUpdated, .raised],
      { cluster with world := evaluated, driver := .idle })
  else
    let reset := world.resetEnv .train false evaluated
    let state := cluster.objects cluster.rolloutState
    ([.weightsUpdated, .evaluated reset.1], { cluster with
        world := reset.2
        objects := Function.update cluster.objects cluster.rolloutState
          { state with
            resetFuture := some reset.1
            carryState := .empty }
        driver := .idle })

/-! ## Calls -/

def rolloutSync (activePipelineStages : Option ℕ) (answer : A) :
    List (ClusterEvent R D) × TrainCluster W R D A :=
  let state := cluster.objects cluster.rolloutState
  let result := rolloutOnce world config activePipelineStages state answer
    cluster.world
  let synchronized := if cluster.rolloutCollectionActive then []
    else [ClusterEvent.weightsUpdated]
  (synchronized ++ [.returnedSync result.1.1], { cluster with
      world := result.2
      objects := Function.update cluster.objects cluster.rolloutState
        result.1.2 })

def rolloutAsync (activePipelineStages : Option ℕ) :
    List (ClusterEvent R D) × TrainCluster W R D A :=
  if activePipelineStages.isSome ∨ ¬ config.separateRolloutModel then
    ([.raised], cluster)
  else
    match cluster.readyRolloutResult with
    | some result =>
      returnResult { cluster with readyRolloutResult := none } result
    | none =>
      match cluster.pendingRolloutRef with
      | some _ => ([], { cluster with driver := .rollout })
      | none =>
        let launched := launch cluster
        (launched.1, { launched.2 with driver := .rollout })

def callEval (waves : List A) (fails : Bool) :
    List (ClusterEvent R D) × TrainCluster W R D A :=
  if cluster.rolloutCollectionActive then ([.raised], cluster)
  else
    match cluster.pendingRolloutRef with
    | some _ => ([], { cluster with driver := .eval waves fails })
    | none => runEval world cluster waves fails

def callTrain : List (ClusterEvent R D) × TrainCluster W R D A :=
  if cluster.rolloutCollectionActive then ([.raised], cluster)
  else ([.trained], cluster)

def beginRolloutCollection : List (ClusterEvent R D) × TrainCluster W R D A :=
  if cluster.rolloutCollectionActive ∨ cluster.pendingRolloutRef.isSome then
    ([.raised], cluster)
  else ([.weightsUpdated], { cluster with rolloutCollectionActive := true })

def endRolloutCollection : List (ClusterEvent R D) × TrainCluster W R D A :=
  if cluster.rolloutCollectionActive then
    ([], { cluster with rolloutCollectionActive := false })
  else ([.raised], cluster)

def callGet : Option (List (ClusterEvent R D) × TrainCluster W R D A) :=
  match cluster.pendingRolloutRef.bind (receive cluster) with
  | none => none
  | some (result, received) =>
    match cluster.driver with
    | .idle => none
    | .rollout => some (returnResult received result)
    | .eval waves fails =>
      some (runEval world
        { received with
          readyRolloutResult := some result
          rolloutState := result.state }
        waves fails)

/-- A call needs a driver that waits in no other one. -/
def whenIdle (result : List (ClusterEvent R D) × TrainCluster W R D A) :
    Option (List (ClusterEvent R D) × TrainCluster W R D A) :=
  match cluster.driver with
  | .idle => some result
  | _ => none

def step : ClusterLabel A →
    Option (List (ClusterEvent R D) × TrainCluster W R D A)
  | .rollout true activePipelineStages _ =>
    cluster.whenIdle (rolloutAsync config cluster activePipelineStages)
  | .rollout false activePipelineStages answer =>
    cluster.whenIdle
      (rolloutSync world config cluster activePipelineStages answer)
  | .eval waves fails =>
    cluster.whenIdle (callEval world cluster waves fails)
  | .train => cluster.whenIdle cluster.callTrain
  | .beginRolloutCollection => cluster.whenIdle cluster.beginRolloutCollection
  | .endRolloutCollection => cluster.whenIdle cluster.endRolloutCollection
  | .get => callGet world cluster
  | .finish task answer => finishTask world config cluster task answer

end Tasks

def machine : Transition.Machine (TrainCluster W R D A) (ClusterLabel A)
    (List (ClusterEvent R D)) where
  step := step world config

end TrainCluster

end VerlVla
