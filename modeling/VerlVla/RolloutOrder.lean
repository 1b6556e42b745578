import VerlVla.ClusterRollouts
import VerlVla.TransitionLog

/-!
# The order of asynchronous rollouts

At most one launched rollout waits to be returned, as a pending task or as a
ready result.  It waits there while an evaluation runs, and the state that the
evaluation refreshes is the state of the ready result.  No weights are updated
before the last launched rollout has finished.
-/

namespace VerlVla

open List hiding after all get

open Transition

variable {W R D A : Type}

namespace ClusterEvent

def launchedTask : ClusterEvent R D → Option ℕ
  | .launched task _ => some task
  | _ => none

def returnedTask : ClusterEvent R D → Option ℕ
  | .returned task _ => some task
  | _ => none

def follow (state : RolloutState R) : ClusterEvent R D → RolloutState R
  | .finished _ _ next => next
  | .evaluated future =>
    { state with resetFuture := some future, carryState := .empty }
  | _ => state

end ClusterEvent

def launchedTasks (entries : List (ClusterEvent R D)) : List ℕ :=
  entries.filterMap ClusterEvent.launchedTask

def returnedTasks (entries : List (ClusterEvent R D)) : List ℕ :=
  entries.filterMap ClusterEvent.returnedTask

def stateAfter (entries : List (ClusterEvent R D)) : RolloutState R :=
  entries.foldl ClusterEvent.follow .initial

def NoneInFlight (entries : List (ClusterEvent R D)) : Prop :=
  ∀ task state, ClusterEvent.launched task state ∈ entries →
    ∃ data next, ClusterEvent.finished task data next ∈ entries

/-- A launch gets the state left by the rollouts and evaluations before it,
weights are updated with no rollout in flight, and a rollout returns what its
task finished with. -/
def rolloutLaw (entries : List (ClusterEvent R D)) : ClusterEvent R D → Prop
  | .launched _ state => state = stateAfter entries
  | .weightsUpdated => NoneInFlight entries
  | .returned task data =>
    ∃ next, ClusterEvent.finished task data next ∈ entries
  | _ => True

section Append

variable (entries : List (ClusterEvent R D)) (entry : ClusterEvent R D)

@[simp] theorem stateAfter_append :
    stateAfter (entries ++ [entry]) = entry.follow (stateAfter entries) := by
  rw [stateAfter, foldl_append]
  rfl

@[simp] theorem launchedTasks_append : launchedTasks (entries ++ [entry]) =
      launchedTasks entries ++ entry.launchedTask.toList := by
  rw [launchedTasks, filterMap_append]
  cases entry <;> rfl

@[simp] theorem returnedTasks_append : returnedTasks (entries ++ [entry]) =
      returnedTasks entries ++ entry.returnedTask.toList := by
  rw [returnedTasks, filterMap_append]
  cases entry <;> rfl

end Append

/-! ## The invariant -/

namespace TrainCluster

structure TasksLogged (entries : List (ClusterEvent R D))
    (cluster : TrainCluster W R D A) : Prop where
  launched : launchedTasks entries = range cluster.tasks.length
  returned : returnedTasks entries = range (returnedTasks entries).length
  lawful : Lawful rolloutLaw entries
  finished : ∀ (task : ℕ) data state,
    cluster.tasks[task]? = some (.done data state) →
      ClusterEvent.finished task data state ∈ entries

def Done (cluster : TrainCluster W R D A) (task : ℕ) : Prop :=
  ∃ data state, cluster.tasks[task]? = some (.done data state)

structure Settled (entries : List (ClusterEvent R D))
    (cluster : TrainCluster W R D A) : Prop where
  pending : cluster.pendingRolloutRef = none
  done : ∀ task < cluster.tasks.length, Done cluster task
  state : cluster.objects cluster.rolloutState = stateAfter entries

structure Unreturned (entries : List (ClusterEvent R D))
    (cluster : TrainCluster W R D A) (result : RolloutResult D) : Prop where
  next : result.task = (returnedTasks entries).length
  last : cluster.tasks.length = result.task + 1
  data : ∃ state, cluster.tasks[result.task]? = some (.done result.data state)

structure Pending (entries : List (ClusterEvent R D))
    (cluster : TrainCluster W R D A) (task : ℕ) : Prop where
  pending : cluster.pendingRolloutRef = some task
  ready : cluster.readyRolloutResult = none
  next : task = (returnedTasks entries).length
  last : cluster.tasks.length = task + 1
  done : ∀ earlier < task, Done cluster earlier
  state : ∀ data state, cluster.tasks[task]? = some (.done data state) →
    state = stateAfter entries

/-- With no rollout pending, every launched one is returned but for a ready
result, which shares its state with the cluster. -/
inductive AtRest (entries : List (ClusterEvent R D))
    (cluster : TrainCluster W R D A) : Prop
  | returned (ready : cluster.readyRolloutResult = none)
      (all : cluster.tasks.length = (returnedTasks entries).length)
  | ready (result : RolloutResult D)
      (ready : cluster.readyRolloutResult = some result)
      (unreturned : Unreturned entries cluster result)
      (shared : result.state = cluster.rolloutState)

/-- Where a launched rollout waits that no call has returned. -/
inductive Waiting (entries : List (ClusterEvent R D))
    (cluster : TrainCluster W R D A) : Prop
  | rest (settled : Settled entries cluster) (rest : AtRest entries cluster)
      (driver : cluster.driver = .idle)
  | pending (task : ℕ) (pending : Pending entries cluster task)

structure RolloutInv (entries : List (ClusterEvent R D))
    (cluster : TrainCluster W R D A) : Prop where
  logged : TasksLogged entries cluster
  waiting : Waiting entries cluster

section Steps

variable {world : ClusterWorld W R D A} {config : ClusterConfig}
  {entries : List (ClusterEvent R D)}
  {cluster next : TrainCluster W R D A}

theorem rolloutInv_start (initial : W) :
    RolloutInv ([] : List (ClusterEvent R D))
      (start initial : TrainCluster W R D A) := by
  constructor
  · constructor
    · rfl
    · rfl
    · exact lawful_nil
    · exact nofun
  · apply Waiting.rest
    · constructor
      · rfl
      · exact nofun
      · rfl
    · exact .returned rfl rfl
    · rfl

theorem TasksLogged.noneInFlight (hlogged : TasksLogged entries cluster)
    (hdone : ∀ task < cluster.tasks.length, Done cluster task) :
    NoneInFlight entries := by
  intro task state hlaunched
  have hmember : task ∈ launchedTasks entries := by
    rw [launchedTasks, mem_filterMap]
    exact ⟨_, hlaunched, rfl⟩
  rw [hlogged.launched, mem_range] at hmember
  obtain ⟨data, next, htask⟩ := hdone task hmember
  exact ⟨data, next, hlogged.finished task data next htask⟩

theorem TasksLogged.snoc (hlogged : TasksLogged entries cluster)
    {entry : ClusterEvent R D} (hlaw : rolloutLaw entries entry)
    (hlaunched : entry.launchedTask = none)
    (hreturned : entry.returnedTask = none)
    (htasks : next.tasks = cluster.tasks) :
    TasksLogged (entries ++ [entry]) next := by
  constructor
  · rw [launchedTasks_append, hlaunched, htasks, hlogged.launched]
    exact append_nil _
  · rw [returnedTasks_append, hreturned, Option.toList_none, append_nil]
    exact hlogged.returned
  · exact hlogged.lawful.snoc hlaw
  · intro task data state htask
    rw [htasks] at htask
    exact mem_append_left _ (hlogged.finished task data state htask)

theorem TasksLogged.congr (hlogged : TasksLogged entries cluster)
    (htasks : next.tasks = cluster.tasks) : TasksLogged entries next := by
  constructor
  · rw [htasks, hlogged.launched]
  · exact hlogged.returned
  · exact hlogged.lawful
  · intro task data state htask
    rw [htasks] at htask
    exact hlogged.finished task data state htask

/-! ## Launches and returns -/

theorem TasksLogged.launch (hlogged : TasksLogged entries cluster)
    (hstate : cluster.objects cluster.rolloutState = stateAfter entries) :
    TasksLogged (entries ++ (launch cluster).1) (launch cluster).2 := by
  constructor
  · rw [TrainCluster.launch, launchedTasks_append, hlogged.launched,
      length_append, length_singleton, range_succ]
    rfl
  · rw [TrainCluster.launch, returnedTasks_append]
    simpa [ClusterEvent.returnedTask] using hlogged.returned
  · exact hlogged.lawful.snoc hstate
  · intro task data state htask
    apply mem_append_left
    apply hlogged.finished
    simp only [TrainCluster.launch] at htask
    by_cases hlt : task < cluster.tasks.length
    · rwa [getElem?_append_left hlt] at htask
    · rw [getElem?_append_right (by omega)] at htask
      cases hindex : task - cluster.tasks.length with
      | zero | succ index =>
        simp [hindex] at htask

theorem Pending.of_launch
    (hdone : ∀ task < cluster.tasks.length, Done cluster task)
    (hready : cluster.readyRolloutResult = none)
    (hreturned : cluster.tasks.length = (returnedTasks entries).length) :
    Pending entries (launch cluster).2 cluster.tasks.length := by
  constructor
  · rfl
  · exact hready
  · exact hreturned
  · rw [TrainCluster.launch, length_append, length_singleton]
  · intro earlier hearlier
    obtain ⟨data, state, htask⟩ := hdone earlier hearlier
    refine ⟨data, state, ?_⟩
    rw [TrainCluster.launch, getElem?_append_left hearlier, htask]
  · intro data state htask
    rw [TrainCluster.launch, getElem?_append_right (Nat.le_refl _),
      Nat.sub_self] at htask
    cases htask

theorem TasksLogged.return (hlogged : TasksLogged entries cluster)
    (hnext : task = (returnedTasks entries).length)
    (hdone : ∃ state, cluster.tasks[task]? = some (.done data state)) :
    TasksLogged (entries ++ [.returned task data]) cluster := by
  obtain ⟨state, htask⟩ := hdone
  constructor
  · rw [launchedTasks_append, hlogged.launched]
    exact append_nil _
  · rw [returnedTasks_append, hlogged.returned]
    simp only [ClusterEvent.returnedTask, Option.toList_some,
      length_append, length_range, length_singleton,
      range_succ, hnext]
  · exact hlogged.lawful.snoc ⟨state, hlogged.finished task data state htask⟩
  · intro other otherData otherState hother
    exact mem_append_left _
      (hlogged.finished other otherData otherState hother)

theorem RolloutInv.returnResult (hlogged : TasksLogged entries cluster)
    (hdone : ∀ task < cluster.tasks.length, Done cluster task)
    (hready : cluster.readyRolloutResult = none)
    {result : RolloutResult D} (hresult : Unreturned entries cluster result)
    (hstate : cluster.objects result.state = stateAfter entries) :
    RolloutInv (entries ++ (returnResult cluster result).1)
      (returnResult cluster result).2 := by
  let base : TrainCluster W R D A :=
    { cluster with rolloutState := result.state, driver := .idle }
  let synchronized := entries ++ [ClusterEvent.weightsUpdated]
  have hsynchronized : TasksLogged synchronized base :=
    hlogged.snoc (hlogged.noneInFlight hdone) rfl rfl rfl
  have hbase : base.objects base.rolloutState = stateAfter synchronized := by
    rw [stateAfter_append]
    exact hstate
  have hlaunched := hsynchronized.launch hbase
  obtain ⟨state, htask⟩ := hresult.data
  have hreturned : returnedTasks (synchronized ++ (launch base).1) =
      returnedTasks entries := by
    simp [synchronized, TrainCluster.launch, returnedTasks,
      ClusterEvent.returnedTask]
  have hkept : (launch base).2.tasks[result.task]? =
      some (.done result.data state) := by
    have hlt : result.task < cluster.tasks.length := by
      have hlast := hresult.last
      omega
    exact (getElem?_append_left hlt).trans htask
  have heq : entries ++ (TrainCluster.returnResult cluster result).1 =
      (synchronized ++ (launch base).1) ++
        [.returned result.task result.data] := by
    simp [TrainCluster.returnResult, synchronized, base]
  rw [heq]
  constructor
  · exact hlaunched.return (by rw [hreturned, hresult.next]) ⟨state, hkept⟩
  · have hcount : base.tasks.length =
        (returnedTasks ((synchronized ++ (launch base).1) ++
          [.returned result.task result.data])).length := by
      rw [returnedTasks_append, hreturned, length_append, ← hresult.next]
      exact hresult.last
    have hpending : Pending _ (launch base).2 base.tasks.length :=
      Pending.of_launch hdone hready hcount
    exact .pending base.tasks.length hpending

/-! ## Received results and evaluations -/

theorem Pending.receive (hlogged : TasksLogged entries cluster) {task : ℕ}
    (hpending : Pending entries cluster task) {result : RolloutResult D}
    (hreceive : receive cluster task = some (result, next)) :
    TasksLogged entries next ∧
      (∀ earlier < next.tasks.length, Done next earlier) ∧
      next.readyRolloutResult = none ∧ next.pendingRolloutRef = none ∧
      Unreturned entries next result ∧
      next.objects result.state = stateAfter entries := by
  unfold TrainCluster.receive at hreceive
  split at hreceive
  case h_2 => cases hreceive
  case h_1 data state htask =>
    cases hreceive
    refine ⟨hlogged.congr rfl, ?_, hpending.ready, rfl, ?_, ?_⟩
    · intro earlier hearlier
      rw [hpending.last] at hearlier
      by_cases hlast : earlier = task
      · exact ⟨data, state, hlast ▸ htask⟩
      · exact hpending.done earlier (by omega)
    · exact ⟨hpending.next, hpending.last, state, htask⟩
    · have hobject := hpending.state data state htask
      rw [← hobject]
      exact Function.update_self ..

theorem AtRest.congr (hrest : AtRest entries cluster)
    (htasks : next.tasks = cluster.tasks)
    (hready : next.readyRolloutResult = cluster.readyRolloutResult)
    (hstate : next.rolloutState = cluster.rolloutState)
    (hreturned : returnedTasks later = returnedTasks entries) :
    AtRest later next := by
  cases hrest with
  | returned hnone hall =>
    apply AtRest.returned
    · rw [hready, hnone]
    · rw [htasks, hreturned, hall]
  | ready result hsome hunreturned hshared =>
    apply AtRest.ready result
    · rw [hready, hsome]
    · constructor
      · rw [hreturned, hunreturned.next]
      · rw [htasks, hunreturned.last]
      · rw [htasks]
        exact hunreturned.data
    · rw [hstate, hshared]

theorem RolloutInv.runEval (hlogged : TasksLogged entries cluster)
    (hsettled : Settled entries cluster) (hrest : AtRest entries cluster)
    (waves : List A) (fails : Bool) :
    RolloutInv (entries ++ (TrainCluster.runEval world cluster waves fails).1)
      (TrainCluster.runEval world cluster waves fails).2 := by
  have hflight := hlogged.noneInFlight hsettled.done
  have hfirst : TasksLogged (entries ++ [.weightsUpdated]) cluster :=
    hlogged.snoc hflight rfl rfl rfl
  cases fails with
  | true =>
    have heq : entries ++ (TrainCluster.runEval world cluster waves true).1 =
          (entries ++ [.weightsUpdated]) ++ [.raised] := by
      simp [TrainCluster.runEval]
    rw [heq]
    constructor
    · exact hfirst.snoc trivial rfl rfl rfl
    · apply Waiting.rest
      · constructor
        · exact hsettled.pending
        · exact hsettled.done
        · rw [stateAfter_append, stateAfter_append]
          exact hsettled.state
      · apply hrest.congr
        · rfl
        · rfl
        · rfl
        · simp [returnedTasks, ClusterEvent.returnedTask]
      · rfl
  | false =>
    obtain ⟨future, heq⟩ : ∃ future, entries ++
        (TrainCluster.runEval world cluster waves false).1 =
          (entries ++ [.weightsUpdated]) ++ [.evaluated future] ∧
        (TrainCluster.runEval world cluster waves false).2.objects
          cluster.rolloutState = { cluster.objects cluster.rolloutState with
              resetFuture := some future
              carryState := .empty } := by
      refine ⟨_, ?_, Function.update_self ..⟩
      simp [TrainCluster.runEval]
    rw [heq.1]
    constructor
    · exact hfirst.snoc trivial rfl rfl rfl
    · apply Waiting.rest
      · constructor
        · exact hsettled.pending
        · exact hsettled.done
        · rw [stateAfter_append, stateAfter_append]
          refine heq.2.trans ?_
          rw [hsettled.state]
          rfl
      · apply hrest.congr
        · rfl
        · rfl
        · rfl
        · simp [returnedTasks, ClusterEvent.returnedTask]
      · rfl

/-! ## The steps -/

theorem RolloutInv.running_pending (hinv : RolloutInv entries cluster)
    (htask : cluster.tasks[task]? = some (.running state)) :
    Pending entries cluster task := by
  have hlt : task < cluster.tasks.length :=
    (List.getElem?_eq_some_iff.mp htask).1
  have hnotDone : ¬ Done cluster task := by
    rintro ⟨data, after, hdone⟩
    simp [htask] at hdone
  cases hinv.waiting with
  | rest settled _ _ => exact absurd (settled.done task hlt) hnotDone
  | pending index pending =>
    have hindex : task = index := by
      have hlast := pending.last
      by_contra hne
      exact hnotDone (pending.done task (by omega))
    rw [hindex]
    exact pending

theorem RolloutInv.finishTask (hinv : RolloutInv entries cluster)
    (hfinish : TrainCluster.finishTask world config cluster task answer =
      some (output, next)) :
    RolloutInv (entries ++ output) next := by
  unfold TrainCluster.finishTask at hfinish
  split at hfinish
  case h_2 => cases hfinish
  case h_1 state htask =>
    cases hfinish
    have hlt : task < cluster.tasks.length :=
      (List.getElem?_eq_some_iff.mp htask).1
    have pending := hinv.running_pending htask
    constructor
    · constructor
      · rw [launchedTasks_append, hinv.logged.launched, length_set]
        exact append_nil _
      · rw [returnedTasks_append]
        simpa [ClusterEvent.returnedTask] using hinv.logged.returned
      · exact hinv.logged.lawful.snoc trivial
      · intro other data after hother
        by_cases heq : other = task
        · subst heq
          rw [getElem?_set_self hlt] at hother
          cases hother
          exact mem_append_right _ (mem_singleton_self _)
        · rw [getElem?_set_ne (Ne.symm heq)] at hother
          exact mem_append_left _
            (hinv.logged.finished other data after hother)
    · apply Waiting.pending task
      constructor
      · exact pending.pending
      · exact pending.ready
      · rw [returnedTasks_append, pending.next]
        simp [ClusterEvent.returnedTask]
      · rw [length_set, pending.last]
      · intro earlier hearlier
        obtain ⟨data, after, hdone⟩ := pending.done earlier hearlier
        refine ⟨data, after, ?_⟩
        rw [getElem?_set_ne (by omega), hdone]
      · intro data after hdone
        rw [getElem?_set_self hlt] at hdone
        cases hdone
        rw [stateAfter_append]
        rfl

theorem RolloutInv.callGet (hinv : RolloutInv entries cluster)
    (hget : TrainCluster.callGet world cluster = some (output, next)) :
    RolloutInv (entries ++ output) next := by
  unfold TrainCluster.callGet at hget
  cases hinv.waiting with
  | rest settled _ _ =>
    rw [settled.pending] at hget
    cases hget
  | pending index pending =>
    rw [pending.pending, Option.bind_some] at hget
    split at hget
    case h_1 => cases hget
    case h_2 result received hreceive =>
      obtain ⟨hlogged, hdone, hready, hnone, hresult, hstate⟩ :=
        pending.receive hinv.logged hreceive
      split at hget
      case h_1 => cases hget
      case h_2 =>
        have hreturn :=
          RolloutInv.returnResult hlogged hdone hready hresult hstate
        rw [Option.some.inj hget] at hreturn
        exact hreturn
      case h_3 waves fails _ =>
        let held : TrainCluster W R D A := { received with
            readyRolloutResult := some result
            rolloutState := result.state }
        have hheld : TasksLogged entries held := hlogged.congr rfl
        have hsettled : Settled entries held := ⟨hnone, hdone, hstate⟩
        have hrest : AtRest entries held := .ready result rfl
            ⟨hresult.next, hresult.last, hresult.data⟩ rfl
        have heval := @RolloutInv.runEval _ _ _ _ world _ _ hheld hsettled
          hrest waves fails
        rw [Option.some.inj hget] at heval
        exact heval

/-! ## The calls -/

theorem RolloutInv.snoc (hinv : RolloutInv entries cluster)
    {entry : ClusterEvent R D} (hlaw : rolloutLaw entries entry)
    (hlaunched : entry.launchedTask = none)
    (hreturned : entry.returnedTask = none)
    (hfollow : ∀ state, entry.follow state = state) :
    RolloutInv (entries ++ [entry]) cluster := by
  have hreturnedTasks : returnedTasks (entries ++ [entry]) =
      returnedTasks entries := by
    rw [returnedTasks_append, hreturned]
    exact append_nil _
  have hstate : stateAfter (entries ++ [entry]) = stateAfter entries := by
    rw [stateAfter_append, hfollow]
  constructor
  · exact hinv.logged.snoc hlaw hlaunched hreturned rfl
  · cases hinv.waiting with
    | rest settled rest driver =>
      apply Waiting.rest
      · exact ⟨settled.pending, settled.done, hstate ▸ settled.state⟩
      · exact rest.congr rfl rfl rfl hreturnedTasks
      · exact driver
    | pending task pending =>
      apply Waiting.pending task
      exact ⟨pending.pending, pending.ready, hreturnedTasks ▸ pending.next,
        pending.last, pending.done, hstate ▸ pending.state⟩

theorem Pending.wait (hlogged : TasksLogged entries cluster)
    (hpending : Pending entries cluster task) (driver : DriverCall A) :
    RolloutInv entries { cluster with driver := driver } := by
  constructor
  · exact hlogged.congr rfl
  · apply Waiting.pending task
    exact ⟨hpending.pending, hpending.ready, hpending.next, hpending.last,
      hpending.done, hpending.state⟩

section

variable (hinv : RolloutInv entries cluster)

include hinv

theorem RolloutInv.rolloutAsync (activePipelineStages : Option ℕ) : RolloutInv
      (entries ++ (TrainCluster.rolloutAsync config cluster
        activePipelineStages).1)
      (TrainCluster.rolloutAsync config cluster activePipelineStages).2 := by
  unfold TrainCluster.rolloutAsync
  by_cases hraise : activePipelineStages.isSome ∨ ¬ config.separateRolloutModel
  · rw [if_pos hraise]
    exact hinv.snoc trivial rfl rfl fun _ => rfl
  · rw [if_neg hraise]
    cases hinv.waiting with
    | rest settled rest driver =>
      cases rest with
      | returned hready hall =>
        rw [hready, settled.pending]
        have hlogged := hinv.logged.launch settled.state
        have hcount : cluster.tasks.length =
            (returnedTasks (entries ++ (launch cluster).1)).length := by
          rw [hall, TrainCluster.launch, returnedTasks_append]
          simp [ClusterEvent.returnedTask]
        have hpending := Pending.of_launch settled.done hready hcount
        exact hpending.wait hlogged .rollout
      | ready result hready hunreturned hshared =>
        rw [hready]
        let taken : TrainCluster W R D A :=
          { cluster with readyRolloutResult := none }
        have hlogged : TasksLogged entries taken := hinv.logged.congr rfl
        have hresult : Unreturned entries taken result :=
          ⟨hunreturned.next, hunreturned.last, hunreturned.data⟩
        have hstate : taken.objects result.state = stateAfter entries := by
          rw [hshared]
          exact settled.state
        exact RolloutInv.returnResult hlogged settled.done rfl hresult hstate
    | pending task pending =>
      have hwait := pending.wait hinv.logged .rollout
      simpa only [pending.ready, pending.pending, append_nil] using hwait

theorem RolloutInv.callEval (waves : List A) (fails : Bool) : RolloutInv
      (entries ++ (TrainCluster.callEval world cluster waves fails).1)
      (TrainCluster.callEval world cluster waves fails).2 := by
  unfold TrainCluster.callEval
  cases hactive : cluster.rolloutCollectionActive with
  | true => exact hinv.snoc trivial rfl rfl fun _ => rfl
  | false =>
    rw [if_neg Bool.false_ne_true]
    cases hinv.waiting with
    | rest settled rest driver =>
      rw [settled.pending]
      exact RolloutInv.runEval hinv.logged settled rest waves fails
    | pending task pending =>
      have hwait := pending.wait hinv.logged (.eval waves fails)
      simpa only [pending.pending, hactive, append_nil] using hwait

theorem RolloutInv.callTrain :
    RolloutInv (entries ++ (TrainCluster.callTrain cluster).1)
      (TrainCluster.callTrain cluster).2 := by
  unfold TrainCluster.callTrain
  split
  · exact hinv.snoc trivial rfl rfl fun _ => rfl
  · exact hinv.snoc trivial rfl rfl fun _ => rfl

theorem RolloutInv.collection (active : Bool) :
    RolloutInv entries { cluster with rolloutCollectionActive := active } := by
  constructor
  · exact hinv.logged.congr rfl
  · cases hinv.waiting with
    | rest settled rest driver =>
      apply Waiting.rest
      · exact ⟨settled.pending, settled.done, settled.state⟩
      · exact rest.congr rfl rfl rfl rfl
      · exact driver
    | pending task pending =>
      apply Waiting.pending task
      exact ⟨pending.pending, pending.ready, pending.next, pending.last,
        pending.done, pending.state⟩

theorem RolloutInv.beginRolloutCollection :
    RolloutInv (entries ++ (TrainCluster.beginRolloutCollection cluster).1)
      (TrainCluster.beginRolloutCollection cluster).2 := by
  unfold TrainCluster.beginRolloutCollection
  split
  case isTrue => exact hinv.snoc trivial rfl rfl fun _ => rfl
  case isFalse hfree =>
    cases hinv.waiting with
    | pending task pending =>
      rw [pending.pending] at hfree
      exact absurd (.inr rfl) hfree
    | rest settled _ _ =>
      have hflight := hinv.logged.noneInFlight settled.done
      have hupdated : RolloutInv (entries ++ [.weightsUpdated]) cluster :=
        hinv.snoc hflight rfl rfl fun _ => rfl
      exact hupdated.collection true

theorem RolloutInv.endRolloutCollection :
    RolloutInv (entries ++ (TrainCluster.endRolloutCollection cluster).1)
      (TrainCluster.endRolloutCollection cluster).2 := by
  unfold TrainCluster.endRolloutCollection
  split
  · rw [append_nil]
    exact hinv.collection false
  · exact hinv.snoc trivial rfl rfl fun _ => rfl

end

/-- Every call but a synchronous rollout. -/
def Asynchronous : ClusterLabel A → Prop
  | .rollout asyncRollout _ _ => asyncRollout = true
  | _ => True

theorem whenIdle_eq (hstep : cluster.whenIdle result = some (output, next)) :
    cluster.driver = .idle ∧ result = (output, next) := by
  unfold TrainCluster.whenIdle at hstep
  split at hstep
  case h_1 hidle => exact ⟨hidle, Option.some.inj hstep⟩
  case h_2 => cases hstep

theorem RolloutInv.step (hinv : RolloutInv entries cluster)
    (hasync : Asynchronous label)
    (hstep : TrainCluster.step world config cluster label =
      some (output, next)) :
    RolloutInv (entries ++ output) next := by
  have hcall : ∀ {result : List (ClusterEvent R D) × TrainCluster W R D A},
      cluster.whenIdle result = some (output, next) →
      RolloutInv (entries ++ result.1) result.2 →
      RolloutInv (entries ++ output) next := by
    intro result hresult hpreserved
    rw [(whenIdle_eq hresult).2] at hpreserved
    exact hpreserved
  cases label with
  | rollout asyncRollout activePipelineStages answer =>
    cases asyncRollout with
    | true => exact hcall hstep (hinv.rolloutAsync activePipelineStages)
    | false => cases hasync
  | eval waves fails => exact hcall hstep (hinv.callEval waves fails)
  | train => exact hcall hstep hinv.callTrain
  | beginRolloutCollection => exact hcall hstep hinv.beginRolloutCollection
  | endRolloutCollection => exact hcall hstep hinv.endRolloutCollection
  | get => exact hinv.callGet hstep
  | finish task answer => exact hinv.finishTask hstep

theorem rolloutInv_of_run
    (hrun : Run (machine world config) (start initial) events next)
    (hasync : ∀ event ∈ events, Asynchronous event.label) :
    RolloutInv (log events) next := by
  apply hrun.log_invariant (fun _ label => Asynchronous label) RolloutInv _
    hasync (rolloutInv_start initial)
  intro entries state label output after hinv hlabel hstep
  exact hinv.step hlabel hstep

end Steps

/-! ## Consumed once, in order -/

section Order

variable {world : ClusterWorld W R D A} {config : ClusterConfig}
  {initial : W} {final : TrainCluster W R D A}
  {events : List (Event (TrainCluster W R D A) (ClusterLabel A)
    (List (ClusterEvent R D)))}

theorem RolloutInv.counts {entries : List (ClusterEvent R D)}
    (hinv : RolloutInv entries final) :
    (returnedTasks entries).length ≤ (launchedTasks entries).length ∧
      (launchedTasks entries).length ≤ (returnedTasks entries).length + 1 := by
  have hlaunched : (launchedTasks entries).length = final.tasks.length := by
    rw [hinv.logged.launched, length_range]
  cases hinv.waiting with
  | rest settled rest _ =>
    cases rest with
    | returned _ hall => omega
    | ready result _ hunreturned _ =>
      have hnext := hunreturned.next
      have hlast := hunreturned.last
      omega
  | pending task pending =>
    have hnext := pending.next
    have hlast := pending.last
    omega

theorem returnedTasks_returnResult (cluster : TrainCluster W R D A)
    (result : RolloutResult D) :
    returnedTasks (returnResult cluster result).1 = [result.task] :=
  rfl

theorem get_returns {cluster : TrainCluster W R D A} {task : ℕ} {data : D}
    {state : RolloutState R} (hpending : cluster.pendingRolloutRef = some task)
    (hdriver : cluster.driver = .rollout)
    (htask : cluster.tasks[task]? = some (.done data state)) :
    ∃ output next, callGet world cluster = some (output, next) ∧
      next.driver = .idle ∧ returnedTasks output = [task] := by
  have hget : callGet world cluster = some (returnResult
        { cluster with
          objects := Function.update cluster.objects cluster.nextObject state
          nextObject := cluster.nextObject + 1
          pendingRolloutRef := none }
        ⟨task, data, cluster.nextObject⟩) := by
    simp only [callGet, hpending, Option.bind_some, receive, htask, hdriver]
  exact ⟨_, _, hget, rfl, returnedTasks_returnResult _ _⟩

def RolloutCall (answer : A) (labels : List (ClusterLabel A)) : Prop :=
  ∃ waited, labels = .rollout true none answer :: waited ∧
    ∀ label ∈ waited, label = .get ∨ ∃ task, label = .finish task answer

theorem Pending.returns {entries : List (ClusterEvent R D)}
    {cluster : TrainCluster W R D A} {task : ℕ}
    (hpending : Pending entries cluster task)
    (hdriver : cluster.driver = .rollout) (answer : A) :
    ∃ more next, Run (machine world config) cluster more next ∧
      next.driver = .idle ∧ returnedTasks (log more) = [task] ∧
      ∀ event ∈ more, event.label = .get ∨
        ∃ waited, event.label = .finish waited answer := by
  have hlt : task < cluster.tasks.length := by
    have hlast := hpending.last
    omega
  cases htask : cluster.tasks[task] with
  | done data state =>
    obtain ⟨output, next, hget, hidle, hreturned⟩ := get_returns
      hpending.pending hdriver
      (List.getElem?_eq_some_iff.mpr ⟨hlt, htask⟩)
    have hstep : (machine world config).step cluster .get =
        some (output, next) := hget
    refine ⟨_, next, Run.single hstep, hidle, ?_, ?_⟩
    · rw [log_singleton]
      exact hreturned
    · intro event hevent
      rw [mem_singleton.mp hevent]
      exact .inl rfl
  | running state =>
    let result := rolloutOnce world config none state answer cluster.world
    let finished : TrainCluster W R D A := { cluster with
        world := result.2
        tasks := cluster.tasks.set task (.done result.1.1 result.1.2) }
    have hfinish : (machine world config).step cluster (.finish task answer) =
          some ([.finished task result.1.1 result.1.2], finished) := by
      have hsome := List.getElem?_eq_some_iff.mpr ⟨hlt, htask⟩
      simp only [machine, TrainCluster.step, TrainCluster.finishTask, hsome]
      rfl
    have hdone : finished.tasks[task]? =
        some (.done result.1.1 result.1.2) := getElem?_set_self hlt
    obtain ⟨output, next, hget, hidle, hreturned⟩ :=
      @get_returns _ _ _ _ world finished _ _ _ hpending.pending hdriver hdone
    have hstep : (machine world config).step finished .get =
        some (output, next) := hget
    refine ⟨_, next, Run.cons hfinish (Run.single hstep), hidle, ?_, ?_⟩
    · simp only [log, flatMap_cons, flatMap_nil, append_nil]
      exact hreturned
    · intro event hevent
      rcases mem_cons.mp hevent with rfl | hlast
      · exact .inr ⟨task, rfl⟩
      · rw [mem_singleton.mp hlast]
        exact .inl rfl

theorem RolloutInv.next_returned {entries : List (ClusterEvent R D)}
    (hinv : RolloutInv entries final) (hidle : final.driver = .idle)
    (hseparate : config.separateRolloutModel = true) (answer : A) :
    ∃ more next, Run (machine world config) final more next ∧
      RolloutCall answer (more.map Event.label) ∧ next.driver = .idle ∧
      returnedTasks (log more) = [(returnedTasks entries).length] := by
  have hwaits : ∀ {output waiting} {later : List (ClusterEvent R D)},
      (machine world config).step final (.rollout true none answer) =
        some (output, waiting) →
      returnedTasks output = [] → waiting.driver = .rollout →
      Pending later waiting (returnedTasks entries).length →
      ∃ more next, Run (machine world config) final more next ∧
        RolloutCall answer (more.map Event.label) ∧ next.driver = .idle ∧
        returnedTasks (log more) = [(returnedTasks entries).length] := by
    intro output waiting later hstep hnone hdriver hpending
    obtain ⟨more, next, hrun, hend, hreturned, hlabels⟩ :=
      hpending.returns hdriver answer
    refine ⟨_, next, Run.cons hstep hrun, ⟨_, rfl, ?_⟩, hend, ?_⟩
    · intro label hlabel
      obtain ⟨event, hevent, rfl⟩ := mem_map.mp hlabel
      exact hlabels event hevent
    · simp only [log, flatMap_cons, returnedTasks,
        filterMap_append] at hnone hreturned ⊢
      rw [hnone, hreturned]
      rfl
  have hcall : ¬ ((none : Option ℕ).isSome ∨
      ¬ config.separateRolloutModel) := by
    simp [hseparate]
  have hstep : (machine world config).step final (.rollout true none answer) =
        some (TrainCluster.rolloutAsync config final none) := by
    simp only [machine, TrainCluster.step, whenIdle, hidle]
  cases hinv.waiting with
  | rest settled rest _ =>
    cases rest with
    | returned hready hall =>
      have hresult : TrainCluster.rolloutAsync config final none =
          ((TrainCluster.launch final).1,
            { (TrainCluster.launch final).2 with driver := .rollout }) := by
        simp only [TrainCluster.rolloutAsync, if_neg hcall, hready,
          settled.pending]
      rw [hresult] at hstep
      have hpending := Pending.of_launch settled.done hready hall
      rw [hall] at hpending
      exact hwaits hstep rfl rfl ⟨hpending.pending, hpending.ready,
        hpending.next, hpending.last, hpending.done, hpending.state⟩
    | ready result hready hunreturned _ =>
      have hresult : TrainCluster.rolloutAsync config final none =
          TrainCluster.returnResult
            { final with readyRolloutResult := none } result := by
        simp only [TrainCluster.rolloutAsync, if_neg hcall, hready]
      rw [hresult] at hstep
      refine ⟨_, _, Run.single hstep, ⟨[], rfl, by simp⟩, rfl, ?_⟩
      rw [log_singleton, ← hunreturned.next]
      exact returnedTasks_returnResult _ _
  | pending task pending =>
    have hresult : TrainCluster.rolloutAsync config final none =
        ([], { final with driver := .rollout }) := by
      simp only [TrainCluster.rolloutAsync, if_neg hcall, pending.ready,
        pending.pending]
    rw [hresult] at hstep
    have hnext := pending.next
    subst hnext
    exact hwaits hstep rfl rfl ⟨pending.pending, pending.ready,
      pending.next, pending.last, pending.done, pending.state⟩

/-- Every launched rollout is returned once, in the order of the launches, and
the next call returns the next one.  A launch gets the state that the one
before it left, refreshed by the evaluations since, and no weights are updated
with a rollout in flight. -/
theorem async_rollouts_consumed_once
    (hrun : Run (machine world config) (start initial) events final)
    (hasync : ∀ event ∈ events, Asynchronous event.label) :
    launchedTasks (log events) = range (launchedTasks (log events)).length ∧
      returnedTasks (log events) = range (returnedTasks (log events)).length ∧
      (returnedTasks (log events)).length ≤
        (launchedTasks (log events)).length ∧
      (launchedTasks (log events)).length ≤
        (returnedTasks (log events)).length + 1 ∧
      Lawful rolloutLaw (log events) ∧
      (final.driver = .idle → config.separateRolloutModel = true →
        ∀ answer, ∃ more next, Run (machine world config) final more next ∧
          RolloutCall answer (more.map Event.label) ∧ next.driver = .idle ∧
          returnedTasks (log more) =
            [(returnedTasks (log events)).length]) := by
  have hinv := rolloutInv_of_run hrun hasync
  obtain ⟨hle, hlast⟩ := hinv.counts
  refine ⟨?_, hinv.logged.returned, hle, hlast, hinv.logged.lawful, ?_⟩
  · rw [hinv.logged.launched, length_range]
  · intro hidle hseparate answer
    exact hinv.next_returned hidle hseparate answer

end Order

/-! ## Two rollouts around an evaluation -/

def countingWorld : ClusterWorld ℕ ℕ ℕ Unit where
  resetEnv _ _ current := (current, current + 1)
  generateSequences _ _ _ _ current := (current, current + 1)
  restartSimulators current := current + 1
  collectRecords _ carry := carry
  collectDatasets _ := false

def separateModel : ClusterConfig where
  separateRolloutModel := true
  restartBetweenRollouts := false
  restartEveryRollouts := 1

def evalBetween : List (ClusterLabel Unit) :=
  [.rollout true none (), .finish 0 (), .get, .train, .eval [(), ()] false,
    .finish 1 (), .get, .rollout true none ()]

theorem evalBetween_async : ∀ label ∈ evalBetween, Asynchronous label := by
  simp [evalBetween, Asynchronous]

theorem evalBetween_exec : ((machine countingWorld separateModel).exec
    (start 0) evalBetween).isSome := by
  decide +kernel

theorem async_rollouts_consumed_around_eval : ∃ events final,
      Run (machine countingWorld separateModel) (start 0) events final ∧
      returnedTasks (log events) = [0, 1] ∧
      Lawful rolloutLaw (log events) := by
  obtain ⟨⟨events, final⟩, hexec⟩ :=
    Option.isSome_iff_exists.mp evalBetween_exec
  have hrun := Machine.run_of_exec hexec
  have hasync : ∀ event ∈ events, Asynchronous event.label := by
    intro event hevent
    have hlabel : event.label ∈ events.map Event.label := mem_map_of_mem hevent
    rw [Machine.labels_of_exec hexec] at hlabel
    exact evalBetween_async _ hlabel
  obtain ⟨_, hreturned, _, _, hlawful, _⟩ :=
    async_rollouts_consumed_once hrun hasync
  have htasks : ((machine countingWorld separateModel).exec (start 0)
      evalBetween).map (fun result => returnedTasks (log result.1)) =
        some [0, 1] := by
    decide +kernel
  rw [hexec] at htasks
  exact ⟨events, final, hrun, Option.some.inj htasks, hlawful⟩

end TrainCluster

end VerlVla
