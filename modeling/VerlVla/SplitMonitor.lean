import Mathlib.Data.Rat.Init
import VerlVla.EvalLanes
import VerlVla.TransitionRun

/-!
# The monitor of a split evaluation

The monitor submits a job for a lane that has items left and whose last job is
not active.  The jobs of a lane are kept in a file, which a restart reads and to
which it adds the jobs of its command line.
-/

namespace VerlVla

open List hiding after cons nil partition
namespace SplitMonitor

open Transition

/-! ## Jobs -/

inductive PartitionRole
  | normal
  | preempt
  deriving DecidableEq

def activeStates : List String :=
  ["CONFIGURING", "COMPLETING", "PENDING", "REQUEUED", "RESIZING", "RUNNING",
    "SUSPENDED"]

/-- The state read from the lines of `squeue`. -/
def slurmState (states : List String) : Option String :=
  match states.find? fun state => activeStates.contains state with
  | some state => some state
  | none => states.head?

def isActive (states : List String) : Bool := match slurmState states with
  | some state => activeStates.contains state
  | none => false

/-- A job of a lane; one that the monitor submitted has its time and the number
of missing items. -/
structure JobRecord where
  jobRef : String
  partition : PartitionRole
  resubmission : Option (ℚ × ℕ)
  deriving DecidableEq

abbrev LaneJobs := ℕ → List JobRecord

structure MonitorArgs where
  runManifest : String
  manifest : RunManifest
  mode : LaneMode
  normalLanes : ℕ
  preemptLanes : ℕ
  normalArrayJob : Option String
  preemptArrayJob : Option String
  laneJobs : List (ℕ × String × PartitionRole)

structure MonitorTopology where
  runManifest : String
  physicalLaneCount : ℕ
  mode : LaneMode
  normalLanes : ℕ
  preemptLanes : ℕ
  deriving DecidableEq

structure MonitorState where
  topology : MonitorTopology
  laneJobs : LaneJobs
  resubmissions : List (ℕ × JobRecord)
  completed : Bool

inductive MonitorError
  | stateMismatch
  | laneOutside (lane laneCount : ℕ)
  | duplicateLane (lane : ℕ)
  deriving DecidableEq

namespace MonitorArgs

variable (args : MonitorArgs)

def physicalLaneCount : ℕ := args.normalLanes + args.preemptLanes

def topology : MonitorTopology where
  runManifest := args.runManifest
  physicalLaneCount := args.physicalLaneCount
  mode := args.mode
  normalLanes := args.normalLanes
  preemptLanes := args.preemptLanes

end MonitorArgs

def arrayLaunches (offset laneCount : ℕ) (arrayJob : Option String)
    (partition : PartitionRole) : List (ℕ × JobRecord) :=
  match arrayJob with
  | none => []
  | some job =>
    if job = "" then []
    else (range laneCount).map fun localLane =>
      (offset + localLane, ⟨job ++ "_" ++ toString localLane, partition, none⟩)

def launches (args : MonitorArgs) : List (ℕ × JobRecord) :=
  arrayLaunches 0 args.normalLanes args.normalArrayJob .normal ++
    arrayLaunches args.normalLanes args.preemptLanes args.preemptArrayJob
      .preempt

def explicitJobs (args : MonitorArgs) : List (ℕ × JobRecord) :=
  args.laneJobs.map fun job => (job.1, ⟨job.2.1, job.2.2, none⟩)

def registerOwner (laneJobs : LaneJobs) (owner : ℕ × JobRecord) : LaneJobs :=
  if (laneJobs owner.1).getLast? = some owner.2 then laneJobs
  else Function.update laneJobs owner.1 (laneJobs owner.1 ++ [owner.2])

def registerArrayLaunches (args : MonitorArgs) (laneJobs : LaneJobs) :
    LaneJobs :=
  (launches args).foldl registerOwner laneJobs

def checkLaneJobs (laneCount : ℕ) (seen : List ℕ) :
    List (ℕ × String × PartitionRole) → Except MonitorError Unit
  | [] => .ok ()
  | (lane, _) :: rest => do
    require (lane < laneCount) (.laneOutside lane laneCount)
    require (lane ∉ seen) (.duplicateLane lane)
    checkLaneJobs laneCount (lane :: seen) rest

def registerExplicitLaneJobs (args : MonitorArgs) (laneJobs : LaneJobs) :
    Except MonitorError LaneJobs := do
  checkLaneJobs args.physicalLaneCount [] args.laneJobs
  .ok ((explicitJobs args).foldl registerOwner laneJobs)

def initialLaneJobs (args : MonitorArgs) : LaneJobs := fun lane =>
  (launches args).filterMap fun launch =>
    if launch.1 = lane then some launch.2 else none

/-- The state of a monitor that starts, which is written before it polls. -/
def restoreState (args : MonitorArgs) (saved : Option MonitorState) :
    Except MonitorError MonitorState :=
  match saved with
  | some state => do
    require (state.topology = args.topology) .stateMismatch
    let laneJobs ← registerExplicitLaneJobs args
      (registerArrayLaunches args state.laneJobs)
    .ok { state with laneJobs }
  | none => do
    let laneJobs ← registerExplicitLaneJobs args
      (registerArrayLaunches args (initialLaneJobs args))
    .ok ⟨args.topology, laneJobs, [], false⟩

/-! ## Polls -/

inductive MonitorPhase
  | sleeping
  | polling (queue : List (ℕ × ℕ))
  | submitting (lane missing : ℕ) (queue : List (ℕ × ℕ))
  | submitted (lane : ℕ) (record : JobRecord) (queue : List (ℕ × ℕ))

/-- The monitor, its file, and the jobs of Slurm. -/
structure MonitorWorld where
  squeue : String → List String
  assigned : List String
  /-- The jobs that the launch and the monitor submitted for a lane. -/
  submitted : List (ℕ × String)
  disk : Option MonitorState
  monitor : Option (MonitorState × MonitorPhase)

inductive MonitorLabel
  | start
  | poll (complete : String → Bool)
  | check
  | submit (answers : PartitionRole → Option String) (atUnixS : ℚ)
  | write
  | crash
  | slurm (jobRef : String) (states : List String)

inductive MonitorOutput
  | started
  | raised (error : MonitorError)
  | polled
  | finished
  | skipped (lane : ℕ)
  | selected (lane : ℕ)
  | deferred (lane : ℕ)
  | accepted (lane : ℕ) (jobRef : String)
  | written
  | slept
  | crashed
  | changed
  deriving DecidableEq

def alternate : PartitionRole → PartitionRole
  | .normal => .preempt
  | .preempt => .normal

def submitPhysicalLane (preferred : PartitionRole)
    (answers : PartitionRole → Option String) :
    Option (String × PartitionRole) :=
  match answers preferred with
  | some job => some (job, preferred)
  | none =>
    match answers (alternate preferred) with
    | some job => some (job, alternate preferred)
    | none => none

/-- The lanes of a poll with items left, each with their number. -/
def pollQueue (args : MonitorArgs) (complete : String → Bool) : List (ℕ × ℕ) :=
  ((range args.physicalLaneCount).map fun lane =>
    (lane, missingPhysicalLanes args.manifest args.mode
      args.physicalLaneCount complete lane)).filter fun entry => entry.2 ≠ 0

def latestActive (world : MonitorWorld) (history : List JobRecord) : Bool :=
  match history.getLast? with
  | some latest => isActive (world.squeue latest.jobRef)
  | none => false

def stepStart (args : MonitorArgs) (world : MonitorWorld) :
    Option (MonitorOutput × MonitorWorld) :=
  match world.monitor with
  | some _ => none
  | none =>
    match restoreState args world.disk with
    | .error error => some (.raised error, world)
    | .ok state => some (.started,
        { world with disk := some state, monitor := some (state, .sleeping) })

def stepPoll (args : MonitorArgs) (complete : String → Bool)
    (world : MonitorWorld) : Option (MonitorOutput × MonitorWorld) :=
  match world.monitor with
  | some (state, .sleeping) =>
    if pollQueue args complete = [] then
      some (.finished, { world with
        disk := some { state with completed := true }
        monitor := none })
    else some (.polled, { world with
      monitor := some (state, .polling (pollQueue args complete)) })
  | _ => none

/-- The monitor takes the next lane of its poll. -/
def stepCheck (world : MonitorWorld) : Option (MonitorOutput × MonitorWorld) :=
  match world.monitor with
  | some (state, .polling []) =>
    some (.slept, { world with
      disk := some state
      monitor := some (state, .sleeping) })
  | some (state, .polling ((lane, missing) :: queue)) =>
    if latestActive world (state.laneJobs lane) then
      some (.skipped lane,
        { world with monitor := some (state, .polling queue) })
    else some (.selected lane,
      { world with monitor := some (state, .submitting lane missing queue) })
  | _ => none

/-- The job is asked for, and Slurm gives it a name of its own. -/
def stepSubmit (args : MonitorArgs)
    (answers : PartitionRole → Option String) (atUnixS : ℚ)
    (world : MonitorWorld) : Option (MonitorOutput × MonitorWorld) :=
  match world.monitor with
  | some (state, .submitting lane missing queue) =>
    let preferred :=
      if lane < args.normalLanes then PartitionRole.normal else .preempt
    match submitPhysicalLane preferred answers with
    | none => some (.deferred lane,
        { world with monitor := some (state, .polling queue) })
    | some (job, partition) =>
      if job ∈ world.assigned then none
      else some (.accepted lane job, { world with
        squeue := Function.update world.squeue job ["PENDING"]
        assigned := job :: world.assigned
        submitted := world.submitted ++ [(lane, job)]
        monitor := some (state, .submitted lane
          ⟨job, partition, some (atUnixS, missing)⟩ queue) })
  | _ => none

def recordSubmission (state : MonitorState) (lane : ℕ) (record : JobRecord) :
    MonitorState :=
  { state with
    laneJobs := Function.update state.laneJobs lane
      (state.laneJobs lane ++ [record])
    resubmissions := state.resubmissions ++ [(lane, record)] }

def stepWrite (world : MonitorWorld) : Option (MonitorOutput × MonitorWorld) :=
  match world.monitor with
  | some (state, .submitted lane record queue) =>
    some (.written, { world with
      disk := some (recordSubmission state lane record)
      monitor := some (recordSubmission state lane record, .polling queue) })
  | _ => none

def stepCrash (world : MonitorWorld) : Option (MonitorOutput × MonitorWorld) :=
  match world.monitor with
  | some _ => some (.crashed, { world with monitor := none })
  | none => none

def stepSlurm (jobRef : String) (states : List String)
    (world : MonitorWorld) : Option (MonitorOutput × MonitorWorld) :=
  if isActive states = true ∧ isActive (world.squeue jobRef) = false then none
  else some (.changed,
    { world with squeue := Function.update world.squeue jobRef states })

def splitMonitor (args : MonitorArgs) :
    Machine MonitorWorld MonitorLabel MonitorOutput where
  step world
    | .start => stepStart args world
    | .poll complete => stepPoll args complete world
    | .check => stepCheck world
    | .submit answers atUnixS => stepSubmit args answers atUnixS world
    | .write => stepWrite world
    | .crash => stepCrash world
    | .slurm jobRef states => stepSlurm jobRef states world

/-- The evaluation is launched, and no monitor has run yet. -/
structure Launched (args : MonitorArgs) (world : MonitorWorld) : Prop where
  submitted : world.submitted =
    (launches args).map fun launch => (launch.1, launch.2.jobRef)
  explicit : ∀ job ∈ args.laneJobs, job.2.1 ∈ world.assigned
  assigned : ∀ job ∈ world.submitted, job.2 ∈ world.assigned
  disk : world.disk = none
  monitor : world.monitor = none

def OneActiveJob (world : MonitorWorld) : Prop :=
  ∀ lane left right, (lane, left) ∈ world.submitted →
    (lane, right) ∈ world.submitted →
    isActive (world.squeue left) = true →
    isActive (world.squeue right) = true → left = right

/-- The job of a lane that the command line names last. -/
def lastOwner (args : MonitorArgs) (lane : ℕ) : Option JobRecord :=
  (((launches args ++ explicitJobs args).filter fun owner =>
    owner.1 = lane).getLast?).map Prod.snd

/-- A monitor starts where a lane that its command line names has no other
active job, and does not stop between a submission and its record. -/
def SafeStep (args : MonitorArgs) (world : MonitorWorld) : MonitorLabel → Prop
  | .start => ∀ lane record, lastOwner args lane = some record →
      ∀ job, (lane, job) ∈ world.submitted →
        isActive (world.squeue job) = true → job = record.jobRef
  | .crash => ∀ state lane record queue,
      world.monitor ≠ some (state, .submitted lane record queue)
  | _ => True

/-! ## The jobs of a command line -/

section Owners

variable {args : MonitorArgs}

def lastRecord (owners : List (ℕ × JobRecord)) (lane : ℕ) : Option JobRecord :=
  ((owners.filter fun owner => owner.1 = lane).getLast?).map Prod.snd

theorem lastRecord_snoc (owners : List (ℕ × JobRecord))
    (owner : ℕ × JobRecord) (lane : ℕ) :
    lastRecord (owners ++ [owner]) lane =
      if owner.1 = lane then some owner.2 else lastRecord owners lane := by
  unfold lastRecord
  by_cases hlane : owner.1 = lane
  · simp [hlane]
  · simp [hlane]

theorem getLast_registerOwners (owners : List (ℕ × JobRecord))
    (laneJobs : LaneJobs) (lane : ℕ) :
    (owners.foldl registerOwner laneJobs lane).getLast? =
      (lastRecord owners lane).or (laneJobs lane).getLast? := by
  induction owners using reverseRecOn with
  | nil => rfl
  | append_singleton owners owner ih =>
    rw [foldl_concat, lastRecord_snoc]
    generalize owners.foldl registerOwner laneJobs = registered at ih
    unfold registerOwner
    by_cases hlast : (registered owner.1).getLast? = some owner.2
    · rw [if_pos hlast]
      by_cases hlane : owner.1 = lane
      · subst hlane
        rw [if_pos rfl, hlast]
        rfl
      · rw [if_neg hlane, ih]
    · rw [if_neg hlast]
      by_cases hlane : owner.1 = lane
      · subst hlane
        simp
      · rw [Function.update_of_ne (Ne.symm hlane), if_neg hlane, ih]

theorem lastRecord_append_or (left right : List (ℕ × JobRecord)) (lane : ℕ) :
    lastRecord (left ++ right) lane =
      (lastRecord right lane).or (lastRecord left lane) := by
  induction right using reverseRecOn with
  | nil => simp [lastRecord]
  | append_singleton right owner ih =>
    rw [← append_assoc, lastRecord_snoc, lastRecord_snoc, ih]
    split_ifs
    · rfl
    · rfl

theorem lastRecord_isSome (howner : owner ∈ owners) :
    ∃ record, lastRecord owners owner.1 = some record := by
  unfold lastRecord
  have hmem : owner ∈ owners.filter fun other => other.1 = owner.1 :=
    mem_filter.mpr ⟨howner, decide_eq_true rfl⟩
  cases hlast : (owners.filter fun other => other.1 = owner.1).getLast? with
  | none =>
    rw [getLast?_eq_none_iff.mp hlast] at hmem
    cases hmem
  | some last => exact ⟨last.2, rfl⟩

theorem getLast_restoreState (hrestore : restoreState args saved = .ok state)
    (lane : ℕ) :
    (state.laneJobs lane).getLast? = (lastOwner args lane).or
      ((match saved with
        | some earlier => earlier.laneJobs lane
        | none => initialLaneJobs args lane).getLast?) := by
  have hregistered : ∀ {laneJobs registered : LaneJobs},
      registerExplicitLaneJobs args
        (registerArrayLaunches args laneJobs) = .ok registered →
      (registered lane).getLast? = (lastOwner args lane).or
        (laneJobs lane).getLast? := by
    intro laneJobs registered hok
    obtain ⟨_, _, hok⟩ := bind_eq_ok.mp hok
    cases hok
    unfold registerArrayLaunches
    rw [getLast_registerOwners, getLast_registerOwners, ← Option.or_assoc,
      ← lastRecord_append_or]
    rfl
  cases saved with
  | none =>
    obtain ⟨laneJobs, hlaneJobs, hrestore⟩ := bind_eq_ok.mp hrestore
    cases hrestore
    exact hregistered hlaneJobs
  | some earlier =>
    obtain ⟨_, hrestore⟩ := require_bind_eq_ok.mp hrestore
    obtain ⟨laneJobs, hlaneJobs, hrestore⟩ := bind_eq_ok.mp hrestore
    cases hrestore
    exact hregistered hlaneJobs

theorem mem_arrayLaunches
    (hlaunch : launch ∈ arrayLaunches offset laneCount arrayJob partition) :
    ∃ job localLane, arrayJob = some job ∧ localLane < laneCount ∧
      launch = (offset + localLane,
        ⟨job ++ "_" ++ toString localLane, partition, none⟩) := by
  unfold arrayLaunches at hlaunch
  split at hlaunch
  · cases hlaunch
  · rename_i job
    split_ifs at hlaunch
    · cases hlaunch
    · obtain ⟨localLane, hlane, rfl⟩ := mem_map.mp hlaunch
      exact ⟨job, localLane, rfl, mem_range.mp hlane, rfl⟩

theorem launches_unique (hleft : left ∈ launches args)
    (hright : right ∈ launches args) (hlane : left.1 = right.1) :
    left = right := by
  cases mem_append.mp hleft with
  | inl hnormal =>
    obtain ⟨job, localLane, hjob, hbound, rfl⟩ := mem_arrayLaunches hnormal
    cases mem_append.mp hright with
    | inl hother =>
      obtain ⟨other, lane, hsame, hlane', rfl⟩ := mem_arrayLaunches hother
      obtain rfl := Option.some.inj (hjob.symm.trans hsame)
      simp only [Nat.zero_add] at hlane
      rw [hlane]
    | inr hother =>
      obtain ⟨other, lane, hsame, hlane', rfl⟩ := mem_arrayLaunches hother
      omega
  | inr hpreempt =>
    obtain ⟨job, localLane, hjob, hbound, rfl⟩ := mem_arrayLaunches hpreempt
    cases mem_append.mp hright with
    | inl hother =>
      obtain ⟨other, lane, hsame, hlane', rfl⟩ := mem_arrayLaunches hother
      simp only at hlane
      omega
    | inr hother =>
      obtain ⟨other, lane, hsame, hlane', rfl⟩ := mem_arrayLaunches hother
      obtain rfl := Option.some.inj (hjob.symm.trans hsame)
      have hlocal : localLane = lane := Nat.add_left_cancel hlane
      rw [hlocal]

theorem lastOwner_of_launch (hlaunch : launch ∈ launches args) :
    ∃ record, lastOwner args launch.1 = some record :=
  lastRecord_isSome (mem_append_left _ hlaunch)

end Owners

/-! ## One active job -/

section Safety

variable {args : MonitorArgs}

def LatestOwns (world : MonitorWorld) (laneJobs : LaneJobs) (lane : ℕ) :
    Prop :=
  ∀ job, (lane, job) ∈ world.submitted → isActive (world.squeue job) = true →
    (laneJobs lane).getLast?.map JobRecord.jobRef = some job

def PhaseOwned (world : MonitorWorld) (laneJobs : LaneJobs) :
    MonitorPhase → Prop
  | .sleeping => ∀ lane, LatestOwns world laneJobs lane
  | .polling _ => ∀ lane, LatestOwns world laneJobs lane
  | .submitting lane _ _ => (∀ other, LatestOwns world laneJobs other) ∧
      latestActive world (laneJobs lane) = false
  | .submitted lane record _ =>
    (∀ other, other ≠ lane → LatestOwns world laneJobs other) ∧
    ∀ job, (lane, job) ∈ world.submitted →
      isActive (world.squeue job) = true → job = record.jobRef

/-- What holds of the jobs between the steps of a run. -/
structure Owned (args : MonitorArgs) (world : MonitorWorld) : Prop where
  assigned : ∀ job ∈ world.submitted, job.2 ∈ world.assigned
  running : ∀ state phase, world.monitor = some (state, phase) →
    PhaseOwned world state.laneJobs phase ∧
      ((∀ lane record queue, phase ≠ .submitted lane record queue) →
        world.disk = some state)
  stopped : world.monitor = none → ∀ saved, world.disk = some saved →
    ∀ lane, LatestOwns world saved.laneJobs lane
  fresh : world.disk = none → world.monitor = none ∧ world.submitted =
    (launches args).map fun launch => (launch.1, launch.2.jobRef)

variable {world next : MonitorWorld} {output : MonitorOutput}

theorem LatestOwns.congr (howns : LatestOwns before laneJobs lane)
    (hsubmitted : ∀ job, (lane, job) ∈ after.submitted →
      isActive (after.squeue job) = true →
      (lane, job) ∈ before.submitted ∧ isActive (before.squeue job) = true) :
    LatestOwns after laneJobs lane := by
  intro job hjob hactive
  obtain ⟨hbefore, hwas⟩ := hsubmitted job hjob hactive
  exact howns job hbefore hwas

theorem LatestOwns.unique (howns : LatestOwns world laneJobs lane)
    (hleft : (lane, left) ∈ world.submitted)
    (hright : (lane, right) ∈ world.submitted)
    (hleftActive : isActive (world.squeue left) = true)
    (hrightActive : isActive (world.squeue right) = true) :
    left = right :=
  Option.some.inj ((howns left hleft hleftActive).symm.trans
    (howns right hright hrightActive))

theorem Owned.oneActiveJob (howned : Owned args world) : OneActiveJob world:= by
  intro lane left right hleft hright hleftActive hrightActive
  cases hmonitor : world.monitor with
  | none =>
    cases hdisk : world.disk with
    | none =>
      have hlaunched := (howned.fresh hdisk).2
      rw [hlaunched] at hleft hright
      obtain ⟨first, hfirst, hleft⟩ := mem_map.mp hleft
      obtain ⟨second, hsecond, hright⟩ := mem_map.mp hright
      cases hleft
      obtain ⟨hlane, rfl⟩ := Prod.mk.inj hright
      rw [launches_unique hsecond hfirst hlane]
    | some saved =>
      exact (howned.stopped hmonitor saved hdisk lane).unique hleft hright
        hleftActive hrightActive
  | some running =>
    obtain ⟨state, phase⟩ := running
    have hphase := (howned.running state phase hmonitor).1
    cases phase with
    | sleeping | polling queue =>
      exact (hphase lane).unique hleft hright hleftActive hrightActive
    | submitting other missing queue =>
      exact (hphase.1 lane).unique hleft hright hleftActive hrightActive
    | submitted other record queue =>
      by_cases hlane : lane = other
      · subst hlane
        rw [hphase.2 left hleft hleftActive,
          hphase.2 right hright hrightActive]
      · exact (hphase.1 lane hlane).unique hleft hright hleftActive
          hrightActive

theorem Launched.owned (hlaunched : Launched args world) : Owned args world:= by
  constructor
  · exact hlaunched.assigned
  · intro state phase hmonitor
    rw [hlaunched.monitor] at hmonitor
    cases hmonitor
  · intro _ saved hdisk
    rw [hlaunched.disk] at hdisk
    cases hdisk
  · exact fun _ => ⟨hlaunched.monitor, hlaunched.submitted⟩

theorem Owned.start {world next : MonitorWorld} {output : MonitorOutput}
    (howned : Owned args world) (hsafe : SafeStep args world .start)
    (hstep : stepStart args world = some (output, next)) :
    Owned args next := by
  unfold stepStart at hstep
  cases hmonitor : world.monitor with
  | some running => simp [hmonitor] at hstep
  | none =>
    cases hrestore : restoreState args world.disk with
    | error error =>
      simp only [hmonitor, hrestore, Option.some.injEq, Prod.mk.injEq] at hstep
      rw [← hstep.2]
      exact howned
    | ok state =>
      simp only [hmonitor, hrestore, Option.some.injEq, Prod.mk.injEq] at hstep
      rw [← hstep.2]
      have howns : ∀ lane, LatestOwns world state.laneJobs lane := by
        intro lane job hjob hactive
        rw [getLast_restoreState hrestore]
        cases howner : lastOwner args lane with
        | some record =>
          rw [hsafe lane record howner job hjob hactive]
          rfl
        | none =>
          cases hdisk : world.disk with
          | some saved =>
            exact howned.stopped hmonitor saved hdisk lane job hjob hactive
          | none =>
            rw [(howned.fresh hdisk).2] at hjob
            obtain ⟨launch, hlaunch, hjob⟩ := mem_map.mp hjob
            cases hjob
            obtain ⟨record, hrecord⟩ := lastOwner_of_launch hlaunch
            simp [hrecord] at howner
      constructor
      · exact howned.assigned
      · intro other phase hrunning
        cases hrunning
        exact ⟨howns, fun _ => rfl⟩
      · exact nofun
      · exact nofun

theorem Owned.goOn (howned : Owned args world)
    (hphase : PhaseOwned world state.laneJobs phase) :
    Owned args { world with
      disk := some state, monitor := some (state, phase) } := by
  constructor
  · exact howned.assigned
  · intro other otherPhase hrunning
    cases hrunning
    refine ⟨?_, fun _ => rfl⟩
    cases phase with
    | sleeping | polling queue | submitting lane missing queue
    | submitted lane record queue => exact hphase
  · exact nofun
  · exact nofun

theorem Owned.poll (howned : Owned args world)
    (hstep : stepPoll args complete world = some (output, next)) :
    Owned args next := by
  unfold stepPoll at hstep
  split at hstep
  · rename_i state hmonitor
    obtain ⟨hphase, hdisk⟩ := howned.running state _ hmonitor
    have hsaved : world.disk = some state := by
      apply hdisk
      exact nofun
    split_ifs at hstep with hqueue
    · simp only [Option.some.injEq, Prod.mk.injEq] at hstep
      rw [← hstep.2]
      constructor
      · exact howned.assigned
      · exact nofun
      · intro _ saved hsome
        cases hsome
        exact hphase
      · exact nofun
    · simp only [Option.some.injEq, Prod.mk.injEq] at hstep
      have hnext : next = { world with
          disk := some state
          monitor := some (state, .polling (pollQueue args complete)) } := by
        rw [← hstep.2, ← hsaved]
      rw [hnext]
      exact howned.goOn hphase
  · cases hstep

theorem Owned.check (howned : Owned args world)
    (hstep : stepCheck world = some (output, next)) : Owned args next := by
  unfold stepCheck at hstep
  split at hstep
  · rename_i state hmonitor
    simp only [Option.some.injEq, Prod.mk.injEq] at hstep
    rw [← hstep.2]
    exact howned.goOn (howned.running state _ hmonitor).1
  · rename_i state lane missing queue hmonitor
    obtain ⟨hphase, hdisk⟩ := howned.running state _ hmonitor
    have hsaved : world.disk = some state := by
      apply hdisk
      exact nofun
    split_ifs at hstep with hlatest
    · simp only [Option.some.injEq, Prod.mk.injEq] at hstep
      have hnext : next = { world with
          disk := some state, monitor := some (state, .polling queue) } := by
        rw [← hstep.2, ← hsaved]
      rw [hnext]
      exact howned.goOn hphase
    · simp only [Option.some.injEq, Prod.mk.injEq] at hstep
      have hnext : next = { world with
          disk := some state
          monitor := some (state, .submitting lane missing queue) } := by
        rw [← hstep.2, ← hsaved]
      rw [hnext]
      exact howned.goOn ⟨hphase, Bool.eq_false_iff.mpr hlatest⟩
  · cases hstep

theorem LatestOwns.idle (howns : LatestOwns world laneJobs lane)
    (hlatest : latestActive world (laneJobs lane) = false)
    (hjob : (lane, job) ∈ world.submitted) :
    isActive (world.squeue job) = false := by
  cases hactive : isActive (world.squeue job) with
  | false => rfl
  | true =>
    have hlast := howns job hjob hactive
    unfold latestActive at hlatest
    cases hhistory : (laneJobs lane).getLast? with
    | none =>
      simp [hhistory] at hlast
    | some latest =>
      rw [hhistory] at hlast hlatest
      cases hlast
      exact hlatest.symm.trans hactive |>.symm

theorem Owned.submit (howned : Owned args world)
    (hstep : stepSubmit args answers atUnixS world = some (output, next)) :
    Owned args next := by
  unfold stepSubmit at hstep
  split at hstep
  · rename_i state lane missing queue hmonitor
    obtain ⟨⟨howns, hlatest⟩, hdisk⟩ := howned.running state _ hmonitor
    have hsaved : world.disk = some state := by
      apply hdisk
      exact nofun
    dsimp only at hstep
    generalize submitPhysicalLane _ answers = answer at hstep
    cases answer with
    | none =>
      simp only [Option.some.injEq, Prod.mk.injEq] at hstep
      have hnext : next = { world with
          disk := some state
          monitor := some (state, .polling queue) } := by
        rw [← hstep.2, ← hsaved]
      rw [hnext]
      exact howned.goOn howns
    | some accepted =>
      obtain ⟨job, partition⟩ := accepted
      simp only at hstep
      split_ifs at hstep with hassigned
      simp only [Option.some.injEq, Prod.mk.injEq] at hstep
      have hother : ∀ other earlier, (other, earlier) ∈ world.submitted →
          earlier ≠ job := by
        intro other earlier hearlier hsame
        rw [hsame] at hearlier
        exact hassigned (howned.assigned _ hearlier)
      rw [← hstep.2]
      constructor
      · intro entry hentry
        cases mem_append.mp hentry with
        | inl hentry =>
          exact mem_cons_of_mem _ (howned.assigned entry hentry)
        | inr hentry =>
          obtain rfl := mem_singleton.mp hentry
          exact mem_cons_self
      · intro other phase hrunning
        cases hrunning
        refine ⟨⟨?_, ?_⟩, ?_⟩
        · intro other hlane
          apply (howns other).congr
          intro earlier hearlier hactive
          cases mem_append.mp hearlier with
          | inl hearlier =>
            refine ⟨hearlier, ?_⟩
            rw [← hactive]
            simp only
            rw [Function.update_of_ne (hother _ _ hearlier)]
          | inr hearlier =>
            have hpair := mem_singleton.mp hearlier
            exact absurd (Prod.mk.inj hpair).1 hlane
        · intro earlier hearlier hactive
          cases mem_append.mp hearlier with
          | inl hearlier =>
            simp only at hactive
            rw [Function.update_of_ne (hother _ _ hearlier),
              (howns lane).idle hlatest hearlier] at hactive
            cases hactive
          | inr hearlier =>
            exact (Prod.mk.inj (mem_singleton.mp hearlier)).2
        · intro hphase
          exact absurd rfl (hphase lane _ queue)
      · exact nofun
      · intro hnone
        simp [hsaved] at hnone
  · cases hstep

theorem Owned.write {world next : MonitorWorld} {output : MonitorOutput}
    (howned : Owned args world)
    (hstep : stepWrite world = some (output, next)) : Owned args next := by
  unfold stepWrite at hstep
  split at hstep
  · rename_i state lane record queue hmonitor
    have hphase := (howned.running state _ hmonitor).1
    simp only [Option.some.injEq, Prod.mk.injEq] at hstep
    rw [← hstep.2]
    apply howned.goOn
    intro other job hjob hactive
    by_cases hlane : other = lane
    · subst hlane
      rw [hphase.2 job hjob hactive]
      simp [recordSubmission]
    · have hlast := hphase.1 other hlane job hjob hactive
      simp only [recordSubmission]
      rw [Function.update_of_ne hlane]
      exact hlast
  · cases hstep

theorem Owned.crash {world next : MonitorWorld} {output : MonitorOutput}
    (howned : Owned args world) (hsafe : SafeStep args world .crash)
    (hstep : stepCrash world = some (output, next)) : Owned args next := by
  unfold stepCrash at hstep
  cases hmonitor : world.monitor with
  | none => simp [hmonitor] at hstep
  | some running =>
    obtain ⟨state, phase⟩ := running
    simp only [hmonitor, Option.some.injEq, Prod.mk.injEq] at hstep
    obtain ⟨hphase, hdisk⟩ := howned.running state phase hmonitor
    have hrecorded : ∀ lane record queue,
        phase ≠ .submitted lane record queue := by
      intro lane record queue hsame
      exact hsafe state lane record queue (by rw [hmonitor, hsame])
    have hsaved := hdisk hrecorded
    have howns : ∀ lane, LatestOwns world state.laneJobs lane := by
      cases phase with
      | sleeping | polling queue => exact hphase
      | submitting lane missing queue => exact hphase.1
      | submitted lane record queue =>
        exact absurd rfl (hrecorded lane record queue)
    rw [← hstep.2]
    constructor
    · exact howned.assigned
    · exact nofun
    · intro _ saved hsome
      obtain rfl := Option.some.inj (hsaved.symm.trans hsome)
      exact howns
    · intro hnone
      simp [hsaved] at hnone

theorem latestActive_kept (hlatest : latestActive before history = false)
    (hactive : ∀ latest, history.getLast? = some latest →
      isActive (after.squeue latest.jobRef) = true →
      isActive (before.squeue latest.jobRef) = true) :
    latestActive after history = false := by
  unfold latestActive at hlatest ⊢
  cases hhistory : history.getLast? with
  | none => rfl
  | some latest =>
    rw [hhistory] at hlatest
    cases hnow : isActive (after.squeue latest.jobRef) with
    | false => exact hnow
    | true =>
      have hbefore : isActive (before.squeue latest.jobRef) = false := hlatest
      rw [hactive latest hhistory hnow] at hbefore
      cases hbefore

theorem PhaseOwned.congr (hphase : PhaseOwned before laneJobs phase)
    (hsubmitted : after.submitted = before.submitted)
    (hactive : ∀ job, isActive (after.squeue job) = true →
      isActive (before.squeue job) = true) :
    PhaseOwned after laneJobs phase := by
  have howns : ∀ lane, LatestOwns before laneJobs lane →
      LatestOwns after laneJobs lane := by
    intro lane howns
    apply howns.congr
    intro job hjob hnow
    exact ⟨hsubmitted ▸ hjob, hactive job hnow⟩
  cases phase with
  | sleeping | polling queue => exact fun lane => howns lane (hphase lane)
  | submitting lane missing queue =>
    refine ⟨fun other => howns other (hphase.1 other), ?_⟩
    exact latestActive_kept hphase.2 fun latest _ => hactive latest.jobRef
  | submitted lane record queue =>
    constructor
    · exact fun other hother => howns other (hphase.1 other hother)
    · intro job hjob hnow
      exact hphase.2 job (hsubmitted ▸ hjob) (hactive job hnow)

theorem slurm_active
    (hstep : stepSlurm jobRef states world = some (output, next)) :
    next = { world with
        squeue := Function.update world.squeue jobRef states } ∧
      ∀ job, isActive (next.squeue job) = true →
        isActive (world.squeue job) = true := by
  unfold stepSlurm at hstep
  split_ifs at hstep with hback
  simp only [Option.some.injEq, Prod.mk.injEq] at hstep
  refine ⟨hstep.2.symm, ?_⟩
  rw [← hstep.2]
  intro job hactive
  by_cases hjob : job = jobRef
  · subst hjob
    simp only [Function.update_self] at hactive
    by_contra hbefore
    exact hback ⟨hactive, Bool.eq_false_iff.mpr hbefore⟩
  · simp only [Function.update_of_ne hjob] at hactive
    exact hactive

theorem Owned.slurm (howned : Owned args world)
    (hstep : stepSlurm jobRef states world = some (output, next)) :
    Owned args next := by
  obtain ⟨hnext, hactive⟩ := slurm_active hstep
  subst hnext
  constructor
  · exact howned.assigned
  · intro state phase hmonitor
    obtain ⟨hphase, hdisk⟩ := howned.running state phase hmonitor
    exact ⟨hphase.congr rfl hactive, hdisk⟩
  · intro hmonitor saved hdisk lane
    apply (howned.stopped hmonitor saved hdisk lane).congr
    exact fun job hjob hnow => ⟨hjob, hactive job hnow⟩
  · exact howned.fresh

theorem Owned.step (howned : Owned args world)
    (hsafe : SafeStep args world label)
    (hstep : (splitMonitor args).step world label = some (output, next)) :
    Owned args next := by
  cases label with
  | start => exact howned.start hsafe hstep
  | poll complete => exact howned.poll hstep
  | check => exact howned.check hstep
  | submit answers atUnixS => exact howned.submit hstep
  | write => exact howned.write hstep
  | crash => exact howned.crash hsafe hstep
  | slurm jobRef states => exact howned.slurm hstep

end Safety

/-! ## Lanes of a poll -/

def MonitorPhase.queue : MonitorPhase → List (ℕ × ℕ)
  | .sleeping => []
  | .polling queue => queue
  | .submitting _ _ queue => queue
  | .submitted _ _ queue => queue

/-- The lane whose job is asked for. -/
def MonitorPhase.current : MonitorPhase → Option ℕ
  | .sleeping => none
  | .polling _ => none
  | .submitting lane _ _ => some lane
  | .submitted lane _ _ => some lane

/-- How many steps the lanes of a poll may still take. -/
def MonitorPhase.work : MonitorPhase → ℕ
  | .sleeping => 0
  | .polling queue => 3 * queue.length
  | .submitting _ _ queue => 3 * queue.length + 2
  | .submitted _ _ queue => 3 * queue.length + 1

def passWork (world : MonitorWorld) : ℕ := match world.monitor with
  | some (_, phase) => phase.work
  | none => 0

def MonitorLabel.isPoll : MonitorLabel → Bool
  | .poll _ => true
  | _ => false

def MonitorLabel.isOwn : MonitorLabel → Bool
  | .slurm _ _ => false
  | _ => true

def SelectedInPass
    (events : List (Event MonitorWorld MonitorLabel MonitorOutput))
    (lane : ℕ) : Prop :=
  ∃ earlier event later, events = earlier ++ event :: later ∧
    event.output = .selected lane ∧
    ∀ other ∈ earlier, other.label.isPoll = false

section Selection

variable {args : MonitorArgs}

/-- Slurm has given out every job of a history. -/
def NamedJobs (world : MonitorWorld) (laneJobs : LaneJobs) : Prop :=
  ∀ lane, ∀ record ∈ laneJobs lane, record.jobRef ∈ world.assigned

structure Named (args : MonitorArgs) (world : MonitorWorld) : Prop where
  command : ∀ owner ∈ launches args ++ explicitJobs args,
    owner.2.jobRef ∈ world.assigned
  disk : ∀ saved, world.disk = some saved → NamedJobs world saved.laneJobs
  running : ∀ state phase, world.monitor = some (state, phase) →
    NamedJobs world state.laneJobs ∧ ∀ lane record queue,
      phase = .submitted lane record queue → record.jobRef ∈ world.assigned

variable {lane : ℕ} {state : MonitorState} {world next : MonitorWorld}
  {phase : MonitorPhase} {output : MonitorOutput}

theorem mem_registerOwners {owners : List (ℕ × JobRecord)}
    (hrecord : record ∈ owners.foldl registerOwner laneJobs lane) :
    record ∈ laneJobs lane ∨ ∃ owner ∈ owners, owner.2 = record := by
  induction owners using reverseRecOn with
  | nil => exact .inl hrecord
  | append_singleton owners owner ih =>
    have hlast : owner ∈ owners ++ [owner] :=
      mem_append_right _ (mem_singleton_self _)
    have hearlier : record ∈ owners.foldl registerOwner laneJobs lane →
        record ∈ laneJobs lane ∨
          ∃ other ∈ owners ++ [owner], other.2 = record := by
      intro hmem
      cases ih hmem with
      | inl hold => exact .inl hold
      | inr hnew =>
        obtain ⟨other, hother, hsame⟩ := hnew
        exact .inr ⟨other, mem_append_left _ hother, hsame⟩
    rw [foldl_concat] at hrecord
    generalize owners.foldl registerOwner laneJobs = registered
      at hrecord hearlier
    unfold registerOwner at hrecord
    split_ifs at hrecord with howner
    · exact hearlier hrecord
    · by_cases hlane : owner.1 = lane
      · subst hlane
        rw [Function.update_self] at hrecord
        cases mem_append.mp hrecord with
        | inl hmem => exact hearlier hmem
        | inr hmem =>
          exact .inr ⟨owner, hlast, (mem_singleton.mp hmem).symm⟩
      · rw [Function.update_of_ne (Ne.symm hlane)] at hrecord
        exact hearlier hrecord

theorem mem_restoreState (hrestore : restoreState args saved = .ok state)
    (hrecord : record ∈ state.laneJobs lane) :
    (∃ earlier, saved = some earlier ∧ record ∈ earlier.laneJobs lane) ∨
      ∃ owner ∈ launches args ++ explicitJobs args, owner.2 = record := by
  have hregistered : ∀ {laneJobs registered : LaneJobs},
      registerExplicitLaneJobs args
        (registerArrayLaunches args laneJobs) = .ok registered →
      record ∈ registered lane → record ∈ laneJobs lane ∨
        ∃ owner ∈ launches args ++ explicitJobs args, owner.2 = record := by
    intro laneJobs registered hok hmem
    obtain ⟨_, _, hok⟩ := bind_eq_ok.mp hok
    cases hok
    unfold registerArrayLaunches at hmem
    rw [← foldl_append] at hmem
    exact mem_registerOwners hmem
  cases saved with
  | none =>
    obtain ⟨laneJobs, hlaneJobs, hrestore⟩ := bind_eq_ok.mp hrestore
    cases hrestore
    cases hregistered hlaneJobs hrecord with
    | inl hinitial =>
      obtain ⟨launch, hlaunch, hsome⟩ := mem_filterMap.mp hinitial
      split_ifs at hsome
      exact .inr ⟨launch, mem_append_left _ hlaunch, Option.some.inj hsome⟩
    | inr howner => exact .inr howner
  | some earlier =>
    obtain ⟨_, hrestore⟩ := require_bind_eq_ok.mp hrestore
    obtain ⟨laneJobs, hlaneJobs, hrestore⟩ := bind_eq_ok.mp hrestore
    cases hrestore
    cases hregistered hlaneJobs hrecord with
    | inl hold => exact .inl ⟨earlier, rfl, hold⟩
    | inr howner => exact .inr howner

theorem Launched.named (hlaunched : Launched args world) : Named args world:= by
  constructor
  · intro owner howner
    cases mem_append.mp howner with
    | inl hlaunch =>
      apply hlaunched.assigned (owner.1, owner.2.jobRef)
      rw [hlaunched.submitted]
      exact mem_map.mpr ⟨owner, hlaunch, rfl⟩
    | inr hexplicit =>
      obtain ⟨job, hjob, rfl⟩ := mem_map.mp hexplicit
      exact hlaunched.explicit job hjob
  · intro saved hdisk
    rw [hlaunched.disk] at hdisk
    cases hdisk
  · intro state phase hmonitor
    rw [hlaunched.monitor] at hmonitor
    cases hmonitor

theorem Named.keep (hnamed : Named args world)
    (hjobs : NamedJobs world state.laneJobs)
    (hphase : ∀ lane record queue, phase ≠ .submitted lane record queue) :
    Named args { world with monitor := some (state, phase) } := by
  constructor
  · exact hnamed.command
  · exact hnamed.disk
  · intro other otherPhase hrunning
    cases hrunning
    exact ⟨hjobs, fun lane record queue hsame =>
      absurd hsame (hphase lane record queue)⟩

theorem Named.save (hnamed : Named args world) (hjobs : NamedJobs world state.laneJobs) :
    Named args { world with disk := some state } := by
  constructor
  · exact hnamed.command
  · intro saved hsaved
    cases hsaved
    exact hjobs
  · exact hnamed.running

theorem Named.stop (hnamed : Named args world) :
    Named args { world with monitor := none } := by
  constructor
  · exact hnamed.command
  · exact hnamed.disk
  · exact nofun

theorem Named.start {world next : MonitorWorld} {output : MonitorOutput}
    (hnamed : Named args world)
    (hstep : stepStart args world = some (output, next)) :
    Named args next := by
  unfold stepStart at hstep
  split at hstep
  · cases hstep
  · split at hstep
    · simp only [Option.some.injEq, Prod.mk.injEq] at hstep
      rw [← hstep.2]
      exact hnamed
    · rename_i state hrestore
      simp only [Option.some.injEq, Prod.mk.injEq] at hstep
      rw [← hstep.2]
      have hjobs : NamedJobs world state.laneJobs := by
        intro lane record hrecord
        cases mem_restoreState hrestore hrecord with
        | inl hold =>
          obtain ⟨earlier, hdisk, hmem⟩ := hold
          exact hnamed.disk earlier hdisk lane record hmem
        | inr howner =>
          obtain ⟨owner, hmem, rfl⟩ := howner
          exact hnamed.command owner hmem
      apply (hnamed.save hjobs).keep hjobs
      exact nofun

theorem Named.poll (hnamed : Named args world)
    (hstep : stepPoll args complete world = some (output, next)) :
    Named args next := by
  unfold stepPoll at hstep
  split at hstep
  · rename_i state hmonitor
    have hjobs := (hnamed.running state _ hmonitor).1
    split_ifs at hstep
    · simp only [Option.some.injEq, Prod.mk.injEq] at hstep
      rw [← hstep.2]
      have hdone : NamedJobs world
          ({ state with completed := true } : MonitorState).laneJobs := hjobs
      exact (hnamed.save hdone).stop
    · simp only [Option.some.injEq, Prod.mk.injEq] at hstep
      rw [← hstep.2]
      apply hnamed.keep hjobs
      exact nofun
  · cases hstep

theorem Named.check (hnamed : Named args world)
    (hstep : stepCheck world = some (output, next)) : Named args next := by
  unfold stepCheck at hstep
  split at hstep
  · rename_i state hmonitor
    have hjobs := (hnamed.running state _ hmonitor).1
    simp only [Option.some.injEq, Prod.mk.injEq] at hstep
    rw [← hstep.2]
    apply (hnamed.save hjobs).keep hjobs
    exact nofun
  · rename_i state lane missing queue hmonitor
    have hjobs := (hnamed.running state _ hmonitor).1
    split_ifs at hstep
    all_goals
      simp only [Option.some.injEq, Prod.mk.injEq] at hstep
      rw [← hstep.2]
      apply hnamed.keep hjobs
      exact nofun
  · cases hstep

theorem Named.submit (hnamed : Named args world)
    (hstep : stepSubmit args answers atUnixS world = some (output, next)) :
    Named args next := by
  unfold stepSubmit at hstep
  split at hstep
  · rename_i state lane missing queue hmonitor
    have hjobs := (hnamed.running state _ hmonitor).1
    dsimp only at hstep
    generalize submitPhysicalLane _ answers = answer at hstep
    cases answer with
    | none =>
      simp only [Option.some.injEq, Prod.mk.injEq] at hstep
      rw [← hstep.2]
      apply hnamed.keep hjobs
      exact nofun
    | some accepted =>
      simp only at hstep
      split_ifs at hstep with hassigned
      simp only [Option.some.injEq, Prod.mk.injEq] at hstep
      rw [← hstep.2]
      constructor
      · exact fun owner howner =>
          mem_cons_of_mem _ (hnamed.command owner howner)
      · intro saved hsaved other record hrecord
        exact mem_cons_of_mem _ (hnamed.disk saved hsaved other record hrecord)
      · intro other phase hrunning
        cases hrunning
        constructor
        · exact fun lane record hrecord =>
            mem_cons_of_mem _ (hjobs lane record hrecord)
        · intro other record rest hphase
          cases hphase
          exact mem_cons_self
  · cases hstep

theorem Named.write {world next : MonitorWorld} {output : MonitorOutput}
    (hnamed : Named args world)
    (hstep : stepWrite world = some (output, next)) : Named args next := by
  unfold stepWrite at hstep
  split at hstep
  · rename_i state lane record queue hmonitor
    obtain ⟨hold, hrecord⟩ := hnamed.running state _ hmonitor
    simp only [Option.some.injEq, Prod.mk.injEq] at hstep
    rw [← hstep.2]
    have hjobs : NamedJobs world
        (recordSubmission state lane record).laneJobs := by
      intro other entry hentry
      simp only [recordSubmission] at hentry
      by_cases hlane : other = lane
      · subst hlane
        rw [Function.update_self] at hentry
        cases mem_append.mp hentry with
        | inl hmem => exact hold other entry hmem
        | inr hmem =>
          rw [mem_singleton.mp hmem]
          exact hrecord other record queue rfl
      · rw [Function.update_of_ne hlane] at hentry
        exact hold other entry hentry
    apply (hnamed.save hjobs).keep hjobs
    exact nofun
  · cases hstep

theorem Named.step (hnamed : Named args world)
    (hstep : (splitMonitor args).step world label = some (output, next)) :
    Named args next := by
  cases label with
  | start => exact hnamed.start hstep
  | poll complete => exact hnamed.poll hstep
  | check => exact hnamed.check hstep
  | submit answers atUnixS => exact hnamed.submit hstep
  | write => exact hnamed.write hstep
  | crash =>
    change stepCrash world = _ at hstep
    unfold stepCrash at hstep
    split at hstep
    · simp only [Option.some.injEq, Prod.mk.injEq] at hstep
      rw [← hstep.2]
      exact hnamed.stop
    · cases hstep
  | slurm jobRef states =>
    obtain ⟨hnext, -⟩ := slurm_active hstep
    subst hnext
    exact ⟨hnamed.command, hnamed.disk, hnamed.running⟩

structure Waiting (world : MonitorWorld) (lane : ℕ) (state : MonitorState)
    (phase : MonitorPhase) : Prop where
  monitor : world.monitor = some (state, phase)
  latest : latestActive world (state.laneJobs lane) = false
  queued : ∃ missing, (lane, missing) ∈ phase.queue
  other : phase.current ≠ some lane

theorem Waiting.work (hwaits : Waiting world lane state phase) :
    0 < passWork world := by
  obtain ⟨missing, hqueued⟩ := hwaits.queued
  have hlength := length_pos_of_mem hqueued
  simp only [passWork, hwaits.monitor]
  cases phase with
  | sleeping => cases hqueued
  | polling queue =>
    simp only [MonitorPhase.queue] at hlength
    simp only [MonitorPhase.work]
    omega
  | submitting other missing queue | submitted other record queue =>
    simp only [MonitorPhase.work]
    omega

theorem Waiting.check (hwaits : Waiting world lane state phase)
    (hstep : stepCheck world = some (output, next)) :
    output = .selected lane ∨ ∃ nextPhase, Waiting next lane state nextPhase ∧
        passWork next + 1 ≤ passWork world := by
  obtain ⟨missing, hqueued⟩ := hwaits.queued
  unfold stepCheck at hstep
  rw [hwaits.monitor] at hstep
  cases phase with
  | sleeping | submitting _ _ _ | submitted _ _ _ => cases hstep
  | polling queue =>
    cases queue with
    | nil => cases hqueued
    | cons entry queue =>
      obtain ⟨first, firstMissing⟩ := entry
      simp only at hstep
      by_cases hactive : latestActive world (state.laneJobs first) = true
      · rw [if_pos hactive] at hstep
        simp only [Option.some.injEq, Prod.mk.injEq] at hstep
        rw [← hstep.2]
        have hother : lane ≠ first := by
          rintro rfl
          rw [hwaits.latest] at hactive
          cases hactive
        have hrest : (lane, missing) ∈ queue := by
          cases mem_cons.mp hqueued with
          | inl hfirst => exact absurd (Prod.mk.inj hfirst).1 hother
          | inr hrest => exact hrest
        refine .inr ⟨.polling queue, ⟨rfl, hwaits.latest,
          ⟨missing, hrest⟩, by simp [MonitorPhase.current]⟩, ?_⟩
        simp only [passWork, hwaits.monitor, MonitorPhase.work, length_cons]
        omega
      · rw [if_neg hactive] at hstep
        simp only [Option.some.injEq, Prod.mk.injEq] at hstep
        by_cases hlane : first = lane
        · exact .inl (by rw [← hstep.1, hlane])
        · have hrest : (lane, missing) ∈ queue := by
            cases mem_cons.mp hqueued with
            | inl hfirst =>
              exact absurd (Prod.mk.inj hfirst).1.symm hlane
            | inr hrest => exact hrest
          rw [← hstep.2]
          refine .inr ⟨.submitting first firstMissing queue, ⟨rfl,
            hwaits.latest, ⟨missing, hrest⟩, ?_⟩, ?_⟩
          · exact fun hsame => hlane (Option.some.inj hsame)
          · simp only [passWork, hwaits.monitor, MonitorPhase.work,
              length_cons]
            omega

theorem Waiting.submit (hwaits : Waiting world lane state phase)
    (hnamed : Named args world)
    (hstep : stepSubmit args answers atUnixS world = some (output, next)) :
    ∃ nextPhase, Waiting next lane state nextPhase ∧
      passWork next + 1 ≤ passWork world := by
  unfold stepSubmit at hstep
  rw [hwaits.monitor] at hstep
  cases phase with
  | sleeping | polling _ | submitted _ _ _ => cases hstep
  | submitting other otherMissing queue =>
    have hjobs := (hnamed.running state _ hwaits.monitor).1
    dsimp only at hstep
    generalize submitPhysicalLane _ answers = answer at hstep
    cases answer with
    | none =>
      simp only [Option.some.injEq, Prod.mk.injEq] at hstep
      rw [← hstep.2]
      refine ⟨.polling queue, ⟨rfl, hwaits.latest, hwaits.queued,
        by simp [MonitorPhase.current]⟩, ?_⟩
      simp only [passWork, hwaits.monitor, MonitorPhase.work]
      omega
    | some accepted =>
      obtain ⟨job, partition⟩ := accepted
      simp only at hstep
      split_ifs at hstep with hassigned
      simp only [Option.some.injEq, Prod.mk.injEq] at hstep
      rw [← hstep.2]
      refine ⟨_, ⟨rfl, ?_, hwaits.queued, hwaits.other⟩, ?_⟩
      · apply latestActive_kept hwaits.latest
        intro latest hlast hactive
        have hnew : latest.jobRef ≠ job := by
          intro hsame
          apply hassigned
          rw [← hsame]
          exact hjobs lane latest (mem_of_getLast? hlast)
        simp only [Function.update_of_ne hnew] at hactive
        exact hactive
      · simp only [passWork, hwaits.monitor, MonitorPhase.work]
        omega

theorem Waiting.write {world next : MonitorWorld} {lane : ℕ}
    {state : MonitorState} {phase : MonitorPhase} {output : MonitorOutput}
    (hwaits : Waiting world lane state phase)
    (hstep : stepWrite world = some (output, next)) :
    ∃ nextState nextPhase, Waiting next lane nextState nextPhase ∧
      passWork next + 1 ≤ passWork world := by
  unfold stepWrite at hstep
  rw [hwaits.monitor] at hstep
  cases phase with
  | sleeping | polling _ | submitting _ _ _ => cases hstep
  | submitted other record queue =>
    simp only [Option.some.injEq, Prod.mk.injEq] at hstep
    rw [← hstep.2]
    have hother : lane ≠ other := by
      rintro rfl
      exact hwaits.other rfl
    refine ⟨_, _, ⟨rfl, ?_, hwaits.queued, by simp [MonitorPhase.current]⟩, ?_⟩
    · simp only [recordSubmission]
      rw [Function.update_of_ne hother]
      exact hwaits.latest
    · simp only [passWork, hwaits.monitor, MonitorPhase.work]
      omega

theorem Waiting.slurm (hwaits : Waiting world lane state phase)
    (hstep : stepSlurm jobRef states world = some (output, next)) :
    Waiting next lane state phase ∧ passWork next = passWork world := by
  obtain ⟨hnext, hactive⟩ := slurm_active hstep
  subst hnext
  exact ⟨⟨hwaits.monitor, latestActive_kept hwaits.latest
    fun latest _ => hactive latest.jobRef, hwaits.queued, hwaits.other⟩, rfl⟩

theorem Waiting.step (hwaits : Waiting world lane state phase)
    (hnamed : Named args world) (hcrash : label ≠ .crash)
    (hstep : (splitMonitor args).step world label = some (output, next)) :
    output = .selected lane ∨ label.isPoll = false ∧
      ∃ nextState nextPhase, Waiting next lane nextState nextPhase ∧
        passWork next + (if label.isOwn then 1 else 0) ≤ passWork world := by
  cases label with
  | start =>
    change stepStart args world = _ at hstep
    unfold stepStart at hstep
    rw [hwaits.monitor] at hstep
    cases hstep
  | poll complete =>
    change stepPoll args complete world = _ at hstep
    obtain ⟨missing, hqueued⟩ := hwaits.queued
    unfold stepPoll at hstep
    rw [hwaits.monitor] at hstep
    cases phase with
    | sleeping => cases hqueued
    | polling _ | submitting _ _ _ | submitted _ _ _ => cases hstep
  | check =>
    cases hwaits.check hstep with
    | inl hselected => exact .inl hselected
    | inr hgoes =>
      obtain ⟨nextPhase, hnext⟩ := hgoes
      exact .inr ⟨rfl, state, nextPhase, hnext⟩
  | submit answers atUnixS =>
    obtain ⟨nextPhase, hnext⟩ := hwaits.submit hnamed hstep
    exact .inr ⟨rfl, state, nextPhase, hnext⟩
  | write => exact .inr ⟨rfl, hwaits.write hstep⟩
  | crash => exact absurd rfl hcrash
  | slurm jobRef states =>
    obtain ⟨hnext, hwork⟩ := hwaits.slurm hstep
    exact .inr ⟨rfl, state, phase, hnext, hwork.le⟩

theorem Waiting.run {final : MonitorWorld}
    {events : List (Event MonitorWorld MonitorLabel MonitorOutput)}
    (hwaits : Waiting world lane state phase) (hnamed : Named args world)
    (hrun : Run (splitMonitor args) world events final)
    (hcrash : ∀ event ∈ events, event.label ≠ .crash) :
    SelectedInPass events lane ∨
      (∀ event ∈ events, event.label.isPoll = false) ∧
        ∃ lastState lastPhase, Waiting final lane lastState lastPhase ∧
          passWork final + events.countP (fun event => event.label.isOwn) ≤
            passWork world := by
  induction hrun with
  | nil =>
    refine .inr ⟨?_, state, phase, hwaits, le_rfl⟩
    intro event hevent
    cases hevent
  | @snoc before next events label output hrun hstep ih =>
    have hearlier : ∀ event ∈ events, event.label ≠ .crash :=
      fun event hevent => hcrash event (mem_append_left _ hevent)
    have hlast : label ≠ .crash :=
      hcrash _ (mem_append_right _ (mem_singleton_self _))
    cases ih hearlier with
    | inl hselected =>
      obtain ⟨earlier, event, later, rfl, hevent⟩ := hselected
      refine .inl ⟨earlier, event,
        later ++ [⟨before, label, output, next⟩], ?_, hevent⟩
      rw [append_assoc, cons_append]
    | inr hgoes =>
      obtain ⟨hpolls, _, _, hbefore, hwork⟩ := hgoes
      have hnamedBefore : Named args before := hrun.invariant (Named args)
          (fun _ _ _ _ hstate hnext => hstate.step hnext) hnamed
      cases hbefore.step hnamedBefore hlast hstep with
      | inl hselected =>
        exact .inl ⟨events, _, [], rfl, hselected, hpolls⟩
      | inr hnext =>
        obtain ⟨hpoll, lastState, lastPhase, hwaitsNext, hless⟩ := hnext
        refine .inr ⟨?_, lastState, lastPhase, hwaitsNext, ?_⟩
        · intro event hevent
          cases mem_append.mp hevent with
          | inl hevent => exact hpolls event hevent
          | inr hevent =>
            rw [mem_singleton.mp hevent]
            exact hpoll
        · rw [countP_append, countP_singleton]
          simp only
          omega

theorem pollQueue_length (complete : String → Bool) :
    (pollQueue args complete).length ≤ args.physicalLaneCount := by
  refine (length_filter_le _ _).trans ?_
  rw [length_map, length_range]

theorem waiting_of_poll
    (hstep : stepPoll args complete world = some (output, next))
    (hlane : lane < args.physicalLaneCount)
    (hmissing : 0 < missingPhysicalLanes args.manifest args.mode
      args.physicalLaneCount complete lane)
    (hidle : ∀ state phase, world.monitor = some (state, phase) →
      latestActive world (state.laneJobs lane) = false) :
    ∃ state phase, Waiting next lane state phase ∧
      passWork next ≤ 3 * args.physicalLaneCount := by
  have hqueued : (lane, missingPhysicalLanes args.manifest args.mode
      args.physicalLaneCount complete lane) ∈ pollQueue args complete := by
    apply mem_filter.mpr
    constructor
    · exact mem_map.mpr ⟨lane, mem_range.mpr hlane, rfl⟩
    · exact decide_eq_true hmissing.ne'
  unfold stepPoll at hstep
  split at hstep
  · rename_i state hmonitor
    rw [if_neg (ne_nil_of_mem hqueued)] at hstep
    simp only [Option.some.injEq, Prod.mk.injEq] at hstep
    rw [← hstep.2]
    refine ⟨state, .polling (pollQueue args complete), ⟨rfl,
      hidle state _ hmonitor, ⟨_, hqueued⟩, by simp [MonitorPhase.current]⟩,
      ?_⟩
    simp only [passWork, MonitorPhase.work]
    have hlength : (pollQueue args complete).length ≤
        args.physicalLaneCount := pollQueue_length complete
    omega
  · cases hstep

end Selection

/-- A lane with items left and no active job is selected before the next poll,
unless the monitor crashes. -/
def SelectsIdleLanes (args : MonitorArgs)
    (events : List (Event MonitorWorld MonitorLabel MonitorOutput))
    (final : MonitorWorld) : Prop :=
  ∀ left poll right complete lane, events = left ++ poll :: right →
    poll.label = .poll complete → lane < args.physicalLaneCount →
    0 < missingPhysicalLanes args.manifest args.mode args.physicalLaneCount
      complete lane →
    (∀ state phase, poll.before.monitor = some (state, phase) →
      latestActive poll.before (state.laneJobs lane) = false) →
    (∀ event ∈ right, event.label ≠ .crash) →
    ((∃ state, final.monitor = some (state, .sleeping)) ∨
      3 * args.physicalLaneCount ≤
        right.countP fun event => event.label.isOwn) →
    SelectedInPass right lane

theorem Launched.selects {args : MonitorArgs} (hlaunched : Launched args world)
    (hrun : Run (splitMonitor args) world events final) :
    SelectsIdleLanes args events final := by
  intro left poll right complete lane hevents hlabel hlane hmissing hidle
    hcrash hover
  subst hevents
  obtain ⟨hbefore, hstep, hafter⟩ := hrun.at_event
  have hnamedBefore : Named args poll.before := hbefore.invariant (Named args)
      (fun _ _ _ _ hstate hnext => hstate.step hnext) hlaunched.named
  rw [hlabel] at hstep
  have hnamed : Named args poll.after := hnamedBefore.step hstep
  obtain ⟨state, phase, hwaits, hwork⟩ :=
    waiting_of_poll hstep hlane hmissing hidle
  cases hwaits.run hnamed hafter hcrash with
  | inl hselected => exact hselected
  | inr hgoes =>
    obtain ⟨-, lastState, lastPhase, hlast, hless⟩ := hgoes
    cases hover with
    | inl hsleeps =>
      obtain ⟨sleeping, hmonitor⟩ := hsleeps
      rw [hlast.monitor] at hmonitor
      obtain ⟨-, rfl⟩ := Prod.mk.inj (Option.some.inj hmonitor)
      obtain ⟨missing, hqueued⟩ := hlast.queued
      cases hqueued
    | inr hown =>
      have hpositive := hlast.work
      omega

/-- No lane has two active jobs in a run in which the monitor only starts
where a lane of its command line has no other active job, and stops at no
submission that is not written; and every lane is selected in its turn. -/
theorem one_job_a_lane (args : MonitorArgs) {world final : MonitorWorld}
    {events : List (Event MonitorWorld MonitorLabel MonitorOutput)}
    (hlaunched : Launched args world)
    (hrun : Run (splitMonitor args) world events final)
    (hsafe : ∀ event ∈ events, SafeStep args event.before event.label) :
    (∀ event ∈ events, OneActiveJob event.before) ∧ OneActiveJob final ∧
      SelectsIdleLanes args events final := by
  have hstep : ∀ state label output next, Owned args state →
      SafeStep args state label →
      (splitMonitor args).step state label = some (output, next) →
      Owned args next :=
    fun _ _ _ _ howned hlabel hnext => howned.step hlabel hnext
  refine ⟨fun event hevent => ?_, ?_, hlaunched.selects hrun⟩
  · exact (hrun.guarded_invariant_before (SafeStep args) (Owned args) hstep
      hsafe hlaunched.owned hevent).oneActiveJob
  · exact (hrun.guarded_invariant (SafeStep args) (Owned args) hstep hsafe
      hlaunched.owned).oneActiveJob

/-- One lane, whose job is an element of the array job 300. -/
def oneLane : MonitorArgs where
  runManifest := "run.json"
  manifest := twoLayoutsManifest
  mode := ⟨1, 1, none⟩
  normalLanes := 1
  preemptLanes := 0
  normalArrayJob := some "300"
  preemptArrayJob := none
  laneJobs := []

def oneLaneLaunched : MonitorWorld where
  squeue := fun job => if job = "300_0" then ["RUNNING"] else []
  assigned := ["300_0"]
  submitted := [(0, "300_0")]
  disk := none
  monitor := none

theorem oneLane_launched : Launched oneLane oneLaneLaunched where
  submitted := by decide
  explicit := by
    exact nofun
  assigned := by decide
  disk := rfl
  monitor := rfl

def repairLane (job : String) : List MonitorLabel :=
  [.poll fun _ => false, .check, .submit (fun _ => some job) 0]

def repairedOnce : List MonitorLabel :=
  .slurm "300_0" ["COMPLETED"] :: (repairLane "301" ++ [.write])

theorem one_job_a_lane_repaired :
    ∃ events final, Run (splitMonitor oneLane) oneLaneLaunched events final ∧
      events.map Event.label = .start :: repairedOnce ∧
      (∀ event ∈ events, OneActiveJob event.before) ∧ OneActiveJob final ∧
      SelectsIdleLanes oneLane events final := by
  have hruns : ((splitMonitor oneLane).exec oneLaneLaunched
    (.start :: repairedOnce)).isSome = true := rfl
  obtain ⟨⟨events, final⟩, hexec⟩ := Option.isSome_iff_exists.mp hruns
  have hrun := Machine.run_of_exec hexec
  have hlabels := Machine.labels_of_exec hexec
  refine ⟨events, final, hrun, hlabels,
    one_job_a_lane oneLane oneLane_launched hrun ?_⟩
  obtain ⟨first, rest, rfl, hfirst, hrest⟩ := map_eq_cons_iff.mp hlabels
  intro event hevent
  cases mem_cons.mp hevent with
  | inl hsame =>
      have hbefore : first.before = oneLaneLaunched :=
        (@Run.at_event _ _ _ _ _ _ [] rest first hrun).1.nil_inv
      rw [hsame, hfirst, hbefore]
      intro lane record howner job hjob hactive
      obtain ⟨rfl, rfl⟩ := Prod.mk.inj (mem_singleton.mp hjob)
      cases howner
      rfl
  | inr hlater =>
      have hlabel : event.label ∈ repairedOnce := hrest ▸ mem_map_of_mem hlater
      cases hcase : event.label with
      | start | crash => simp [hcase, repairedOnce, repairLane] at hlabel
      | poll complete | check | submit answers atUnixS | write
      | slurm jobRef states => trivial

def restartedAfterRepair : List MonitorLabel :=
  .start :: repairedOnce ++ .crash :: .start :: repairLane "302"

def crashedBeforeWrite : List MonitorLabel :=
  .start :: .slurm "300_0" ["COMPLETED"] :: repairLane "301" ++
    .crash :: .start :: repairLane "302"

theorem two_active_of_exec
    (hexec : ((splitMonitor oneLane).exec oneLaneLaunched labels).map
        (fun ran => (ran.2.submitted, ran.2.squeue "301",
          ran.2.squeue "302")) =
      some ([(0, "300_0"), (0, "301"), (0, "302")], ["PENDING"],
        ["PENDING"])) :
    ∃ events final, Run (splitMonitor oneLane) oneLaneLaunched events final ∧
      events.map Event.label = labels ∧ ¬ OneActiveJob final := by
  obtain ⟨⟨events, final⟩, hran, hfinal⟩ := Option.map_eq_some_iff.mp hexec
  obtain ⟨hsubmitted, hjobs⟩ := Prod.mk.inj hfinal
  obtain ⟨hfirst, hsecond⟩ := Prod.mk.inj hjobs
  refine ⟨events, final, Machine.run_of_exec hran,
    Machine.labels_of_exec hran, ?_⟩
  intro hone
  have hsame := hone 0 "301" "302" (by rw [hsubmitted]; simp)
    (by rw [hsubmitted]; simp) (by rw [hfirst]; rfl) (by rw [hsecond]; rfl)
  simp at hsame

/-- A restart names the array job again; a submission that is not written is
asked for again. -/
theorem two_jobs_of_a_restart : Launched oneLane oneLaneLaunched ∧
      (∃ events final,
        Run (splitMonitor oneLane) oneLaneLaunched events final ∧
          events.map Event.label = restartedAfterRepair ∧
          ¬ OneActiveJob final) ∧
      ∃ events final, Run (splitMonitor oneLane) oneLaneLaunched events final ∧
          events.map Event.label = crashedBeforeWrite ∧
          ¬ OneActiveJob final :=
  ⟨oneLane_launched, two_active_of_exec rfl, two_active_of_exec rfl⟩

end SplitMonitor
end VerlVla
