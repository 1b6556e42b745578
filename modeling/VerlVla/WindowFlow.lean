import VerlVla.RolloutOrder

/-!
# Windows between rollouts and evaluations

A collected window waits until a rollout call returns it, possibly through an
evaluation.  What one rollout, one return and one evaluation keep of the log,
the world and the waiting windows is kept in a whole run.
-/

namespace VerlVla

open List hiding after get

open Transition

variable {W R D A : Type}

/-! ## What a step runs -/

/-- The windows that have been collected and not returned. -/
def waitingWindows (cluster : TrainCluster W R D A) : List D :=
  cluster.readyRolloutResult.toList.map RolloutResult.data ++
    match cluster.pendingRolloutRef.bind fun task =>
      cluster.tasks[task]? with
    | some (.done window _) => [window]
    | _ => []

def DriverCall.isEval : DriverCall A → Bool
  | .eval _ _ => true
  | _ => false

/-- The step runs the waves of an evaluation. -/
def RunsEvaluation (cluster : TrainCluster W R D A) : ClusterLabel A → Prop
  | .eval _ _ => cluster.pendingRolloutRef = none ∧
      cluster.rolloutCollectionActive = false
  | .get => cluster.driver.isEval = true
  | _ => False

instance (cluster : TrainCluster W R D A) :
    DecidablePred (RunsEvaluation cluster) := fun label =>
  match label with
  | .eval _ _ => inferInstanceAs (Decidable (_ ∧ _))
  | .get => inferInstanceAs (Decidable (cluster.driver.isEval = true))
  | .rollout _ _ _ | .train | .beginRolloutCollection
  | .endRolloutCollection | .finish _ _ => inferInstanceAs (Decidable False)

/-- What is asked of a rollout, of the call of an evaluation, and of the
windows that wait when an evaluation runs. -/
structure FlowConditions (R D A : Type) where
  rollout : RolloutState R → A → Prop
  call : List A → Bool → Prop
  windows : List D → Prop

namespace FlowConditions

variable (conditions : FlowConditions R D A)

def Rollouts (cluster : TrainCluster W R D A) : ClusterLabel A → Prop
  | .rollout false _ answer =>
    conditions.rollout (cluster.objects cluster.rolloutState) answer
  | .finish task answer =>
    ∀ state, cluster.tasks[task]? = some (.running state) →
      conditions.rollout state answer
  | _ => True

def Calls (cluster : TrainCluster W R D A) : ClusterLabel A → Prop
  | .eval waves fails => cluster.rolloutCollectionActive = false →
      conditions.call waves fails
  | _ => True

end FlowConditions

def OneKind (asyncRollout : Bool) : ClusterLabel A → Prop
  | .rollout flag _ _ => flag = asyncRollout
  | _ => True

structure FlowStep (conditions : FlowConditions R D A) (asyncRollout : Bool)
    (cluster : TrainCluster W R D A) (label : ClusterLabel A) : Prop where
  kind : OneKind asyncRollout label
  rollouts : conditions.Rollouts cluster label
  calls : conditions.Calls cluster label
  windows : asyncRollout = true → RunsEvaluation cluster label →
    conditions.windows (waitingWindows cluster)

/-! ## The invariant -/

/-- An entry that neither collects nor returns a window. -/
def ClusterEvent.still : ClusterEvent R D → Bool
  | .finished _ _ _ => false
  | .evaluated _ => false
  | .returned _ _ => false
  | .returnedSync _ => false
  | _ => true

/-- What keeps a property of the log, the world and the waiting windows.  A
world is prepared if it has been reset. -/
structure FlowRules (world : ClusterWorld W R D A) (config : ClusterConfig)
    (conditions : FlowConditions R D A) (prepared : W → Prop)
    (kept : List (ClusterEvent R D) → W → List D → Prop) : Prop where
  still : ∀ {entries current waiting} (entry : ClusterEvent R D),
    kept entries current waiting → entry.still = true →
      kept (entries ++ [entry]) current waiting
  rollout : ∀ {entries current state answer} (stages : Option ℕ),
    kept entries current [] →
    state.resetFuture = none ∨ prepared current →
    conditions.rollout state answer →
    let result := TrainCluster.rolloutOnce world config stages state answer
      current
    prepared result.2 ∧
      (∀ task, kept (entries ++ [.finished task result.1.1 result.1.2])
        result.2 [result.1.1]) ∧
      kept (entries ++ [.returnedSync result.1.1]) result.2 []
  returned : ∀ {entries current data} (task : ℕ), kept entries current [data] →
      kept (entries ++ [.returned task data]) current []
  evaluated : ∀ {entries current waiting waves},
    kept entries current waiting → conditions.call waves false →
    conditions.windows waiting →
    let reset := world.resetEnv .train false
      (TrainCluster.evalWaves world true waves current)
    prepared reset.2 ∧ kept (entries ++ [.evaluated reset.1]) reset.2 waiting
  failed : ∀ {waves}, conditions.call waves true → waves = []
  quiet : conditions.windows []

/-- Before the first reset no rollout state holds one. -/
def FuturesHeld (prepared : W → Prop) (cluster : TrainCluster W R D A) :
    Prop :=
  prepared cluster.world ∨ (∀ object, cluster.objects object = .initial) ∧
      ∀ task ∈ cluster.tasks, task = .running .initial

structure FlowWindows (conditions : FlowConditions R D A) (prepared : W → Prop)
    (kept : List (ClusterEvent R D) → W → List D → Prop)
    (entries : List (ClusterEvent R D)) (cluster : TrainCluster W R D A) :
    Prop where
  kept : kept entries cluster.world (waitingWindows cluster)
  futures : FuturesHeld prepared cluster
  driver : ∀ waves fails, cluster.driver = .eval waves fails →
    conditions.call waves fails

structure FlowInv (conditions : FlowConditions R D A) (prepared : W → Prop)
    (kept : List (ClusterEvent R D) → W → List D → Prop)
    (asyncRollout : Bool) (entries : List (ClusterEvent R D))
    (cluster : TrainCluster W R D A) : Prop where
  order : asyncRollout = true → TrainCluster.RolloutInv entries cluster
  quiet : asyncRollout = false → cluster.tasks = [] ∧
    cluster.pendingRolloutRef = none ∧ cluster.readyRolloutResult = none
  windows : FlowWindows conditions prepared kept entries cluster

section Steps

variable {world : ClusterWorld W R D A} {conditions : FlowConditions R D A}
  {prepared : W → Prop} {kept : List (ClusterEvent R D) → W → List D → Prop}
  {entries : List (ClusterEvent R D)} {cluster next : TrainCluster W R D A}

theorem flowInv_start (hkept : kept [] initial []) :
    FlowInv conditions prepared kept asyncRollout []
      (TrainCluster.start initial) := by
  constructor
  · exact fun _ => TrainCluster.rolloutInv_start _
  · exact fun _ => ⟨rfl, rfl, rfl⟩
  · constructor
    · exact hkept
    · refine .inr ⟨fun _ => rfl, ?_⟩
      exact nofun
    · exact nofun

theorem waitingWindows_rest (hpending : cluster.pendingRolloutRef = none) :
    waitingWindows cluster =
      cluster.readyRolloutResult.toList.map RolloutResult.data := by
  rw [waitingWindows, hpending]
  exact append_nil _

theorem waitingWindows_launch (hready : cluster.readyRolloutResult = none) :
    waitingWindows (TrainCluster.launch cluster).2 = [] := by
  simp only [waitingWindows, TrainCluster.launch, hready, Option.toList_none,
    map_nil, nil_append, Option.bind_some,
    getElem?_concat_length]

theorem waitingWindows_quiet (hpending : cluster.pendingRolloutRef = none)
    (hready : cluster.readyRolloutResult = none) :
    waitingWindows cluster = [] := by
  rw [waitingWindows_rest hpending, hready]
  rfl

theorem FuturesHeld.launch (hfutures : FuturesHeld prepared cluster) :
    FuturesHeld prepared (TrainCluster.launch cluster).2 := by
  cases hfutures with
  | inl hprepared => exact .inl hprepared
  | inr hinitial =>
    refine .inr ⟨hinitial.1, ?_⟩
    intro task htask
    rcases mem_append.mp htask with hold | hnew
    · exact hinitial.2 task hold
    · rw [mem_singleton.mp hnew, hinitial.1]

theorem FuturesHeld.of_done (hfutures : FuturesHeld prepared cluster)
    {task : ℕ} {window : D} {state : RolloutState R}
    (htask : cluster.tasks[task]? = some (.done window state)) :
    prepared cluster.world := by
  cases hfutures with
  | inl hprepared => exact hprepared
  | inr hinitial =>
    have hrunning := hinitial.2 _ (mem_of_getElem? htask)
    cases hrunning

theorem FuturesHeld.of_running (hfutures : FuturesHeld prepared cluster)
    {task : ℕ} {state : RolloutState R}
    (htask : cluster.tasks[task]? = some (.running state)) :
    state.resetFuture = none ∨ prepared cluster.world := by
  cases hfutures with
  | inl hprepared => exact .inr hprepared
  | inr hinitial =>
    have hrunning := hinitial.2 _ (mem_of_getElem? htask)
    cases hrunning
    exact .inl rfl

theorem FuturesHeld.of_object (hfutures : FuturesHeld prepared cluster)
    (object : ℕ) :
    (cluster.objects object).resetFuture = none ∨ prepared cluster.world := by
  cases hfutures with
  | inl hprepared => exact .inr hprepared
  | inr hinitial =>
    rw [hinitial.1]
    exact .inl rfl

theorem FlowWindows.wait
    (hwindows : FlowWindows conditions prepared kept entries cluster)
    (driver : DriverCall A)
    (hdriver : ∀ waves fails, driver = .eval waves fails →
      conditions.call waves fails) :
    FlowWindows conditions prepared kept entries
      { cluster with driver := driver } :=
  ⟨hwindows.kept, hwindows.futures, hdriver⟩

theorem FlowWindows.receive {received : TrainCluster W R D A}
    (hwindows : FlowWindows conditions prepared kept entries cluster)
    {task : ℕ} (pending : TrainCluster.Pending entries cluster task)
    {result : RolloutResult D}
    (hreceive : TrainCluster.receive cluster task = some (result, received)) :
    waitingWindows cluster = [result.data] ∧ prepared cluster.world ∧
      received.readyRolloutResult = none ∧
      received.pendingRolloutRef = none ∧
      received.world = cluster.world ∧ received.driver = cluster.driver := by
  unfold TrainCluster.receive at hreceive
  split at hreceive
  case h_2 => cases hreceive
  case h_1 window state htask =>
    cases hreceive
    refine ⟨?_, hwindows.futures.of_done htask, pending.ready, rfl, rfl, rfl⟩
    simp only [waitingWindows, pending.ready, pending.pending,
      Option.bind_some, htask, Option.toList_none, map_nil,
      nil_append]

theorem waitingWindows_finish {current : W} {task : ℕ} {data : D}
    {state : RolloutState R} (hready : cluster.readyRolloutResult = none)
    (hpending : cluster.pendingRolloutRef = some task)
    (hlt : task < cluster.tasks.length) :
    waitingWindows
      { cluster with
        world := current
        tasks := cluster.tasks.set task (.done data state) } = [data] := by
  simp only [waitingWindows, hready, hpending, Option.bind_some,
    getElem?_set_self hlt, Option.toList_none, map_nil,
    nil_append]

section Rules

variable (rules : FlowRules world config conditions prepared kept)
include rules

theorem FlowRules.snoc
    (hwindows : FlowWindows conditions prepared kept entries cluster)
    {entry : ClusterEvent R D} (hstill : entry.still = true) :
    FlowWindows conditions prepared kept (entries ++ [entry]) cluster :=
  ⟨rules.still entry hwindows.kept hstill, hwindows.futures, hwindows.driver⟩

theorem FlowRules.returnResult {result : RolloutResult D}
    (hready : cluster.readyRolloutResult = none)
    (hkept : kept entries cluster.world [result.data])
    (hfutures : FuturesHeld prepared cluster) :
    FlowWindows conditions prepared kept
      (entries ++ (TrainCluster.returnResult cluster result).1)
      (TrainCluster.returnResult cluster result).2 := by
  let base : TrainCluster W R D A :=
    { cluster with rolloutState := result.state, driver := .idle }
  have hwaiting : waitingWindows
      (TrainCluster.returnResult cluster result).2 = [] :=
    @waitingWindows_launch _ _ _ _ base hready
  have hupdated := rules.still .weightsUpdated hkept rfl
  have hlaunched := rules.still
    (.launched cluster.tasks.length (cluster.objects result.state)) hupdated
    rfl
  have hreturned := rules.returned result.task hlaunched
  simp only [append_assoc] at hreturned
  constructor
  · rw [hwaiting]
    exact hreturned
  · exact @FuturesHeld.launch _ _ _ _ prepared base hfutures
  · exact nofun

theorem FlowRules.runEval
    (hwindows : FlowWindows conditions prepared kept entries cluster)
    (hpending : cluster.pendingRolloutRef = none) {waves : List A}
    {fails : Bool} (hcall : conditions.call waves fails)
    (hwaiting : conditions.windows (waitingWindows cluster)) :
    FlowWindows conditions prepared kept
      (entries ++ (TrainCluster.runEval world cluster waves fails).1)
      (TrainCluster.runEval world cluster waves fails).2 := by
  have hsame : waitingWindows
      (TrainCluster.runEval world cluster waves fails).2 =
        waitingWindows cluster := by
    rw [waitingWindows_rest hpending]
    cases fails with
    | true | false => exact waitingWindows_rest hpending
  have hupdated := rules.still .weightsUpdated hwindows.kept rfl
  cases fails with
  | true =>
    have hempty := rules.failed hcall
    subst hempty
    have hraised := rules.still .raised hupdated rfl
    rw [append_assoc] at hraised
    constructor
    · rw [hsame]
      exact hraised
    · exact hwindows.futures
    · exact nofun
  | false =>
    obtain ⟨hprepared, hevaluated⟩ := rules.evaluated hupdated hcall hwaiting
    rw [append_assoc] at hevaluated
    constructor
    · rw [hsame]
      exact hevaluated
    · exact .inl hprepared
    · exact nofun

/-! ## The calls -/

theorem FlowRules.rolloutAsync
    (horder : TrainCluster.RolloutInv entries cluster)
    (hwindows : FlowWindows conditions prepared kept entries cluster)
    (stages : Option ℕ) :
    FlowWindows conditions prepared kept
      (entries ++ (TrainCluster.rolloutAsync config cluster stages).1)
      (TrainCluster.rolloutAsync config cluster stages).2 := by
  simp only [TrainCluster.rolloutAsync]
  by_cases hraise : stages.isSome ∨ ¬ config.separateRolloutModel
  · rw [if_pos hraise]
    exact rules.snoc hwindows rfl
  · rw [if_neg hraise]
    cases horder.waiting with
    | rest settled rest _ =>
      cases rest with
      | returned hready _ =>
        have hwaiting := waitingWindows_quiet settled.pending hready
        have hkept := hwindows.kept
        rw [hwaiting] at hkept
        rw [hready, settled.pending]
        constructor
        · have hlaunched := waitingWindows_launch hready
          refine Eq.subst hlaunched.symm ?_
          exact rules.still _ hkept rfl
        · exact hwindows.futures.launch
        · intro _ _ hdriver
          cases hdriver
      | ready result hready _ _ =>
        have hkept := hwindows.kept
        rw [waitingWindows_rest settled.pending, hready] at hkept
        rw [hready]
        exact @FlowRules.returnResult _ _ _ _ _ _ _ _ _ _
          { cluster with readyRolloutResult := none } rules result rfl
          hkept hwindows.futures
    | pending task pending =>
      have hwait := hwindows.wait .rollout
        (fun _ _ hdriver => by cases hdriver)
      simpa only [pending.ready, pending.pending, append_nil] using hwait

theorem FlowRules.callEval
    (hwindows : FlowWindows conditions prepared kept entries cluster)
    (hcalls : conditions.Calls cluster (.eval waves fails))
    (hwaiting : RunsEvaluation cluster (.eval waves fails) →
      conditions.windows (waitingWindows cluster)) :
    FlowWindows conditions prepared kept
      (entries ++ (TrainCluster.callEval world cluster waves fails).1)
      (TrainCluster.callEval world cluster waves fails).2 := by
  simp only [TrainCluster.callEval]
  cases hactive : cluster.rolloutCollectionActive with
  | true => exact rules.snoc hwindows rfl
  | false =>
    have hcall := hcalls hactive
    rw [if_neg Bool.false_ne_true]
    cases hpending : cluster.pendingRolloutRef with
    | none =>
      exact rules.runEval hwindows hpending hcall
        (hwaiting ⟨hpending, hactive⟩)
    | some task =>
      have hwait := hwindows.wait (.eval waves fails)
        (fun _ _ hdriver => by cases hdriver; exact hcall)
      simpa only [hpending, hactive, append_nil] using hwait

section

variable (horder : TrainCluster.RolloutInv entries cluster)
  (hwindows : FlowWindows conditions prepared kept entries cluster)

include horder hwindows

theorem FlowRules.callGet (hclosed : RunsEvaluation cluster .get →
      conditions.windows (waitingWindows cluster))
    (hget : TrainCluster.callGet world cluster = some (output, next)) :
    FlowWindows conditions prepared kept (entries ++ output) next := by
  unfold TrainCluster.callGet at hget
  cases horder.waiting with
  | rest settled _ _ =>
    rw [settled.pending] at hget
    cases hget
  | pending task pending =>
    rw [pending.pending, Option.bind_some] at hget
    split at hget
    case h_1 => cases hget
    case h_2 result received hreceive =>
      obtain ⟨hwaiting, hprepared, hkept⟩ := hwindows.receive pending hreceive
      obtain ⟨hready, hnone, hworld, hcalled⟩ := hkept
      have hflow := hwindows.kept
      rw [hwaiting, ← hworld] at hflow
      rw [← hworld] at hprepared
      cases hdriver : cluster.driver with
      | idle =>
        simp [hdriver] at hget
      | rollout =>
        rw [hdriver] at hget
        have hreturn := rules.returnResult hready hflow (.inl hprepared)
        rw [Option.some.inj hget] at hreturn
        exact hreturn
      | eval waves fails =>
        rw [hdriver] at hget
        let held : TrainCluster W R D A := { received with
            readyRolloutResult := some result
            rolloutState := result.state }
        have hheld : waitingWindows held = [result.data] :=
          @waitingWindows_rest _ _ _ _ held hnone
        have hheldWindows :
            FlowWindows conditions prepared kept entries held := by
          constructor
          · rw [hheld]
            exact hflow
          · exact .inl hprepared
          · intro other flag hother
            have hsame : received.driver = .eval other flag := hother
            rw [hcalled] at hsame
            exact hwindows.driver other flag hsame
        have hruns : RunsEvaluation cluster (.get : ClusterLabel A) := by
          rw [RunsEvaluation, hdriver]
          rfl
        have hheldClosed := hclosed hruns
        rw [hwaiting, ← hheld] at hheldClosed
        have heval := rules.runEval hheldWindows hnone
          (hwindows.driver waves fails hdriver) hheldClosed
        rw [Option.some.inj hget] at heval
        exact heval

theorem FlowRules.finishTask {task : ℕ} {answer : A}
    (hstep : FlowStep conditions asyncRollout cluster (.finish task answer))
    (hfinish : TrainCluster.finishTask world config cluster task answer =
      some (output, next)) :
    FlowWindows conditions prepared kept (entries ++ output) next := by
  unfold TrainCluster.finishTask at hfinish
  split at hfinish
  case h_2 => cases hfinish
  case h_1 state htask =>
    have hlt : task < cluster.tasks.length :=
      (List.getElem?_eq_some_iff.mp htask).1
    have hlast := horder.running_pending htask
    have hflow := hwindows.kept
    have hwaiting : waitingWindows cluster = [] := by
      simp only [waitingWindows, hlast.ready, hlast.pending,
        Option.bind_some, htask, Option.toList_none, map_nil,
        nil_append]
    rw [hwaiting] at hflow
    obtain ⟨hprepared, hfinished, _⟩ := rules.rollout none hflow
      (hwindows.futures.of_running htask) (hstep.rollouts state htask)
    cases hfinish
    constructor
    · rw [waitingWindows_finish hlast.ready hlast.pending hlt]
      exact hfinished task
    · exact .inl hprepared
    · exact hwindows.driver

end

theorem FlowRules.rolloutSync
    (hquiet : cluster.tasks = [] ∧ cluster.pendingRolloutRef = none ∧
      cluster.readyRolloutResult = none)
    (hwindows : FlowWindows conditions prepared kept entries cluster)
    (hstep : FlowStep conditions asyncRollout cluster
      (.rollout false stages answer)) :
    FlowWindows conditions prepared kept
      (entries ++ (TrainCluster.rolloutSync world config cluster stages
        answer).1)
      (TrainCluster.rolloutSync world config cluster stages answer).2 := by
  obtain ⟨_, hpending, hready⟩ := hquiet
  have hflow := hwindows.kept
  rw [waitingWindows_quiet hpending hready] at hflow
  have hafter : waitingWindows (TrainCluster.rolloutSync world config cluster
      stages answer).2 = [] := waitingWindows_quiet hpending hready
  have hfuture := hwindows.futures.of_object cluster.rolloutState
  simp only [TrainCluster.rolloutSync] at hafter ⊢
  cases hactive : cluster.rolloutCollectionActive with
  | true =>
    obtain ⟨hprepared, _, hreturned⟩ := rules.rollout stages hflow hfuture
      hstep.rollouts
    constructor
    · refine Eq.subst hafter.symm ?_
      exact hreturned
    · exact .inl hprepared
    · exact hwindows.driver
  | false =>
    have hupdated := rules.still .weightsUpdated hflow rfl
    obtain ⟨hprepared, _, hreturned⟩ := rules.rollout stages hupdated
      hfuture hstep.rollouts
    rw [append_assoc] at hreturned
    constructor
    · refine Eq.subst hafter.symm ?_
      exact hreturned
    · exact .inl hprepared
    · exact hwindows.driver

section

variable (hwindows : FlowWindows conditions prepared kept entries cluster)

include hwindows

theorem FlowRules.callTrain : FlowWindows conditions prepared kept
      (entries ++ (TrainCluster.callTrain cluster).1)
      (TrainCluster.callTrain cluster).2 := by
  unfold TrainCluster.callTrain
  split
  · exact rules.snoc hwindows rfl
  · exact rules.snoc hwindows rfl

theorem FlowRules.beginRolloutCollection : FlowWindows conditions prepared kept
      (entries ++ (TrainCluster.beginRolloutCollection cluster).1)
      (TrainCluster.beginRolloutCollection cluster).2 := by
  unfold TrainCluster.beginRolloutCollection
  split
  · exact rules.snoc hwindows rfl
  · have hupdated : FlowWindows conditions prepared kept
        (entries ++ [.weightsUpdated]) cluster := rules.snoc hwindows rfl
    exact ⟨hupdated.kept, hupdated.futures, hupdated.driver⟩

theorem FlowRules.endRolloutCollection : FlowWindows conditions prepared kept
      (entries ++ (TrainCluster.endRolloutCollection cluster).1)
      (TrainCluster.endRolloutCollection cluster).2 := by
  unfold TrainCluster.endRolloutCollection
  split
  · rw [append_nil]
    exact ⟨hwindows.kept, hwindows.futures, hwindows.driver⟩
  · exact rules.snoc hwindows rfl

end

end Rules

/-! ## The steps -/

theorem OneKind.asynchronous (hkind : OneKind true label) :
    TrainCluster.Asynchronous label := by
  cases label with
  | rollout flag stages answer => exact hkind
  | _ => trivial

theorem quiet_step (hkind : OneKind false label)
    (hquiet : cluster.tasks = [] ∧ cluster.pendingRolloutRef = none ∧
      cluster.readyRolloutResult = none)
    (hstep : TrainCluster.step world config cluster label =
      some (output, next)) :
    next.tasks = [] ∧ next.pendingRolloutRef = none ∧
      next.readyRolloutResult = none := by
  have hcall : ∀ {result : List (ClusterEvent R D) × TrainCluster W R D A},
      cluster.whenIdle result = some (output, next) →
      (result.2.tasks = cluster.tasks ∧
        result.2.pendingRolloutRef = cluster.pendingRolloutRef ∧
        result.2.readyRolloutResult = cluster.readyRolloutResult) →
      next.tasks = [] ∧ next.pendingRolloutRef = none ∧
        next.readyRolloutResult = none := by
    intro result hresult hsame
    rw [(TrainCluster.whenIdle_eq hresult).2] at hsame
    obtain ⟨htasks, hpending, hready⟩ := hsame
    exact ⟨htasks.trans hquiet.1, hpending.trans hquiet.2.1,
      hready.trans hquiet.2.2⟩
  cases label with
  | rollout flag stages answer =>
    cases hkind
    exact hcall hstep ⟨rfl, rfl, rfl⟩
  | eval waves fails =>
    apply hcall hstep
    rw [TrainCluster.callEval, hquiet.2.1]
    split
    · exact ⟨rfl, hquiet.2.1, rfl⟩
    · cases fails with
      | true | false => exact ⟨rfl, hquiet.2.1, rfl⟩
  | train =>
    apply hcall hstep
    unfold TrainCluster.callTrain
    split
    · exact ⟨rfl, rfl, rfl⟩
    · exact ⟨rfl, rfl, rfl⟩
  | beginRolloutCollection =>
    apply hcall hstep
    unfold TrainCluster.beginRolloutCollection
    split
    · exact ⟨rfl, rfl, rfl⟩
    · exact ⟨rfl, rfl, rfl⟩
  | endRolloutCollection =>
    apply hcall hstep
    unfold TrainCluster.endRolloutCollection
    split
    · exact ⟨rfl, rfl, rfl⟩
    · exact ⟨rfl, rfl, rfl⟩
  | get =>
    have hget : TrainCluster.callGet world cluster = some (output, next) :=
      hstep
    rw [TrainCluster.callGet, hquiet.2.1] at hget
    cases hget
  | finish task answer =>
    have hfinish : TrainCluster.finishTask world config cluster task answer =
        some (output, next) := hstep
    rw [TrainCluster.finishTask, hquiet.1] at hfinish
    cases hfinish

theorem FlowInv.step (rules : FlowRules world config conditions prepared kept)
    (hinv : FlowInv conditions prepared kept asyncRollout entries cluster)
    (hflow : FlowStep conditions asyncRollout cluster label)
    (hstep : TrainCluster.step world config cluster label =
      some (output, next)) :
    FlowInv conditions prepared kept asyncRollout (entries ++ output)
      next := by
  have hkind := hflow.kind
  have hcall : ∀ {result : List (ClusterEvent R D) × TrainCluster W R D A},
      cluster.whenIdle result = some (output, next) →
      FlowWindows conditions prepared kept (entries ++ result.1) result.2 →
      FlowWindows conditions prepared kept (entries ++ output) next := by
    intro result hresult hwindows
    rw [(TrainCluster.whenIdle_eq hresult).2] at hwindows
    exact hwindows
  constructor
  · intro hasync
    rw [hasync] at hkind
    exact (hinv.order hasync).step hkind.asynchronous hstep
  · intro hsync
    rw [hsync] at hkind
    exact quiet_step hkind (hinv.quiet hsync) hstep
  · cases label with
    | rollout flag stages answer =>
      cases flag with
      | true =>
        have horder := hinv.order hkind.symm
        exact hcall hstep (rules.rolloutAsync horder hinv.windows stages)
      | false =>
        have hquiet := hinv.quiet hkind.symm
        exact hcall hstep (rules.rolloutSync hquiet hinv.windows hflow)
    | eval waves fails =>
      apply hcall hstep
      apply rules.callEval hinv.windows hflow.calls
      intro hruns
      cases hasync : asyncRollout with
      | true => exact hflow.windows hasync hruns
      | false =>
        obtain ⟨_, hpending, hready⟩ := hinv.quiet hasync
        rw [waitingWindows_quiet hpending hready]
        exact rules.quiet
    | train => exact hcall hstep (rules.callTrain hinv.windows)
    | beginRolloutCollection =>
      exact hcall hstep (rules.beginRolloutCollection hinv.windows)
    | endRolloutCollection =>
      exact hcall hstep (rules.endRolloutCollection hinv.windows)
    | get =>
      cases hasync : asyncRollout with
      | true =>
        exact rules.callGet (hinv.order hasync) hinv.windows
          (hflow.windows hasync) hstep
      | false =>
        have hget : TrainCluster.callGet world cluster =
            some (output, next) := hstep
        rw [TrainCluster.callGet, (hinv.quiet hasync).2.1] at hget
        cases hget
    | finish task answer =>
      cases hasync : asyncRollout with
      | true =>
        exact rules.finishTask (hinv.order hasync) hinv.windows hflow hstep
      | false =>
        have hfinish : TrainCluster.finishTask world config cluster task
            answer = some (output, next) := hstep
        rw [TrainCluster.finishTask, (hinv.quiet hasync).1] at hfinish
        cases hfinish

theorem flowInv_of_run
    (rules : FlowRules world config conditions prepared kept)
    (hrun : Run (TrainCluster.machine world config)
      (TrainCluster.start initial) events next) (hflow : ∀ event ∈ events,
      FlowStep conditions asyncRollout event.before event.label)
    (hstart : kept [] initial []) :
    FlowInv conditions prepared kept asyncRollout (log events) next := by
  apply hrun.log_invariant (FlowStep conditions asyncRollout)
    (FlowInv conditions prepared kept asyncRollout) _ hflow
    (flowInv_start hstart)
  intro entries state label output after hinv hlabel hstep
  exact hinv.step rules hlabel hstep

end Steps

end VerlVla
