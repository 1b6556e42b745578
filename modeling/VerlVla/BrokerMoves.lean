import VerlVla.InferenceRows
import VerlVla.ModelBroker

/-!
# What a step of the broker or of a simulator does

Reading the connections takes one message from the front of every pipe that is
ready.  Each step is one of a few moves, which name all it changes.
-/

namespace VerlVla

variable {A V : Type}

theorem eq_pair_of_some {α β : Type} {pair : α × β} {first : α} {second : β}
    (hsome : some pair = some (first, second)) :
    first = pair.1 ∧ second = pair.2 := by
  cases Option.some.inj hsome
  exact ⟨rfl, rfl⟩

namespace WorkerMessage

def infer? : WorkerMessage A → Option (InferMessage A)
  | .infer message => some message
  | _ => none

def doneBy? : WorkerMessage A → Option ℕ
  | .done worker _ => some worker
  | _ => none

def isTerminal : WorkerMessage A → Bool
  | .infer _ => false
  | _ => true

def isError : WorkerMessage A → Bool
  | .error _ => true
  | _ => false

def sender : WorkerMessage A → ℕ
  | .infer message => message.workerId
  | .done worker _ => worker
  | .error worker => worker

end WorkerMessage

/-! ## Reading -/

section Reading

variable {ready : List ℕ} {pipes rest : Pipes (WorkerMessage A)}
  {intake after : Intake A} {messages : List (WorkerMessage A)}

def popped (ready : List ℕ) (pipes : Pipes (WorkerMessage A)) :
    Pipes (WorkerMessage A) :=
  fun worker => if worker ∈ ready then (pipes worker).tail else pipes worker

/-- What the ready connections hold first. -/
def headsOf {β : Type} (ready : List ℕ) (pipes : Pipes (WorkerMessage A))
    (f : WorkerMessage A → Option β) : List β :=
  ready.filterMap fun worker => (pipes worker).head?.bind f

theorem recvAll_eq_ok (hnodup : ready.Nodup)
    (hrecv : recvAll ready pipes = .ok (messages, rest)) :
    ready.map (fun worker => (pipes worker).head?) = messages.map some ∧
      rest = popped ready pipes := by
  induction ready generalizing pipes messages rest with
  | nil =>
    cases hrecv
    constructor
    · rfl
    · funext worker
      simp [popped]
  | cons worker ready ih =>
    obtain ⟨hfresh, hnodup⟩ := List.nodup_cons.mp hnodup
    cases hpipe : pipes worker with
    | nil =>
      rw [recvAll, hpipe] at hrecv
      cases hrecv
    | cons message others =>
      rw [recvAll, hpipe] at hrecv
      obtain ⟨received, hreceived, heq⟩ := map_eq_ok.mp hrecv
      cases heq
      obtain ⟨hheads, hrest⟩ := ih hnodup hreceived
      have hother : ∀ other ∈ ready,
          Function.update pipes worker others other = pipes other := by
        intro other hother
        apply Function.update_of_ne
        rintro rfl
        exact hfresh hother
      constructor
      · rw [List.map_cons, List.map_cons, hpipe, ← hheads]
        congr 1
        apply List.map_congr_left
        intro other hmember
        rw [hother other hmember]
      · rw [hrest]
        funext other
        by_cases hmember : other ∈ ready
        · simp [popped, hmember, hother other hmember]
        · by_cases heq : other = worker
          · subst heq
            simp [popped, hmember, hpipe]
          · simp [popped, hmember, heq]

theorem acceptAll_eq_none (haccept : intake.acceptAll messages = (none, after)) :
    (∀ message ∈ messages, message.isError = false) ∧ after.messages =
        intake.messages ++ messages.filterMap WorkerMessage.infer? ∧
      after.active = intake.active \
        (messages.filterMap WorkerMessage.doneBy?).toFinset := by
  induction messages generalizing intake with
  | nil =>
    cases haccept
    simp
  | cons message messages ih =>
    cases message with
    | infer request =>
      obtain ⟨herror, hmessages, hactive⟩ := ih haccept
      constructor
      · intro other hother
        rcases List.mem_cons.mp hother with rfl | hrest
        · rfl
        · exact herror other hrest
      · rw [hmessages, hactive]
        simp [List.filterMap_cons, WorkerMessage.infer?, WorkerMessage.doneBy?]
    | done worker result =>
      obtain ⟨herror, hmessages, hactive⟩ := ih haccept
      constructor
      · intro other hother
        rcases List.mem_cons.mp hother with rfl | hrest
        · rfl
        · exact herror other hrest
      · rw [hmessages, hactive]
        constructor
        · simp [List.filterMap_cons, WorkerMessage.infer?]
        · simp only [List.filterMap_cons, WorkerMessage.doneBy?,
            List.toFinset_cons]
          ext other
          simp only [Finset.mem_sdiff, Finset.mem_erase, Finset.mem_insert]
          tauto
    | error worker => cases haccept

/-- One message of each ready connection is taken and accepted. -/
structure Received (ready : List ℕ) (pipes : Pipes (WorkerMessage A))
    (intake : Intake A) (rest : Pipes (WorkerMessage A))
    (after : Intake A) : Prop where
  heads : ∀ worker ∈ ready, ∃ message, (pipes worker).head? = some message ∧
    message.isError = false
  rest : rest = popped ready pipes
  messages : after.messages =
    intake.messages ++ headsOf ready pipes WorkerMessage.infer?
  active : after.active =
    intake.active \ (headsOf ready pipes WorkerMessage.doneBy?).toFinset

theorem Received.of_all (hnodup : ready.Nodup)
    (hrecv : recvAll ready pipes = .ok (messages, rest))
    (haccept : intake.acceptAll messages = (none, after)) :
    Received ready pipes intake rest after := by
  obtain ⟨hheads, hrest⟩ := recvAll_eq_ok hnodup hrecv
  obtain ⟨herror, hmessages, hactive⟩ := acceptAll_eq_none haccept
  have hfilter : ∀ {β : Type} (f : WorkerMessage A → Option β),
      headsOf ready pipes f = messages.filterMap f := by
    intro β f
    have hmap := congrArg (fun heads => heads.filterMap fun head =>
      head.bind f) hheads
    simpa [headsOf, List.filterMap_map, Function.comp_def] using hmap
  constructor
  · intro worker hworker
    have hmember : (pipes worker).head? ∈ messages.map some := by
      rw [← hheads]
      exact List.mem_map_of_mem hworker
    obtain ⟨message, hmessage, heq⟩ := List.mem_map.mp hmember
    exact ⟨message, heq.symm, herror message hmessage⟩
  · exact hrest
  · rw [hmessages, hfilter]
  · rw [hactive, hfilter]

theorem Received.of_receiveReady (hnodup : ready.Nodup)
    (hreceive : receiveReady ready pipes intake = (none, rest, after)) :
    Received ready pipes intake rest after := by
  unfold receiveReady at hreceive
  cases hrecv : recvAll ready pipes with
  | error error =>
    simp [hrecv] at hreceive
  | ok received =>
    obtain ⟨messages, others⟩ := received
    rw [hrecv] at hreceive
    simp only [Prod.mk.injEq] at hreceive
    obtain ⟨hnone, rfl, hafter⟩ := hreceive
    have haccept : intake.acceptAll messages = (none, after) := by
      rw [← hnone, ← hafter]
    exact Received.of_all hnodup hrecv haccept

theorem receiveEach_eq_none
    (hreceive : receiveEach ready pipes intake = (none, rest, after)) :
    ∃ messages, recvAll ready pipes = .ok (messages, rest) ∧
      intake.acceptAll messages = (none, after) := by
  induction ready generalizing pipes intake with
  | nil =>
    cases hreceive
    exact ⟨[], rfl, rfl⟩
  | cons worker ready ih =>
    cases hpipe : pipes worker with
    | nil =>
      rw [receiveEach, hpipe] at hreceive
      cases hreceive
    | cons message others =>
      rw [receiveEach, hpipe] at hreceive
      cases haccept : intake.accept message with
      | mk error next =>
        simp only [haccept] at hreceive
        cases error with
        | some error => cases hreceive
        | none =>
          obtain ⟨messages, hrecv, hall⟩ := ih hreceive
          refine ⟨message :: messages, ?_, ?_⟩
          · rw [recvAll, hpipe]
            simp only [hrecv]
            rfl
          · rw [Intake.acceptAll, haccept]
            exact hall

theorem Received.of_receiveEach (hnodup : ready.Nodup)
    (hreceive : receiveEach ready pipes intake = (none, rest, after)) :
    Received ready pipes intake rest after := by
  obtain ⟨messages, hrecv, haccept⟩ := receiveEach_eq_none hreceive
  exact Received.of_all hnodup hrecv haccept

end Reading

/-! ## Moves of a simulator -/

def SimulatorPhase.isOver : SimulatorPhase → Bool
  | .closing => true
  | .closed _ => true
  | _ => false

/-- What a simulator posts, what is logged of it, and its next state. -/
inductive WorkerMove (worker : ℕ) (before : SimulatorWorker) :
    List (WorkerMessage A) → List (BrokerEvent A V) → SimulatorWorker → Prop
  | asked (observation : IpcObservation A)
      (hphase : before.phase = .running) :
      WorkerMove worker before
        [.infer ⟨worker, before.requestIndex, observation⟩]
        [.requested worker before.requestIndex observation]
        ⟨.waiting before.requestIndex, before.requestIndex + 1⟩
  | finished (result : CollectorResult) (hphase : before.phase = .running) :
      WorkerMove worker before [.done worker result]
        [.finished worker result] { before with phase := .closing }
  | crashed (hphase : before.phase.isOver = false) :
      WorkerMove worker before [.error worker] [.crashed worker]
        { before with phase := .closing }
  | late (hphase : before.phase = .closing) :
      WorkerMove worker before [.error worker] []
        { before with phase := .closed false }
  | quiet (next : SimulatorWorker)
      (hindex : before.requestIndex ≤ next.requestIndex)
      (hover : before.phase.isOver → next.phase.isOver)
      (hclosed : before.phase.isClosed → next.phase.isClosed) :
      WorkerMove worker before [] [] next

/-- A simulator changes its own state and pipes only. -/
structure WorkerStep (worker : ℕ) (broker : ModelBroker A V)
    (entries : List (BrokerEvent A V)) (next : ModelBroker A V) : Prop where
  active : next.active = broker.active
  phase : next.phase = broker.phase
  move : ∃ posted state,
    WorkerMove worker (broker.workers worker) posted entries state ∧
      next.workers = Function.update broker.workers worker state ∧
      next.outbox = Function.update broker.outbox worker
        (broker.outbox worker ++ posted)

namespace ModelBroker

variable {config : BrokerConfig} {model : SharedModel A V}
  {broker next : ModelBroker A V} {worker : ℕ}

theorem workerStep_quiet (state : SimulatorWorker)
    (hindex : (broker.workers worker).requestIndex ≤ state.requestIndex)
    (hover : (broker.workers worker).phase.isOver → state.phase.isOver)
    (hclosed : (broker.workers worker).phase.isClosed → state.phase.isClosed)
    (hactive : next.active = broker.active)
    (hphase : next.phase = broker.phase)
    (hworkers : next.workers = Function.update broker.workers worker state)
    (houtbox : next.outbox = broker.outbox) :
    WorkerStep worker broker [] next where
  active := hactive
  phase := hphase
  move := ⟨[], state, .quiet state hindex hover hclosed, hworkers, by
    rw [houtbox, List.append_nil, Function.update_eq_self]⟩

theorem isClosed_of_not_isOver {phase : SimulatorPhase}
    (hphase : phase.isOver = false) : phase.isClosed = false := by
  cases phase with
  | running | waiting requestId | closing => rfl
  | closed failed => cases hphase

theorem workerStep_fail
    (hphase : (broker.workers worker).phase.isOver = false) :
    WorkerStep worker broker (broker.fail worker).1
      (broker.fail worker).2 := by
  by_cases hhung : worker ∈ broker.hungUp
  · rw [fail, if_pos hhung]
    apply workerStep_quiet { broker.workers worker with phase := .closing }
    · exact le_rfl
    · intro _
      rfl
    · intro hclosed
      rw [isClosed_of_not_isOver hphase] at hclosed
      cases hclosed
    · rfl
    · rfl
    · rfl
    · rfl
  · rw [fail, if_neg hhung]
    constructor
    · rfl
    · rfl
    · exact ⟨_, _, .crashed hphase, rfl, rfl⟩

theorem workerStep_infer {observation : IpcObservation A}
    (hphase : (broker.workers worker).phase = .running) :
    WorkerStep worker broker (broker.inferOutputs worker observation).1
      (broker.inferOutputs worker observation).2 := by
  by_cases hhung : worker ∈ broker.hungUp
  · rw [inferOutputs, if_pos hhung, fail, if_pos hhung]
    apply workerStep_quiet ⟨.closing, (broker.workers worker).requestIndex + 1⟩
    · exact Nat.le_succ _
    · intro _
      rfl
    · rw [hphase]
      exact nofun
    · rfl
    · rfl
    · simp [setPhase]
    · rfl
  · rw [inferOutputs, if_neg hhung]
    constructor
    · rfl
    · rfl
    · exact ⟨_, _, .asked observation hphase, rfl, rfl⟩

theorem workerStep_receive {requestId : ℕ} {message : BrokerMessage V}
    {rest : List (BrokerMessage V)}
    (hphase : (broker.workers worker).phase = .waiting requestId) :
    WorkerStep worker broker
      (broker.receiveAnswer worker requestId message rest).1
      (broker.receiveAnswer worker requestId message rest).2 := by
  let read : ModelBroker A V := { broker with
    inbox := Function.update broker.inbox worker rest }
  have hnotOver : (read.workers worker).phase.isOver = false := by
    change (broker.workers worker).phase.isOver = false
    rw [hphase]
    rfl
  have hfail := workerStep_fail hnotOver
  have hfailed : WorkerStep worker broker (read.fail worker).1
      (read.fail worker).2 := ⟨hfail.active, hfail.phase, hfail.move⟩
  cases message with
  | error => exact hfailed
  | actions answeredId tensors =>
    by_cases hid : answeredId = requestId
    · simp only [receiveAnswer, if_pos hid]
      apply workerStep_quiet
        { broker.workers worker with phase := .running }
      · exact le_rfl
      · rw [hphase]
        exact nofun
      · rw [hphase]
        exact nofun
      · rfl
      · rfl
      · rfl
      · rfl
    · simp only [receiveAnswer, if_neg hid]
      exact hfailed

theorem workerStep_finish {result : CollectorResult}
    (hphase : (broker.workers worker).phase = .running) :
    WorkerStep worker broker (broker.finishWorker worker result).1
      (broker.finishWorker worker result).2 := by
  by_cases hhung : worker ∈ broker.hungUp
  · rw [finishWorker, if_pos hhung]
    apply workerStep_fail
    rw [hphase]
    rfl
  · rw [finishWorker, if_neg hhung]
    constructor
    · rfl
    · rfl
    · exact ⟨_, _, .finished result hphase, rfl, rfl⟩

theorem workerStep_close {failed : Bool}
    (hphase : (broker.workers worker).phase = .closing) :
    WorkerStep worker broker [] (broker.closeWorker worker failed) := by
  by_cases hlate : failed ∧ worker ∉ broker.hungUp
  · rw [closeWorker, if_pos hlate]
    constructor
    · rfl
    · rfl
    · exact ⟨_, _, .late hphase, rfl, rfl⟩
  · rw [closeWorker, if_neg hlate]
    apply workerStep_quiet
      { broker.workers worker with phase := .closed false }
    · exact le_rfl
    · intro _
      rfl
    · intro _
      rfl
    · rfl
    · rfl
    · rfl
    · rfl

theorem WorkerStep.of_step {label : BrokerLabel A}
    (hstep : broker.workerStep worker (broker.workers worker).phase label =
      some (entries, next)) : WorkerStep worker broker entries next := by
  cases label with
  | infer other observation =>
    cases hphase : (broker.workers worker).phase with
    | running =>
      rw [hphase] at hstep
      obtain ⟨rfl, rfl⟩ := eq_pair_of_some hstep
      exact workerStep_infer hphase
    | _ =>
      rw [hphase] at hstep
      cases hstep
  | receive other =>
    cases hphase : (broker.workers worker).phase with
    | waiting requestId =>
      cases hinbox : broker.inbox worker with
      | nil =>
        simp [workerStep, hphase, hinbox] at hstep
      | cons message rest =>
        simp only [workerStep, hphase, hinbox] at hstep
        obtain ⟨rfl, rfl⟩ := eq_pair_of_some hstep
        exact workerStep_receive hphase
    | _ => simp [workerStep, hphase] at hstep
  | finish other result =>
    cases hphase : (broker.workers worker).phase with
    | running =>
      rw [hphase] at hstep
      obtain ⟨rfl, rfl⟩ := eq_pair_of_some hstep
      exact workerStep_finish hphase
    | _ =>
      rw [hphase] at hstep
      cases hstep
  | crash other =>
    cases hphase : (broker.workers worker).phase with
    | running | waiting requestId =>
      rw [hphase] at hstep
      obtain ⟨rfl, rfl⟩ := eq_pair_of_some hstep
      apply workerStep_fail
      rw [hphase]
      rfl
    | _ =>
      rw [hphase] at hstep
      cases hstep
  | close other failed =>
    cases hphase : (broker.workers worker).phase with
    | closing =>
      rw [hphase] at hstep
      cases hstep
      exact workerStep_close hphase
    | _ =>
      rw [hphase] at hstep
      cases hstep
  | kill other =>
    cases hphase : (broker.workers worker).phase with
    | closed failed =>
      rw [hphase] at hstep
      cases hstep
    | _ =>
      rw [hphase] at hstep
      cases hstep
      apply workerStep_quiet
        { broker.workers worker with phase := .closed true }
      · exact le_rfl
      · intro _
        rfl
      · intro _
        rfl
      · rfl
      · rfl
      · rfl
      · rfl
  | _ => cases hstep

end ModelBroker

/-! ## Moves of the broker -/

def BrokerPhase.isOver : BrokerPhase A V → Bool
  | .stopping _ _ => true
  | .stopped _ => true
  | _ => false

/-- The requests collected so far in this turn of the loop. -/
def BrokerPhase.Collects (phase : BrokerPhase A V)
    (messages : List (InferMessage A)) : Prop :=
  phase = .waiting ∧ messages = [] ∨ phase = .gathering messages

section BrokerMoves

variable (config : BrokerConfig) (model : SharedModel A V)
  (broker : ModelBroker A V)

/-- What a step of the broker logs and its next state. -/
inductive BrokerMove : List (BrokerEvent A V) → ModelBroker A V → Prop
  | idle (hphase : broker.phase = .waiting) (hactive : broker.active ≠ ∅)
      (hidle : broker.Ready broker.active []) : BrokerMove [] broker
  | collect (messages : List (InferMessage A)) (ready : List ℕ)
      (rest : Pipes (WorkerMessage A)) (after : Intake A)
      (hcollects : broker.phase.Collects messages) (hready : ready ≠ [])
      (hall : broker.Ready (broker.active \ requestedWorkers messages) ready)
      (hreceived : Received ready broker.outbox
        ⟨broker.active, broker.results, messages⟩ rest after) :
      BrokerMove []
        { broker with
          outbox := rest
          active := after.active
          results := after.results
          phase := .gathering after.messages }
  | raise (error : BrokerError) (next : ModelBroker A V)
      (hlooping : broker.phase.isOver = false)
      (hworkers : next.workers = broker.workers)
      (hphase : next.phase.isOver) : BrokerMove [.raised error] next
  | empty (hphase : broker.phase = .gathering []) :
      BrokerMove [] { broker with phase := .waiting }
  | computed (messages : List (InferMessage A)) (merged : IpcObservation A)
      (slices : List (ℕ × ℕ)) (outputs : TensorDict V)
      (hphase : broker.phase = .gathering messages)
      (hmerge : mergeIpcObservations
        (messages.map InferMessage.observation) = .ok (merged, slices))
      (hinfer : inferSharedModelOutputsInMicrobatches model merged
        config.policyMicrobatchSize config.eval = .ok outputs) :
      BrokerMove []
        { broker with phase := .sending outputs (messages.zip slices) }
  | answer (outputs : TensorDict V) (message : InferMessage A)
      (slice : ℕ × ℕ) (pairs : List (InferMessage A × (ℕ × ℕ)))
      (inbox : Pipes (BrokerMessage V))
      (hphase : broker.phase = .sending outputs ((message, slice) :: pairs)) :
      BrokerMove [.answered message.workerId message.requestId
          (sliceTensors slice outputs)]
        { broker with inbox := inbox, phase := .sending outputs pairs }
  | sent (outputs : TensorDict V) (hphase : broker.phase = .sending outputs []) :
      BrokerMove [] { broker with phase := .waiting }
  | leave (hphase : broker.phase = .waiting) (hactive : broker.active = ∅) :
      BrokerMove [.ended (broker.summary config)]
        { broker with
          phase := .stopping none (List.range config.simulators) }
  | hangUp (next : ModelBroker A V) (hphase : broker.phase.isOver)
      (hnext : next.phase.isOver) (hworkers : next.workers = broker.workers)
      (houtbox : next.outbox = broker.outbox)
      (hactive : next.active = broker.active) : BrokerMove [] next

end BrokerMoves

namespace BrokerMove

variable {config : BrokerConfig} {model : SharedModel A V}
  {broker next : ModelBroker A V}

theorem of_raise {read : ModelBroker A V} (error : BrokerError)
    (hlooping : broker.phase.isOver = false)
    (hworkers : read.workers = broker.workers) :
    BrokerMove config model broker (read.raise config error).1
      (read.raise config error).2 :=
  .raise error _ hlooping hworkers rfl

theorem of_idle {stalled : Bool} (hphase : broker.phase = .waiting)
    (hactive : broker.active ≠ ∅) (hidle : broker.Ready broker.active []) :
    BrokerMove config model broker (broker.idle config stalled).1
      (broker.idle config stalled).2 := by
  have hlooping : broker.phase.isOver = false := by
    rw [hphase]
    rfl
  unfold ModelBroker.idle
  split_ifs
  · exact of_raise _ hlooping rfl
  · exact of_raise _ hlooping rfl
  · exact .idle hphase hactive hidle

theorem of_collected {messages : List (InferMessage A)} {ready : List ℕ}
    {outcome : Option BrokerError × Pipes (WorkerMessage A) × Intake A}
    (hcollects : broker.phase.Collects messages) (hready : ready ≠ [])
    (hall : broker.Ready (broker.active \ requestedWorkers messages) ready)
    (hreceived : outcome.1 = none → Received ready broker.outbox
      ⟨broker.active, broker.results, messages⟩ outcome.2.1 outcome.2.2) :
    BrokerMove config model broker (broker.collected config outcome).1
      (broker.collected config outcome).2 := by
  have hlooping : broker.phase.isOver = false := by
    rcases hcollects with ⟨hphase, _⟩ | hphase <;> rw [hphase] <;> rfl
  obtain ⟨error, rest, after⟩ := outcome
  cases error with
  | none =>
    have hread := hreceived rfl
    exact .collect messages ready rest after hcollects hready hall hread
  | some error => exact of_raise error hlooping rfl

theorem of_infer {messages : List (InferMessage A)}
    (hphase : broker.phase = .gathering messages) :
    BrokerMove config model broker (broker.infer config model messages).1
      (broker.infer config model messages).2 := by
  have hlooping : broker.phase.isOver = false := by
    rw [hphase]
    rfl
  unfold ModelBroker.infer
  by_cases hempty : messages = []
  · subst hempty
    exact .empty hphase
  · rw [if_neg hempty]
    cases hmerge : mergeIpcObservations
        (messages.map InferMessage.observation) with
    | error error => exact of_raise _ hlooping rfl
    | ok result =>
      obtain ⟨merged, slices⟩ := result
      dsimp only
      cases hinfer : inferSharedModelOutputsInMicrobatches model merged
          config.policyMicrobatchSize config.eval with
      | error error => exact of_raise _ hlooping rfl
      | ok outputs =>
        exact .computed messages merged slices outputs hphase hmerge hinfer

theorem of_send {outputs : TensorDict V} {message : InferMessage A}
    {slice : ℕ × ℕ} {pairs : List (InferMessage A × (ℕ × ℕ))}
    (hphase : broker.phase = .sending outputs ((message, slice) :: pairs)) :
    BrokerMove config model broker
      (broker.sendActions config outputs message slice pairs).1
      (broker.sendActions config outputs message slice pairs).2 := by
  unfold ModelBroker.sendActions
  split_ifs
  · apply of_raise _ _ rfl
    rw [hphase]
    rfl
  · exact .answer outputs message slice pairs _ hphase

theorem of_step {label : BrokerLabel A}
    (hstep : broker.brokerStep config model label = some (entries, next)) :
    BrokerMove config model broker entries next := by
  cases label with
  | wait ready stalled =>
    cases hphase : broker.phase with
    | waiting =>
      simp only [ModelBroker.brokerStep, hphase] at hstep
      split_ifs at hstep with henabled hready
      · subst hready
        obtain ⟨rfl, rfl⟩ := eq_pair_of_some hstep
        exact of_idle hphase henabled.1 henabled.2
      · obtain ⟨rfl, rfl⟩ := eq_pair_of_some hstep
        have hall : broker.Ready (broker.active \
            requestedWorkers ([] : List (InferMessage A))) ready := by
          simpa [requestedWorkers] using henabled.2
        apply of_collected (.inl ⟨hphase, rfl⟩) hready hall
        intro hnone
        apply Received.of_receiveReady henabled.2.1
        rw [← hnone]
    | _ => simp [ModelBroker.brokerStep, hphase] at hstep
  | coalesce ready =>
    cases hphase : broker.phase with
    | gathering messages =>
      simp only [ModelBroker.brokerStep, hphase] at hstep
      split_ifs at hstep with henabled
      obtain ⟨rfl, rfl⟩ := eq_pair_of_some hstep
      apply of_collected (.inr hphase) henabled.2.1 henabled.2.2
      intro hnone
      apply Received.of_receiveEach henabled.2.2.1
      rw [← hnone]
    | _ => simp [ModelBroker.brokerStep, hphase] at hstep
  | inference =>
    cases hphase : broker.phase with
    | gathering messages =>
      simp only [ModelBroker.brokerStep, hphase] at hstep
      obtain ⟨rfl, rfl⟩ := eq_pair_of_some hstep
      exact of_infer hphase
    | _ => simp [ModelBroker.brokerStep, hphase] at hstep
  | send =>
    cases hphase : broker.phase with
    | sending outputs pairs =>
      cases pairs with
      | nil =>
        simp only [ModelBroker.brokerStep, hphase] at hstep
        obtain ⟨rfl, rfl⟩ := eq_pair_of_some hstep
        exact .sent outputs hphase
      | cons pair pairs =>
        obtain ⟨message, slice⟩ := pair
        simp only [ModelBroker.brokerStep, hphase] at hstep
        obtain ⟨rfl, rfl⟩ := eq_pair_of_some hstep
        exact of_send hphase
    | _ => simp [ModelBroker.brokerStep, hphase] at hstep
  | leave =>
    cases hphase : broker.phase with
    | waiting =>
      simp only [ModelBroker.brokerStep, hphase] at hstep
      split_ifs at hstep with hactive
      obtain ⟨rfl, rfl⟩ := eq_pair_of_some hstep
      exact .leave hphase hactive
    | _ => simp [ModelBroker.brokerStep, hphase] at hstep
  | hangUp =>
    cases hphase : broker.phase with
    | stopping error connections =>
      have hover : broker.phase.isOver := by
        rw [hphase]
        rfl
      cases connections with
      | nil | cons worker connections =>
        simp only [ModelBroker.brokerStep, hphase] at hstep
        obtain ⟨rfl, rfl⟩ := eq_pair_of_some hstep
        exact .hangUp _ hover rfl rfl rfl rfl
    | _ => simp [ModelBroker.brokerStep, hphase] at hstep
  | _ => cases hstep

end BrokerMove

inductive MachineMove (config : BrokerConfig) (model : SharedModel A V)
    (broker : ModelBroker A V) (entries : List (BrokerEvent A V))
    (next : ModelBroker A V) : Prop
  | worker (worker : ℕ) (hworker : worker < config.simulators)
      (step : WorkerStep worker broker entries next)
  | broker (move : BrokerMove config model broker entries next)

theorem MachineMove.of_step {config : BrokerConfig}
    {model : SharedModel A V} {broker next : ModelBroker A V}
    {entries : List (BrokerEvent A V)} {label : BrokerLabel A}
    (hstep : (brokerMachine config model).step broker label =
      some (entries, next)) : MachineMove config model broker entries next := by
  change broker.step config model label = some (entries, next) at hstep
  unfold ModelBroker.step at hstep
  cases hlabel : label.worker? with
  | none =>
    rw [hlabel] at hstep
    exact .broker (.of_step hstep)
  | some worker =>
    simp only [hlabel] at hstep
    split_ifs at hstep with hworker
    exact .worker worker hworker (ModelBroker.WorkerStep.of_step hstep)

end VerlVla
