import Mathlib
import VerlVla.CollectionSpec
import VerlVla.SharedInference
import VerlVla.TransitionRun

/-!
# The broker of a shared model

Every simulator process is connected to the broker by its own pipe.  The broker
collects requests from the connections that are ready, waits a short time for
more, answers all of them with one inference, and stops when no simulator is
active or an error is raised.  A connection is ready when a message is in its
pipe or its process has closed it.
-/

namespace VerlVla

inductive CollectorStatus
  | windowClosed
  | conditionDrained
  deriving DecidableEq

structure CollectorResult where
  status : CollectorStatus
  condition : Option (String × ℤ)
  groupsProcessed : ℕ

structure CollectorSummary where
  status : CollectorStatus
  simulatorProcesses : ℕ
  groupsProcessed : ℕ
  workers : List CollectorResult

structure InferMessage (A : Type) where
  workerId : ℕ
  requestId : ℕ
  observation : IpcObservation A

inductive WorkerMessage (A : Type)
  | infer (message : InferMessage A)
  | done (workerId : ℕ) (result : CollectorResult)
  | error (workerId : ℕ)

inductive BrokerMessage (V : Type)
  | actions (requestId : ℕ) (tensors : TensorDict V)
  | error

/-- Where a simulator process is: between requests, waiting for an answer,
after its terminal message, or gone. -/
inductive SimulatorPhase
  | running
  | waiting (requestId : ℕ)
  | closing
  | closed (failed : Bool)
  deriving DecidableEq

structure SimulatorWorker where
  phase : SimulatorPhase
  requestIndex : ℕ

inductive BrokerError
  | workerFailed (worker : ℕ)
  | endOfFile (worker : ℕ)
  | processExited
  | noProgress
  | inference (error : InferenceError)
  | brokenPipe (worker : ℕ)

/-- Where the broker is: at the top of its loop, collecting requests, sending
answers, or closing its connections. -/
inductive BrokerPhase (A V : Type)
  | waiting
  | gathering (messages : List (InferMessage A))
  | sending (outputs : TensorDict V) (pairs : List (InferMessage A × (ℕ × ℕ)))
  | stopping (error : Option BrokerError) (connections : List ℕ)
  | stopped (error : Option BrokerError)

abbrev Pipes (α : Type) : Type := ℕ → List α

structure ModelBroker (A V : Type) where
  workers : ℕ → SimulatorWorker
  outbox : Pipes (WorkerMessage A)
  inbox : Pipes (BrokerMessage V)
  active : Finset ℕ
  results : List CollectorResult
  phase : BrokerPhase A V
  hungUp : Finset ℕ

structure BrokerConfig where
  simulators : ℕ
  policyMicrobatchSize : ℤ
  actorObjective : CollectionStore.ActorObjective

inductive BrokerLabel (A : Type)
  | infer (worker : ℕ) (observation : IpcObservation A)
  | receive (worker : ℕ)
  | finish (worker : ℕ) (result : CollectorResult)
  | crash (worker : ℕ)
  | close (worker : ℕ) (failed : Bool)
  | kill (worker : ℕ)
  | wait (ready : List ℕ) (stalled : Bool)
  | coalesce (ready : List ℕ)
  | inference
  | send
  | leave
  | hangUp

/-- The simulator that takes a step. -/
def BrokerLabel.worker? : BrokerLabel A → Option ℕ
  | .infer worker _ => some worker
  | .receive worker => some worker
  | .finish worker _ => some worker
  | .crash worker => some worker
  | .close worker _ => some worker
  | .kill worker => some worker
  | _ => none

inductive BrokerEvent (A V : Type)
  | requested (worker requestId : ℕ) (observation : IpcObservation A)
  | finished (worker : ℕ) (result : CollectorResult)
  | crashed (worker : ℕ)
  | answered (worker requestId : ℕ) (tensors : TensorDict V)
  | raised (error : BrokerError)
  | ended (summary : CollectorSummary)

def BrokerConfig.eval (config : BrokerConfig) : Bool :=
  config.actorObjective ≠ .flowGrpo

def SimulatorPhase.isClosed : SimulatorPhase → Bool
  | .closed _ => true
  | _ => false

/-! ## Reading the pipes -/

section Reading

variable {A : Type}

/-- What the broker has collected in one turn of its loop. -/
structure Intake (A : Type) where
  active : Finset ℕ
  results : List CollectorResult
  messages : List (InferMessage A)

def recvAll : List ℕ → Pipes (WorkerMessage A) →
    Except BrokerError (List (WorkerMessage A) × Pipes (WorkerMessage A))
  | [], pipes => .ok ([], pipes)
  | worker :: ready, pipes =>
    match pipes worker with
    | [] => .error (.endOfFile worker)
    | message :: rest =>
      (recvAll ready (Function.update pipes worker rest)).map
        fun received => (message :: received.1, received.2)

/-- A request is collected, and a terminal message is accepted. -/
def Intake.accept (intake : Intake A) :
    WorkerMessage A → Option BrokerError × Intake A
  | .infer message =>
    (none, { intake with messages := intake.messages ++ [message] })
  | .done worker result =>
    (none, { intake with
      results := intake.results ++ [result]
      active := intake.active.erase worker })
  | .error worker => (some (.workerFailed worker), intake)

def Intake.acceptAll (intake : Intake A) :
    List (WorkerMessage A) → Option BrokerError × Intake A
  | [] => (none, intake)
  | message :: messages =>
    match intake.accept message with
    | (none, next) => next.acceptAll messages
    | (some error, next) => (some error, next)

def receiveReady (ready : List ℕ) (pipes : Pipes (WorkerMessage A))
    (intake : Intake A) :
    Option BrokerError × Pipes (WorkerMessage A) × Intake A :=
  match recvAll ready pipes with
  | .error error => (some error, pipes, intake)
  | .ok (messages, rest) =>
    let accepted := intake.acceptAll messages
    (accepted.1, rest, accepted.2)

/-- Receive from one connection at a time, and accept its message. -/
def receiveEach (ready : List ℕ) (pipes : Pipes (WorkerMessage A))
    (intake : Intake A) :
    Option BrokerError × Pipes (WorkerMessage A) × Intake A :=
  match ready with
  | [] => (none, pipes, intake)
  | worker :: ready =>
    match pipes worker with
    | [] => (some (.endOfFile worker), pipes, intake)
    | message :: rest =>
      let popped := Function.update pipes worker rest
      match intake.accept message with
      | (none, next) => receiveEach ready popped next
      | (some error, next) => (some error, popped, next)

def requestedWorkers (messages : List (InferMessage A)) : Finset ℕ :=
  (messages.map InferMessage.workerId).toFinset

end Reading

namespace ModelBroker

variable {A V : Type} (config : BrokerConfig) (model : SharedModel A V)
  (broker : ModelBroker A V)

def start (config : BrokerConfig) : ModelBroker A V where
  workers _ := ⟨.running, 0⟩
  outbox _ := []
  inbox _ := []
  active := Finset.range config.simulators
  results := []
  phase := .waiting
  hungUp := ∅

/-! ## Simulators -/

section Simulators

variable (worker : ℕ)

def setPhase (phase : SimulatorPhase) : ModelBroker A V := { broker with
    workers := Function.update broker.workers worker
      { broker.workers worker with phase := phase } }

def post (message : WorkerMessage A) : ModelBroker A V := { broker with
    outbox := Function.update broker.outbox worker
      (broker.outbox worker ++ [message]) }

/-- An exception in the worker sends an error, if the pipe is still open. -/
def fail : List (BrokerEvent A V) × ModelBroker A V :=
  let closing := broker.setPhase worker .closing
  if worker ∈ broker.hungUp then ([], closing)
  else ([.crashed worker], closing.post worker (.error worker))

/-- A request takes the next index, also when it cannot be sent. -/
def inferOutputs (observation : IpcObservation A) :
    List (BrokerEvent A V) × ModelBroker A V :=
  let requestId := (broker.workers worker).requestIndex
  let counted := { broker with
    workers := Function.update broker.workers worker
      ⟨.waiting requestId, requestId + 1⟩ }
  if worker ∈ broker.hungUp then counted.fail worker
  else ([.requested worker requestId observation],
    counted.post worker (.infer ⟨worker, requestId, observation⟩))

def receiveAnswer (requestId : ℕ) (message : BrokerMessage V)
    (rest : List (BrokerMessage V)) :
    List (BrokerEvent A V) × ModelBroker A V :=
  let read := { broker with
    inbox := Function.update broker.inbox worker rest }
  match message with
  | .actions answeredId _ =>
    if answeredId = requestId then ([], read.setPhase worker .running)
    else read.fail worker
  | .error => read.fail worker

def finishWorker (result : CollectorResult) :
    List (BrokerEvent A V) × ModelBroker A V :=
  if worker ∈ broker.hungUp then broker.fail worker
  else ([.finished worker result],
    (broker.setPhase worker .closing).post worker (.done worker result))

/-- The environment is closed, which may raise, and then the pipe. -/
def closeWorker (failed : Bool) : ModelBroker A V :=
  let closed := broker.setPhase worker (.closed false)
  if failed ∧ worker ∉ broker.hungUp then
    closed.post worker (.error worker)
  else closed

end Simulators

/-! ## The loop of the broker -/

section Loop

/-- The connections that are ready, in the order of the wait. -/
def Ready (candidates : Finset ℕ) (ready : List ℕ) : Prop :=
  ready.Nodup ∧ ready.toFinset = candidates.filter fun worker =>
    broker.outbox worker ≠ [] ∨ (broker.workers worker).phase.isClosed

instance (candidates : Finset ℕ) (ready : List ℕ) :
    Decidable (broker.Ready candidates ready) :=
  inferInstanceAs (Decidable (_ ∧ _))

/-- An error leaves the loop for the connections to be closed. -/
def raise (error : BrokerError) : List (BrokerEvent A V) × ModelBroker A V :=
  ([.raised error], { broker with
      phase := .stopping (some error) (List.range config.simulators) })

def collected
    (outcome : Option BrokerError × Pipes (WorkerMessage A) × Intake A) :
    List (BrokerEvent A V) × ModelBroker A V :=
  let received := { broker with
    outbox := outcome.2.1
    active := outcome.2.2.active
    results := outcome.2.2.results
    phase := .gathering outcome.2.2.messages }
  match outcome.1 with
  | none => ([], received)
  | some error => received.raise config error

/-- No connection was ready in time. -/
def idle (stalled : Bool) : List (BrokerEvent A V) × ModelBroker A V :=
  if ∃ worker ∈ broker.active, (broker.workers worker).phase = .closed true
  then broker.raise config .processExited
  else if stalled then broker.raise config .noProgress
  else ([], broker)

def infer (messages : List (InferMessage A)) :
    List (BrokerEvent A V) × ModelBroker A V :=
  if messages = [] then ([], { broker with phase := .waiting })
  else
    match mergeIpcObservations (messages.map InferMessage.observation) with
    | .error error => broker.raise config (.inference error)
    | .ok (merged, slices) =>
      match inferSharedModelOutputsInMicrobatches model merged
          config.policyMicrobatchSize config.eval with
      | .error error => broker.raise config (.inference error)
      | .ok outputs =>
        ([], { broker with
          phase := .sending outputs (messages.zip slices) })

def sendActions (outputs : TensorDict V) (message : InferMessage A)
    (slice : ℕ × ℕ) (pairs : List (InferMessage A × (ℕ × ℕ))) :
    List (BrokerEvent A V) × ModelBroker A V :=
  let tensors := sliceTensors slice outputs
  if (broker.workers message.workerId).phase.isClosed then
    broker.raise config (.brokenPipe message.workerId)
  else ([.answered message.workerId message.requestId tensors], { broker with
      inbox := Function.update broker.inbox message.workerId
        (broker.inbox message.workerId ++ [.actions message.requestId tensors])
      phase := .sending outputs pairs })

def summary : CollectorSummary where
  status := if broker.results.any fun result => result.status = .windowClosed
    then .windowClosed
    else .conditionDrained
  simulatorProcesses := config.simulators
  groupsProcessed := (broker.results.map CollectorResult.groupsProcessed).sum
  workers := broker.results

/-- A simulator that is still active is told, unless its pipe is broken. -/
def hangUpOn (error : Option BrokerError) (worker : ℕ)
    (connections : List ℕ) : ModelBroker A V :=
  let told := if worker ∈ broker.active ∧
      ¬(broker.workers worker).phase.isClosed then
      Function.update broker.inbox worker (broker.inbox worker ++ [.error])
    else broker.inbox
  { broker with
    inbox := told
    hungUp := insert worker broker.hungUp
    phase := .stopping error connections }

end Loop

/-! ## Steps -/

section Steps

def workerStep (worker : ℕ) (phase : SimulatorPhase) :
    BrokerLabel A → Option (List (BrokerEvent A V) × ModelBroker A V)
  | .infer _ observation =>
    match phase with
    | .running => some (broker.inferOutputs worker observation)
    | _ => none
  | .receive _ =>
    match phase, broker.inbox worker with
    | .waiting requestId, message :: rest =>
      some (broker.receiveAnswer worker requestId message rest)
    | _, _ => none
  | .finish _ result =>
    match phase with
    | .running => some (broker.finishWorker worker result)
    | _ => none
  | .crash _ =>
    match phase with
    | .running => some (broker.fail worker)
    | .waiting _ => some (broker.fail worker)
    | _ => none
  | .close _ failed =>
    match phase with
    | .closing => some ([], broker.closeWorker worker failed)
    | _ => none
  | .kill _ =>
    match phase with
    | .closed _ => none
    | _ => some ([], broker.setPhase worker (.closed true))
  | _ => none

def brokerStep :
    BrokerLabel A → Option (List (BrokerEvent A V) × ModelBroker A V)
  | .wait ready stalled =>
    match broker.phase with
    | .waiting =>
      if broker.active ≠ ∅ ∧ broker.Ready broker.active ready then
        if ready = [] then some (broker.idle config stalled)
        else some (broker.collected config (receiveReady ready
          broker.outbox ⟨broker.active, broker.results, []⟩))
      else none
    | _ => none
  | .coalesce ready =>
    match broker.phase with
    | .gathering messages =>
      let requested := requestedWorkers messages
      if requested.card < broker.active.card ∧ ready ≠ [] ∧
          broker.Ready (broker.active \ requested) ready then
        some (broker.collected config (receiveEach ready
          broker.outbox ⟨broker.active, broker.results, messages⟩))
      else none
    | _ => none
  | .inference =>
    match broker.phase with
    | .gathering messages => some (broker.infer config model messages)
    | _ => none
  | .send =>
    match broker.phase with
    | .sending outputs ((message, slice) :: pairs) =>
      some (broker.sendActions config outputs message slice pairs)
    | .sending _ [] => some ([], { broker with phase := .waiting })
    | _ => none
  | .leave =>
    match broker.phase with
    | .waiting =>
      if broker.active = ∅ then
        some ([.ended (broker.summary config)], { broker with
            phase := .stopping none (List.range config.simulators) })
      else none
    | _ => none
  | .hangUp =>
    match broker.phase with
    | .stopping error (worker :: connections) =>
      some ([], broker.hangUpOn error worker connections)
    | .stopping error [] =>
      some ([], { broker with phase := .stopped error })
    | _ => none
  | _ => none

def step (label : BrokerLabel A) :
    Option (List (BrokerEvent A V) × ModelBroker A V) :=
  match label.worker? with
  | some worker =>
    if worker < config.simulators then
      broker.workerStep worker (broker.workers worker).phase label
    else none
  | none => broker.brokerStep config model label

end Steps

end ModelBroker

def brokerMachine {A V : Type} (config : BrokerConfig)
    (model : SharedModel A V) :
    Transition.Machine (ModelBroker A V) (BrokerLabel A)
      (List (BrokerEvent A V)) where
  step broker label := broker.step config model label

end VerlVla
