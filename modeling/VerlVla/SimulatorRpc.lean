import Mathlib
import VerlVla.TransitionRun

/-!
# Remote calls to a simulator process

An environment manager talks to its simulator process over a command queue and
a result queue; neither carries an identifier of the call.  A label is one
operation issued by the manager, one move of the child process, or the end of
the wait of the operation under way: an answer is read, the deadline passes, or
the child is found dead.
-/

namespace VerlVla
namespace SimulatorRpc

open Transition

structure Command (Args : Type) where
  method : String
  args : Args
  deriving DecidableEq

/-- One entry of the result queue. -/
inductive Response (Value : Type)
  | ready
  | success (data : Value)
  | error (text : String)
  deriving DecidableEq

/-- What `getattr` finds on the environment. -/
inductive Attribute (Env Args Value : Type)
  | missing
  | value
  | method (run : Args → Except String Value × Env)

/-- The environment class served by the child process. -/
structure Adapter (Env Args Value : Type) where
  construct : Except String Env
  loadState : Env → Value → Except String Env
  truthy : Value → Bool
  getattr : Env → String → Attribute Env Args Value
  setattr : Env → Args → Except String Unit × Env
  close : Env → Except (String × Env) Unit
  noArgs : Args
  noValue : Value

namespace Adapter

variable {Env Args Value : Type} (adapter : Adapter Env Args Value)

/-- Build the environment and load the state handed to the child. -/
def launch (saved : Option Value) : Except String Env := do
  let env ← adapter.construct
  match saved with
  | none => pure env
  | some state =>
    if adapter.truthy state then adapter.loadState env state
    else pure env

def getState : Command Args := ⟨"get_state", adapter.noArgs⟩

/-- Execute one command other than `shutdown`. -/
def perform (env : Env) (command : Command Args) : Response Value × Env :=
  if command.method = "__setattr__" then
    match adapter.setattr env command.args with
    | (.ok _, next) => (.success adapter.noValue, next)
    | (.error text, next) => (.error text, next)
  else
    match adapter.getattr env command.method with
    | .missing =>
      (.error ("Method '" ++ command.method ++ "' not found"), env)
    | .value =>
      (.error ("Method " ++ command.method ++ " is not callable"), env)
    | .method run =>
      match run command.args with
      | (.ok data, next) => (.success data, next)
      | (.error text, next) => (.error text, next)

end Adapter

inductive Child (Env Value : Type)
  | starting (saved : Option Value)
  | serving (env : Env)
  | exited
  deriving DecidableEq

structure SimulatorProcess (Env Args Value : Type) where
  child : Child Env Value
  commandQueue : List (Command Args)
  resultQueue : List (Response Value)
  deriving DecidableEq

inductive Operation (Args : Type)
  | startSimulator
  | call (command : Command Args) (timeout : Option ℚ)
  | setAttribute (args : Args)
  | snapshotState (timeout : ℚ)
  | stopSimulator
  deriving DecidableEq

inductive RpcError (Value : Type)
  | notRunning
  | nonpositiveTimeout (timeout : ℚ)
  | timedOut (method : String)
  | exitedDuring (method : String)
  | failed (text : String)
  | noData
  | initializationTimedOut
  | initializationExited
  | initializationFailed (response : Response Value)
  | empty
  deriving DecidableEq

inductive Label (Args : Type)
  | issue (operation : Operation Args)
  | forceStop
  | childLaunch
  | childServe
  | childExit
  | receive
  | expire
  | noticeExit
  deriving DecidableEq

def Label.isChild {Args : Type} : Label Args → Bool
  | .childLaunch | .childServe | .childExit => true
  | _ => false

inductive Output (Args Value : Type)
  | silent
  | waiting
  | served (command : Command Args) (response : Response Value)
  | returned (value : Option Value)
  | raised (error : RpcError Value)
  deriving DecidableEq

/-- `pending` is the operation that waits for an answer. -/
structure EnvManager (Env Args Value : Type) where
  process : Option (SimulatorProcess Env Args Value)
  stateBuffer : Option Value
  coldStartPending : Bool
  pending : Option (Operation Args)
  deriving DecidableEq

variable {Env Args Value : Type} (adapter : Adapter Env Args Value)

/-! ## The child -/

namespace SimulatorProcess

def fresh (saved : Option Value) : SimulatorProcess Env Args Value where
  child := .starting saved
  commandQueue := []
  resultQueue := []

def isAlive (process : SimulatorProcess Env Args Value) : Bool :=
  match process.child with
  | .exited => false
  | _ => true

def put (process : SimulatorProcess Env Args Value)
    (command : Command Args) : SimulatorProcess Env Args Value :=
  { process with commandQueue := process.commandQueue ++ [command] }

def answer (process : SimulatorProcess Env Args Value)
    (child : Child Env Value) (response : Response Value) :
    SimulatorProcess Env Args Value :=
  { process with
    child := child
    resultQueue := process.resultQueue ++ [response] }

/-- Report ready, or report why the environment could not be built. -/
def launch (process : SimulatorProcess Env Args Value) :
    Option (SimulatorProcess Env Args Value) :=
  match process.child with
  | .starting saved =>
    match adapter.launch saved with
    | .ok env => some (process.answer (.serving env) .ready)
    | .error text => some (process.answer .exited (.error text))
  | _ => none

/-- Take one command; a clean `shutdown` ends the child without an answer. -/
def serve (process : SimulatorProcess Env Args Value) :
    Option (Output Args Value × SimulatorProcess Env Args Value) :=
  match process.child, process.commandQueue with
  | .serving env, command :: rest =>
    let taken := { process with commandQueue := rest }
    if command.method = "shutdown" then
      match adapter.close env with
      | .ok _ => some (.silent, { taken with child := .exited })
      | .error (text, next) =>
        some (.served command (.error text),
          taken.answer (.serving next) (.error text))
    else
      let (response, next) := adapter.perform env command
      some (.served command response, taken.answer (.serving next) response)
  | _, _ => none

/-- Answers still to come or still to be read. -/
def outstanding (process : SimulatorProcess Env Args Value) : ℕ :=
  (match process.child with
    | .starting _ => 1
    | _ => 0) +
  process.commandQueue.length + process.resultQueue.length

end SimulatorProcess

/-! ## The manager -/

namespace Operation

variable {adapter}

def command? (adapter : Adapter Env Args Value) :
    Operation Args → Option (Command Args)
  | .startSimulator => none
  | .call command _ => some command
  | .setAttribute args => some ⟨"__setattr__", args⟩
  | .snapshotState _ => some adapter.getState
  | .stopSimulator => some adapter.getState

def outcome : Operation Args → Response Value → Output Args Value
  | .startSimulator, .ready => .returned none
  | .startSimulator, response => .raised (.initializationFailed response)
  | .call _ _, .success data => .returned (some data)
  | .snapshotState _, .success data => .returned (some data)
  | .call _ _, .ready => .raised .noData
  | .snapshotState _, .ready => .raised .noData
  | .stopSimulator, _ => .returned none
  | _, .error text => .raised (.failed text)
  | .setAttribute _, _ => .returned none

def stored : Operation Args → Response Value → Option Value → Option Value
  | .snapshotState _, .success data, _ => some data
  | .stopSimulator, .success data, _ => some data
  | _, _, buffer => buffer

def coldStart : Operation Args → Response Value → Bool → Bool
  | .startSimulator, .ready, _ => true
  | .call command _, .success _, pending
  | .call command _, .ready, pending =>
    if command.method = "reset" then false else pending
  | _, _, pending => pending

def keepsProcess : Operation Args → Bool
  | .stopSimulator => false
  | _ => true

/-- The error of a wait that passes its deadline. -/
def expired (resultQueue : List (Response Value)) :
    Operation Args → Option (RpcError Value)
  | .startSimulator => some .initializationTimedOut
  | .call command (some _) => some (.timedOut command.method)
  | .call _ none => none
  | .setAttribute _ => none
  | .snapshotState _ => some (.timedOut "get_state")
  | .stopSimulator => if resultQueue = [] then some .empty else none

/-- The error of a wait that finds the child dead. -/
def exitNoticed : Operation Args → Option (RpcError Value)
  | .startSimulator => some .initializationExited
  | .call command _ => some (.exitedDuring command.method)
  | .snapshotState _ => some (.exitedDuring "get_state")
  | .setAttribute _ => none
  | .stopSimulator => none

end Operation

namespace EnvManager

def initial : EnvManager Env Args Value where
  process := none
  stateBuffer := none
  coldStartPending := false
  pending := none

variable (manager : EnvManager Env Args Value)

def commandQueue : List (Command Args) := match manager.process with
  | none => []
  | some process => process.commandQueue

def resultQueue : List (Response Value) := match manager.process with
  | none => []
  | some process => process.resultQueue

def outstanding : ℕ := match manager.process with
  | none => 0
  | some process => process.outstanding

def running : Option (SimulatorProcess Env Args Value) :=
  match manager.process with
  | none => none
  | some process => if process.isAlive then some process else none

def send (process : SimulatorProcess Env Args Value)
    (operation : Operation Args) (command : Command Args) :
    Output Args Value × EnvManager Env Args Value :=
  (.waiting, { manager with
      process := some (process.put command)
      pending := some operation })

def issue : Operation Args → Output Args Value × EnvManager Env Args Value
  | .startSimulator =>
    match manager.process with
    | some _ => (.returned none, manager)
    | none =>
      (.waiting, { manager with
          process := some (.fresh manager.stateBuffer)
          pending := some .startSimulator })
  | .call command timeout =>
    match manager.running with
    | none => (.raised .notRunning, manager)
    | some process =>
      match timeout with
      | none => manager.send process (.call command none) command
      | some limit =>
        if limit ≤ 0 then (.raised (.nonpositiveTimeout limit), manager)
        else manager.send process (.call command (some limit)) command
  | .setAttribute args =>
    match manager.running with
    | none => (.raised .notRunning, manager)
    | some process =>
      manager.send process (.setAttribute args) ⟨"__setattr__", args⟩
  | .snapshotState timeout =>
    match manager.running with
    | none => (.raised .notRunning, manager)
    | some process =>
      if timeout ≤ 0 then (.raised (.nonpositiveTimeout timeout), manager)
      else manager.send process (.snapshotState timeout) adapter.getState
  | .stopSimulator =>
    match manager.process with
    | none => (.returned none, manager)
    | some process => manager.send process .stopSimulator adapter.getState

def finish (process : SimulatorProcess Env Args Value)
    (operation : Operation Args) (response : Response Value)
    (rest : List (Response Value)) :
    Output Args Value × EnvManager Env Args Value :=
  (operation.outcome response,
    { process :=
        if operation.keepsProcess then
          some { process with resultQueue := rest }
        else none
      stateBuffer := operation.stored response manager.stateBuffer
      coldStartPending :=
        operation.coldStart response manager.coldStartPending
      pending := none })

def step : Label Args →
    Option (Output Args Value × EnvManager Env Args Value)
  | .issue operation =>
    match manager.pending with
    | some _ => none
    | none => some (manager.issue adapter operation)
  | .forceStop =>
    match manager.pending with
    | some _ => none
    | none => some (.returned none, { manager with process := none })
  | .childLaunch =>
    match manager.process.bind (·.launch adapter) with
    | none => none
    | some next => some (.silent, { manager with process := some next })
  | .childServe =>
    match manager.process.bind (·.serve adapter) with
    | none => none
    | some (output, next) =>
      some (output, { manager with process := some next })
  | .childExit =>
    match manager.process with
    | none => none
    | some process =>
      some (.silent,
        { manager with process := some { process with child := .exited } })
  | .receive =>
    match manager.pending, manager.process with
    | some operation, some process =>
      match process.resultQueue with
      | [] => none
      | response :: rest =>
        some (manager.finish process operation response rest)
    | _, _ => none
  | .expire =>
    match manager.pending with
    | none => none
    | some operation =>
      match operation.expired manager.resultQueue with
      | none => none
      | some error => some (.raised error, { manager with pending := none })
  | .noticeExit =>
    match manager.pending, manager.process with
    | some operation, some process =>
      if process.isAlive then none
      else
        match operation.exitNoticed with
        | none => none
        | some error =>
          some (.raised error, { manager with pending := none })
    | _, _ => none

end EnvManager

/-- A manager and its child processes. -/
def machine : Machine (EnvManager Env Args Value) (Label Args)
    (Output Args Value) where
  step manager label := manager.step adapter label

end SimulatorRpc
end VerlVla
