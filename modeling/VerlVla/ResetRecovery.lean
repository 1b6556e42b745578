import VerlVla.CaseStream
import VerlVla.SimulatorRpc

/-!
# Reset recovery

A reset that times out is repeated in a new simulator process.  The new process
starts from the saved state, and the state is saved after every completed reset,
so a timeout leaves neither the cases returned nor the saved cursors changed.
-/

namespace VerlVla
namespace SimulatorRpc

open Transition

/-! ## The recovery loop -/

/-- The control points of `_reset_simulator_with_recovery`, and of a step. -/
inductive RecoveryPhase (Args Value : Type)
  | idle
  | resetting (options : Args) (processRestarts : ℕ)
  | snapshotting (options : Args) (processRestarts : ℕ) (result : Value)
  | restarting (options : Args) (processRestarts : ℕ)
  | stepping

def RecoveryPhase.options? {Args Value : Type} :
    RecoveryPhase Args Value → Option Args
  | .idle => none
  | .resetting options _ => some options
  | .snapshotting options _ _ => some options
  | .restarting options _ => some options
  | .stepping => none

structure RecoveryState (Env Args Value : Type) where
  manager : EnvManager Env Args Value
  phase : RecoveryPhase Args Value

structure RecoveryPolicy where
  timeout : ℚ
  maxProcessRestarts : ℕ
  timeout_pos : 0 < timeout

inductive RecoveryLabel (Args : Type)
  | reset (options : Args)
  | step (action : Args)
  | launch
  | serve
  | receive
  | expire
  deriving DecidableEq

inductive RecoveryOutput (Value : Type)
  | silent
  | returned (result : Value) (processRestarts : ℕ)
  | stepped (value : Option Value)
  | raised (error : RpcError Value)

namespace RecoveryState

variable {Env Args Value : Type} (adapter : Adapter Env Args Value)
  (policy : RecoveryPolicy)

/-- Issue an operation; unless it answers at once the loop waits for it. -/
def enter (manager : EnvManager Env Args Value) (operation : Operation Args)
    (phase : RecoveryPhase Args Value) :
    RecoveryOutput Value × RecoveryState Env Args Value :=
  match manager.issue adapter operation with
  | (.raised error, next) => (.raised error, ⟨next, .idle⟩)
  | (.returned value, next) => (.stepped value, ⟨next, .idle⟩)
  | (_, next) => (.silent, ⟨next, phase⟩)

def callReset (manager : EnvManager Env Args Value) (options : Args)
    (processRestarts : ℕ) :
    RecoveryOutput Value × RecoveryState Env Args Value :=
  enter adapter manager (.call ⟨"reset", options⟩ (some policy.timeout))
    (.resetting options processRestarts)

def snapshot (manager : EnvManager Env Args Value) (options : Args)
    (processRestarts : ℕ) (result : Value) :
    RecoveryOutput Value × RecoveryState Env Args Value :=
  enter adapter manager (.snapshotState (min policy.timeout 30))
    (.snapshotting options processRestarts result)

/-- Give up, or replace the process and count the restart. -/
def recover (manager : EnvManager Env Args Value) (options : Args)
    (processRestarts : ℕ) (error : RpcError Value) :
    RecoveryOutput Value × RecoveryState Env Args Value :=
  if policy.maxProcessRestarts ≤ processRestarts then
    (.raised error, ⟨manager, .idle⟩)
  else
    enter adapter { manager with process := none } .startSimulator
      (.restarting options (processRestarts + 1))

def step (state : RecoveryState Env Args Value) : RecoveryLabel Args →
    Option (RecoveryOutput Value × RecoveryState Env Args Value)
  | .reset options =>
    match state.phase with
    | .idle => some (callReset adapter policy state.manager options 0)
    | _ => none
  | .step action =>
    match state.phase with
    | .idle =>
      some (enter adapter state.manager (.call ⟨"step", action⟩ none)
        .stepping)
    | _ => none
  | .launch =>
    match state.manager.step adapter .childLaunch with
    | none => none
    | some (_, next) => some (.silent, { state with manager := next })
  | .serve =>
    match state.manager.step adapter .childServe with
    | none => none
    | some (_, next) => some (.silent, { state with manager := next })
  | .receive =>
    match state.manager.step adapter .receive, state.phase with
    | some (.returned (some result), next), .resetting options restarts =>
      some (snapshot adapter policy next options restarts result)
    | some (.returned _, next), .snapshotting _ restarts result =>
      some (.returned result restarts, ⟨next, .idle⟩)
    | some (.returned _, next), .restarting options restarts =>
      some (callReset adapter policy next options restarts)
    | some (.returned value, next), .stepping =>
      some (.stepped value, ⟨next, .idle⟩)
    | some (.raised error, next), _ => some (.raised error, ⟨next, .idle⟩)
    | _, _ => none
  | .expire =>
    match state.manager.step adapter .expire, state.phase with
    | some (.raised error, next), .resetting options restarts =>
      some (recover adapter policy next options restarts error)
    | some (.raised error, next), .snapshotting options restarts _ =>
      some (recover adapter policy next options restarts error)
    | some (.raised error, next), _ => some (.raised error, ⟨next, .idle⟩)
    | _, _ => none

end RecoveryState

/-- A caller that resets and steps one simulator. -/
def recovery {Env Args Value : Type} (adapter : Adapter Env Args Value)
    (policy : RecoveryPolicy) :
    Machine (RecoveryState Env Args Value) (RecoveryLabel Args)
      (RecoveryOutput Value) where
  step state label := state.step adapter policy label

end SimulatorRpc

/-! ## The RoboDojo environment as an adapter -/

structure ResetOptions where
  mode : ResetMode
  resetEval : Bool
  deriving DecidableEq

/-- The results of the calls that concern the case schedule. -/
inductive RoboDojoValue
  | none
  | cases (selected : List SelectedCase)
  | cursors (saved : CaseCursors)
  deriving DecidableEq

open SimulatorRpc Transition

section RoboDojo

variable {topology : EnvTopology} (config : RoboDojoConfig) (slot : EnvSlot)

def resetWith (state : CaseState topology) (options : Option ResetOptions) :
    List SelectedCase × CaseState topology :=
  let options := options.getD ⟨.train, false⟩
  state.envReset config slot options.mode options.resetEval

/-- `step` moves no cursor, since the environment does not reset itself. -/
def roboDojoAdapter :
    Adapter (CaseState topology) (Option ResetOptions) RoboDojoValue where
  construct := .ok (CaseState.initial config)
  loadState state saved := match saved with
    | .cursors cursors => .ok (state.loadState cursors)
    | _ => .error "state has no cursors"
  truthy saved := match saved with
    | .none => false
    | _ => true
  getattr state name := if name = "reset" then
      .method fun options =>
        let (selected, next) := resetWith config slot state options
        (.ok (.cases selected), next)
    else if name = "get_state" then
      .method fun _ => (.ok (.cursors state.getState), state)
    else if name = "step" then .method fun _ => (.ok .none, state)
    else .missing
  setattr state _ := (.ok (), state)
  close _ := .ok ()
  noArgs := none
  noValue := .none

abbrev RoboDojoState (topology : EnvTopology) :=
  RecoveryState (CaseState topology) (Option ResetOptions) RoboDojoValue

abbrev RoboDojoEvent (topology : EnvTopology) :=
  Event (RoboDojoState topology) (RecoveryLabel (Option ResetOptions))
    (RecoveryOutput RoboDojoValue)

def launchedState (saved : Option CaseCursors) : CaseState topology :=
  match saved with
  | none => CaseState.initial config
  | some cursors => (CaseState.initial config).loadState cursors

def startedSimulator (saved : Option CaseCursors) : RoboDojoState topology where
  manager :=
    { process := some ⟨.serving (launchedState config saved), [], []⟩
      stateBuffer := saved.map .cursors
      coldStartPending := true
      pending := none }
  phase := .idle

def requestOf : RecoveryLabel (Option ResetOptions) →
    Option (Option ResetOptions)
  | .reset options => some options
  | _ => none

def requests (events : List (RoboDojoEvent topology)) :
    List (Option ResetOptions) :=
  events.filterMap fun event => requestOf event.label

def boundaryOf (event : RoboDojoEvent topology) :
    Option (RoboDojoValue × Option RoboDojoValue) :=
  match event.output with
  | .returned result _ => some (result, event.after.manager.stateBuffer)
  | _ => none

def boundaries (events : List (RoboDojoEvent topology)) :
    List (RoboDojoValue × Option RoboDojoValue) :=
  events.filterMap boundaryOf

/-- Timeouts strike resets and snapshots only, and no reset more often than it
may restart the process. -/
def TimeoutAllowed (policy : RecoveryPolicy) (state : RoboDojoState topology)
    (label : RecoveryLabel (Option ResetOptions)) : Prop :=
  match label, state.phase with
  | .expire, .resetting _ restarts => restarts < policy.maxProcessRestarts
  | .expire, .snapshotting _ restarts _ =>
    restarts < policy.maxProcessRestarts
  | .expire, .restarting _ _ => False
  | _, _ => True

instance (policy : RecoveryPolicy) (state : RoboDojoState topology)
    (label : RecoveryLabel (Option ResetOptions)) :
    Decidable (TimeoutAllowed policy state label) := by
  unfold TimeoutAllowed
  split <;> infer_instance

end RoboDojo

end VerlVla
