import VerlVla.RecorderFailures

/-!
# Recording an environment

A call of the environment makes calls of its recorder, one after the other.
The recorder is called directly or through its asynchronous wrapper.  A flag of
each environment says whether its episode has been saved.
-/

namespace VerlVla

open Transition
open BaseEnv (EnvConfig Mask)

/-- The arguments of `record_once`: the observation before the step, the
action, and what the step reports. -/
structure RecordedStep (O X A : Type) where
  observation : O
  extra : Option X
  action : A
  task : String
  nextReward : ℚ
  nextTerminated : Bool
  nextTruncated : Bool
  nextSuccess : Bool
  isIntervention : Bool
  criticValue : ℚ
  deriving DecidableEq

def RecordedStep.episodeDone {O X A : Type} (step : RecordedStep O X A) :
    Bool :=
  step.nextTerminated || step.nextTruncated

/-- A call that reaches the recorder.  `maskStep` and `resetDoneEnvs` are the
parts of a step that do. -/
inductive EnvCall (n : ℕ) (O X A : Type)
  | reset (mode : EnvMode) (options : BaseEnv.ResetOptions n)
  | maskStep (executeMask : Mask n) (steps : Fin n → RecordedStep O X A)
  | resetDoneEnvs (envIds : Mask n)
  | finishRollout
  | popCompletedDataset

/-- One iteration of the loops over the environments, or a single call. -/
inductive RecordingMove (n : ℕ) (O X A : Type)
  | setMode (mode : EnvMode)
  | resetEnv (envId : Fin n)
  | recordStep (envId : Fin n) (step : RecordedStep O X A)
  | finishEnv (envId : Fin n)
  | flush
  | popCompleted
  deriving DecidableEq

inductive RecordingInstr (n : ℕ) (O X A : Type)
  | call (call : RecorderCall (RecordedStep O X A))
  | episodeDone (envId : Fin n) (done : Bool)

section Calls

variable {n : ℕ} {O X A : Type}

/-- With auto-reset a reset that has an observation to return leaves the
environments alone, and an unfinished episode outlives a rollout. -/
def EnvCall.moves (config : EnvConfig) (observed : Bool) :
    EnvCall n O X A → List (RecordingMove n O X A)
  | .reset mode options =>
    .setMode mode ::
      (if config.autoReset && observed && !options.resetEval then []
      else options.envIds.map .resetEnv)
  | .maskStep executeMask steps =>
    executeMask.ids.map fun envId => .recordStep envId (steps envId)
  | .resetDoneEnvs envIds => envIds.ids.map .resetEnv
  | .finishRollout =>
    if config.autoReset then []
    else (List.finRange n).map .finishEnv ++ [.flush]
  | .popCompletedDataset => [.popCompleted]

/-- A step needs an observation; only auto-reset resets finished lanes. -/
def EnvCall.possible (config : EnvConfig) (observed : Bool) :
    EnvCall n O X A → Bool
  | .maskStep _ _ => observed
  | .resetDoneEnvs _ => observed && config.autoReset
  | _ => true

def EnvCall.observes : EnvCall n O X A → Bool
  | .reset _ _ => true
  | _ => false

def RecordingMove.instrs (episodeDone : Mask n) :
    RecordingMove n O X A → List (RecordingInstr n O X A)
  | .setMode mode => [.call (.setMode mode)]
  | .resetEnv envId => [.episodeDone envId false, .call (.clearEpisode envId)]
  | .recordStep envId step =>
    if episodeDone envId then []
    else .call (.recordOnce envId step) :: (if step.episodeDone then
        [.call (.saveEpisode envId), .episodeDone envId true]
      else [])
  | .finishEnv envId =>
    if episodeDone envId then []
    else [.call (.saveEpisode envId), .episodeDone envId true]
  | .flush => [.call .flush]
  | .popCompleted => [.call .popCompleted]

end Calls

/-! ## The environment and its recorder -/

structure RecordedEnv (n : ℕ) (O X A σ : Type) where
  observed : Bool
  episodeDone : Mask n
  moves : List (RecordingMove n O X A)
  instrs : List (RecordingInstr n O X A)
  current : Option (RecorderCall (RecordedStep O X A))
  recorder : σ

inductive RecordingLabel (n : ℕ) (O X A ι : Type)
  | call (call : EnvCall n O X A)
  | move
  | write
  | invoke
  | recorder (label : ι)

inductive RecordingEvent (n : ℕ) (O X A E D : Type)
  | made (call : EnvCall n O X A)
  | began (move : RecordingMove n O X A)
  | recorder (event : RecorderEvent (RecordedStep O X A) E (RecorderAnswer D))

structure CallableRecorder (F E P σ ι : Type) where
  machine : Machine σ ι (List (RecorderEvent F E P))
  call : RecorderCall F → ι
  isCall : ι → Bool

namespace RecordedEnv

variable {n : ℕ} {O X A σ ι E D : Type}

def start (recorder : σ) : RecordedEnv n O X A σ where
  observed := false
  episodeDone := BaseEnv.noEnvs
  moves := []
  instrs := []
  current := none
  recorder := recorder

/-- A call begins or ends.  A change of the mode clears the flags, and an
exception ends the call of the environment. -/
def absorb (state : RecordedEnv n O X A σ) :
    RecorderEvent (RecordedStep O X A) E (RecorderAnswer D) →
    RecordedEnv n O X A σ
  | .called call =>
    { state with current := some call, instrs := state.instrs.tail }
  | .applied _ _ => state
  | .returned _ (some (.changed true)) =>
    { state with current := none, episodeDone := BaseEnv.noEnvs }
  | .returned _ _ => { state with current := none }
  | .raised _ _ => { state with current := none, instrs := [], moves := [] }

variable (config : EnvConfig)
  (recorder : CallableRecorder (RecordedStep O X A) E (RecorderAnswer D) σ ι)
  (state : RecordedEnv n O X A σ)

def ready : Bool :=
  state.moves.isEmpty && state.instrs.isEmpty && state.current.isNone

def recorderStep (label : ι) :
    Option (List (RecordingEvent n O X A E D) × RecordedEnv n O X A σ) :=
  (recorder.machine.step state.recorder label).map fun result =>
    (result.1.map .recorder,
      result.1.foldl absorb { state with recorder := result.2 })

def step : RecordingLabel n O X A ι →
    Option (List (RecordingEvent n O X A E D) × RecordedEnv n O X A σ)
  | .call call =>
    if state.ready && call.possible config state.observed then
      some ([.made call], { state with
        moves := call.moves config state.observed
        observed := state.observed || call.observes })
    else none
  | .move =>
    match state.moves, state.instrs, state.current with
    | move :: moves, [], none =>
      some ([.began move], { state with
        moves := moves
        instrs := move.instrs state.episodeDone })
    | _, _, _ => none
  | .write =>
    match state.instrs, state.current with
    | .episodeDone envId done :: instrs, none =>
      some ([], { state with
        instrs := instrs
        episodeDone := Function.update state.episodeDone envId done })
    | _, _ => none
  | .invoke =>
    match state.instrs, state.current with
    | .call call :: _, none =>
      state.recorderStep recorder (recorder.call call)
    | _, _ => none
  | .recorder label =>
    if recorder.isCall label then none
    else state.recorderStep recorder label

end RecordedEnv

def recordingMachine {n : ℕ} {O X A σ ι E D : Type} (config : EnvConfig)
    (recorder :
      CallableRecorder (RecordedStep O X A) E (RecorderAnswer D) σ ι) :
    Machine (RecordedEnv n O X A σ) (RecordingLabel n O X A ι)
      (List (RecordingEvent n O X A E D)) where
  step state label := state.step config recorder label

section Callable

variable {R F E P : Type} (recorder : BaseRecorder R F E P)

def directRecorder :
    CallableRecorder F E P R (RecorderCall F) where
  machine :=
    { step := fun state call =>
        let applied := recorder.apply call state
        some ([.called call, .applied call applied.1,
          .ended call (applied.1.mapError .own)], applied.2) }
  call call := call
  isCall _ := true

def backgroundRecorder (queueSize : ℕ) :
    CallableRecorder F E P (AsyncRecorder R F E P) (AsyncLabel F) where
  machine := asyncRecorder recorder queueSize
  call := .call
  isCall := AsyncLabel.isCall

end Callable

end VerlVla
