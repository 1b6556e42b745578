import Mathlib.Logic.Function.Basic
import VerlVla.CheckpointHelper
import VerlVla.CollectionSpec
import VerlVla.TransitionLog

/-!
# Training a closed window

Trainers of one window serialize on a lock, start from the policy that
collected the window, save a checkpoint and publish a receipt.  The name of the
lock depends on how the receipt is spelled.  A process may die between any two
steps, and its lock is then free.
-/

namespace VerlVla

open CollectionStore (CollectionWindowSpec)

/-- The receipt of the window, left out or named by its path. -/
inductive ReceiptArgument
  | implicit
  | explicit
  deriving DecidableEq

def ReceiptArgument.lockName : ReceiptArgument → String
  | .implicit => ".training.lock"
  | .explicit => ".TRAINED.json.lock"

structure TrainingReceipt where
  rolloutPolicyVersion : ℤ
  newPolicyVersion : ℕ
  checkpointDir : List Char
  deriving DecidableEq

inductive DirectoryContents (P : Type)
  | absent
  | incomplete
  | complete (policy : P)

structure TrainingFiles (P : Type) where
  disk : List Char → DirectoryContents P
  marker : Option (List Char)
  receipt : Option TrainingReceipt

inductive FitError
  | wrongUpdate
  | checkpoint (error : CheckpointError)
  | thetaZeroFromCheckpoint
  | nothingLoaded
  | wrongStep (loaded : ℕ)
  | wrongPath (loaded : List Char)
  | receiptExists

/-- Where a trainer stands that holds its lock. -/
inductive FitWork (P : Type)
  | opened
  | starting
  | loaded (policy : P)
  | trained (policy : P)
  | saving (policy : P)
  | actorSaved (policy : P)
  | marking (policy : P)
  | saved (policy : P)
  | publishing (policy : P)
  | published (receipt : TrainingReceipt)

inductive FitPhase (P : Type)
  | idle
  | waiting (argument : ReceiptArgument)
  | holding (argument : ReceiptArgument) (work : FitWork P)
  | returned (receipt : TrainingReceipt)
  | raised (error : FitError)
  | dead

structure TrainingState (P : Type) where
  files : TrainingFiles P
  locks : String → Option ℕ
  phases : ℕ → FitPhase P

def TrainingState.initial {P : Type} (files : TrainingFiles P) :
    TrainingState P :=
  ⟨files, fun _ => none, fun _ => .idle⟩

inductive TrainingEntry (P : Type)
  | updated (process : ℕ) (policy : P)
  | published (process : ℕ) (receipt : TrainingReceipt)

/-- A window, the checkpoints of its trainers and the update that a process
makes of a policy. -/
structure TrainingWindow (P : Type) where
  spec : CollectionWindowSpec
  base : CheckpointConfig
  digits : DecimalDigits
  native : P
  update : ℕ → P → P

namespace TrainingWindow

variable {P : Type} (window : TrainingWindow P)

def collectedPath : Option (List Char) :=
  window.spec.policy.trainerCheckpointPath.map String.toList

def config : CheckpointConfig := { window.base with
    resumeMode := if window.collectedPath = none then .disable else .resumePath
    resumeFromPath := window.collectedPath }

def newDir : List Char := window.config.stepDir window.spec.intendedUpdate

def loadActor (files : TrainingFiles P) (directory : List Char) :
    Except CheckpointError Unit :=
  match files.disk directory with
  | .complete _ => .ok ()
  | _ => .error (.actorNotLoaded directory)

def policyAt (files : TrainingFiles P) (directory : List Char) :
    Except FitError P :=
  match files.disk directory with
  | .complete policy => .ok policy
  | _ => .error (.checkpoint (.actorNotLoaded directory))

def loadThetaOld (files : TrainingFiles P) : Except FitError P := do
  let loaded ← (window.config.load window.digits (.ok none)
    (loadActor files)).mapError .checkpoint
  match window.collectedPath, loaded with
  | none, some _ => .error .thetaZeroFromCheckpoint
  | none, none => do
    require (window.spec.policy.rolloutPolicyVersion = 0)
      .thetaZeroFromCheckpoint
    return window.native
  | some _, none => .error .nothingLoaded
  | some path, some (step, directory) => do
    require ((step : ℤ) = window.spec.policy.rolloutPolicyVersion)
      (.wrongStep step)
    require (window.config.resolvedPath directory =
      window.config.resolvedPath path) (.wrongPath directory)
    policyAt files directory

def receipt : TrainingReceipt where
  rolloutPolicyVersion := window.spec.policy.rolloutPolicyVersion
  newPolicyVersion := window.spec.intendedUpdate
  checkpointDir := window.newDir

def writeNewDir (files : TrainingFiles P) (contents : DirectoryContents P) :
    TrainingFiles P :=
  { files with disk := Function.update files.disk window.newDir contents }

/-- The next step of a trainer that holds its lock. -/
def advance (process : ℕ) (files : TrainingFiles P) :
    FitWork P → List (TrainingEntry P) × TrainingFiles P ×
      (FitWork P ⊕ FitPhase P)
  | .opened =>
    match files.receipt with
    | some receipt => ([], files, .inr (.returned receipt))
    | none => ([], files, .inl .starting)
  | .starting =>
    match window.loadThetaOld files with
    | .ok policy => ([], files, .inl (.loaded policy))
    | .error error => ([], files, .inr (.raised error))
  | .loaded policy =>
    ([.updated process policy], files,
      .inl (.trained (window.update process policy)))
  | .trained policy =>
    ([], window.writeNewDir files .incomplete, .inl (.saving policy))
  | .saving policy =>
    ([], window.writeNewDir files (.complete policy),
      .inl (.actorSaved policy))
  | .actorSaved policy =>
    ([], { files with marker := some [] }, .inl (.marking policy))
  | .marking policy =>
    let text := Nat.toDigits 10 window.spec.intendedUpdate
    ([], { files with marker := some text }, .inl (.saved policy))
  | .saved policy =>
    match files.receipt with
    | some _ => ([], files, .inr (.raised .receiptExists))
    | none => ([], files, .inl (.publishing policy))
  | .publishing _ =>
    ([.published process window.receipt],
      { files with receipt := some window.receipt },
      .inl (.published window.receipt))
  | .published receipt => ([], files, .inr (.returned receipt))

inductive FitAction
  | begin (argument : ReceiptArgument)
  | acquire
  | advance
  | crash
  deriving DecidableEq

def fitOneUpdate : Transition.Machine (TrainingState P) (ℕ × FitAction)
    (List (TrainingEntry P)) where
  step state
    | (process, action) =>
      match action, state.phases process with
      | .begin argument, .idle =>
        let phase : FitPhase P := if (window.spec.intendedUpdate : ℤ) =
              window.spec.policy.rolloutPolicyVersion + 1
          then .waiting argument else .raised .wrongUpdate
        some ([], { state with
          phases := Function.update state.phases process phase })
      | .acquire, .waiting argument =>
        if state.locks argument.lockName = none then
          some ([], { state with
            locks := Function.update state.locks argument.lockName <|
              some process
            phases := Function.update state.phases process
              (.holding argument .opened) })
        else none
      | .advance, .holding argument work =>
        match window.advance process state.files work with
        | (entries, files, .inl next) =>
          some (entries, { state with
            files := files
            phases := Function.update state.phases process
              (.holding argument next) })
        | (entries, files, .inr phase) =>
          some (entries, {
            files := files
            locks := Function.update state.locks argument.lockName none
            phases := Function.update state.phases process phase })
      | .crash, .waiting _ =>
        some ([], { state with
          phases := Function.update state.phases process .dead })
      | .crash, .holding argument _ =>
        some ([], { state with
          locks := Function.update state.locks argument.lockName none
          phases := Function.update state.phases process .dead })
      | _, _ => none

end TrainingWindow

end VerlVla
