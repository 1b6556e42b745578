import Mathlib
import VerlVla.Checks
import VerlVla.PosixPaths
import VerlVla.StepDirectories
import VerlVla.TransitionRun

/-!
# Checkpoints of a cluster

A save writes the actor, the extra state and last the marker of the latest
step.  A process may die anywhere in a save, and in the marker after any part
of its text.  A load follows the marker, or a given path, and reads the step
back from the path.
-/

namespace VerlVla

inductive ResumeMode
  | auto
  | disable
  | resumePath
  deriving DecidableEq

structure CheckpointConfig where
  resumeMode : ResumeMode
  resumeFromPath : Option (List Char)
  defaultHdfsDir : Option (List Char)
  defaultLocalDir : List Char
  asyncSave : Bool
  workingDir : PosixPath

inductive CheckpointError
  | hdfsNotImplemented
  | resumePathNotText
  | resumePathWithoutStep
  | directoryWithoutStep (directory : List Char)
  | markerNotInteger (text : List Char)
  | actorNotLoaded (directory : List Char)
  deriving DecidableEq

namespace CheckpointConfig

variable (config : CheckpointConfig)

/-- The directory of checkpoints as the latest one is looked for. -/
def absoluteLocalDir : List Char :=
  (config.workingDir.join (.parse config.defaultLocalDir)).text

def stepDir (step : ℕ) : List Char :=
  joinText config.absoluteLocalDir (stepName step)

def beforeStep : List Char :=
  if config.absoluteLocalDir.getLast? = some '/' then config.absoluteLocalDir
  else config.absoluteLocalDir ++ ['/']

def resolvedPath (path : List Char) : List Char :=
  if (PosixPath.parse path).isAbsolute then path
  else (config.workingDir.join (.parse path)).text

variable (digits : DecimalDigits)

def findResumeCheckpointDir
    (findLatest : Except CheckpointError (Option (List Char))) :
    Except CheckpointError (Option (List Char)) :=
  match config.resumeMode with
  | .disable => .ok none
  | .auto => do
    require (config.defaultHdfsDir = none) .hdfsNotImplemented
    let directory ← findLatest
    return directory.map config.resolvedPath
  | .resumePath => do
    require (config.defaultHdfsDir = none) .hdfsNotImplemented
    match config.resumeFromPath with
    | none => .error .resumePathNotText
    | some path => do
      require (stepPattern <:+: path) .resumePathWithoutStep
      return some (config.resolvedPath path)

def parseGlobalStep (directory : List Char) : Except CheckpointError ℕ :=
  match firstStep digits directory with
  | some step => .ok step
  | none => .error (.directoryWithoutStep directory)

def load (findLatest : Except CheckpointError (Option (List Char)))
    (loadActor : List Char → Except CheckpointError Unit) :
    Except CheckpointError (Option (ℕ × List Char)) := do
  match ← config.findResumeCheckpointDir findLatest with
  | none => return none
  | some directory =>
    let step ← parseGlobalStep digits directory
    loadActor directory
    return some (step, directory)

end CheckpointConfig

/-! ## The disk -/

structure CheckpointDisk where
  directories : List ℕ
  actors : List ℕ
  extras : List ℕ
  marker : Option (List Char)

namespace CheckpointDisk

def empty : CheckpointDisk := ⟨[], [], [], none⟩

/-- The directory that the marker names, if it is there. -/
def findLatest (config : CheckpointConfig) (disk : CheckpointDisk) :
    Except CheckpointError (Option (List Char)) :=
  match disk.marker with
  | none => .ok none
  | some [] => .error (.markerNotInteger [])
  | some text =>
    let step := Nat.ofDigitChars 10 text 0
    .ok (if step ∈ disk.directories then some (config.stepDir step) else none)

def loadActor (config : CheckpointConfig) (disk : CheckpointDisk)
    (directory : List Char) : Except CheckpointError Unit :=
  require (∃ step ∈ disk.actors, config.stepDir step = directory)
    (.actorNotLoaded directory)

/-- Workers write an actor, over an earlier one of the same step, and keep only
some of the older ones. -/
def writeActor (step : ℕ) (complete : Bool) (removed : List ℕ)
    (disk : CheckpointDisk) : CheckpointDisk where
  directories := step :: disk.directories
  actors := let kept := disk.actors.filter fun other =>
      other ≠ step && other ∉ removed
    if complete then step :: kept else kept
  extras := disk.extras
  marker := disk.marker

def writeExtra (step : ℕ) (complete : Bool) (disk : CheckpointDisk) :
    CheckpointDisk :=
  let kept := disk.extras.filter (· ≠ step)
  { disk with extras := if complete then step :: kept else kept }

def writeMarker (text : List Char) (disk : CheckpointDisk) : CheckpointDisk :=
  { disk with marker := some text }

end CheckpointDisk

/-! ## Saves that may stop -/

inductive SaveStop
  | beforeActor
  | inActor
  | afterActor
  | inExtra
  | afterExtra
  | inMarker (written : ℕ)
  deriving DecidableEq

structure SaveCall where
  step : ℕ
  extra : Bool
  removed : List ℕ
  stop : Option SaveStop

def saveExtra (call : SaveCall) (disk : CheckpointDisk) : CheckpointDisk :=
  if call.extra then
    if call.stop = some .inExtra then disk.writeExtra call.step false
    else disk.writeExtra call.step true
  else disk

def saveCheckpoint (config : CheckpointConfig) (call : SaveCall)
    (disk : CheckpointDisk) : CheckpointDisk :=
  let text := Nat.toDigits 10 call.step
  let written := disk.writeActor call.step true call.removed
  match call.stop with
  | some .beforeActor => disk
  | some .inActor => disk.writeActor call.step false call.removed
  | some .afterActor => written
  | some .inExtra | some .afterExtra => saveExtra call written
  | some (.inMarker count) =>
    if config.asyncSave then saveExtra call written
    else (saveExtra call written).writeMarker (text.take count)
  | none =>
    if config.asyncSave then saveExtra call written
    else (saveExtra call written).writeMarker text

structure CheckpointState where
  disk : CheckpointDisk
  saved : List ℕ

inductive CheckpointCall
  | save (call : SaveCall)
  | load

def checkpoints (digits : DecimalDigits) (config : CheckpointConfig) :
    Transition.Machine CheckpointState CheckpointCall
      (Option (Except CheckpointError (Option (ℕ × List Char)))) where
  step state
    | .save call => some (none, {
        disk := saveCheckpoint config call state.disk
        saved := if call.stop = none then state.saved ++ [call.step]
          else state.saved })
    | .load => some (some (config.load digits (state.disk.findLatest config)
        (state.disk.loadActor config)), state)

end VerlVla
