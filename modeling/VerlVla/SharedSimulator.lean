import VerlVla.ReturnedEpisodes
import VerlVla.TrainingLanes

/-!
# A simulator for training and evaluation

One process serves both modes, and the caller names the mode with every reset.
With auto-reset on, the last observation answers a reset that does not begin
an evaluation.  Without it every reset reaches the environments, and an
environment whose episode is over waits for the next one.
-/

namespace VerlVla

open BaseEnv (Report)

/-- One environment: its next policy step, whether its episode is over, the
policy steps whose frames the recorder holds, and whether it has saved them. -/
structure BoundaryLane where
  position : LanePosition
  settled : Bool
  frames : List LanePosition
  saved : Bool

/-- What a lane does in a window: its slots, the policy steps it executes, the
episodes that are recorded, and the lane after it. -/
structure LaneWindow where
  slots : Episode (Option LanePosition)
  steps : List LanePosition
  recorded : List (List LanePosition)
  lane : BoundaryLane

namespace BoundaryLane

def initial (lane : ℕ) : BoundaryLane where
  position := ⟨lane, 0, 0⟩
  settled := false
  frames := []
  saved := false

def clearEpisode (lane : BoundaryLane) : BoundaryLane := { lane with
    frames := []
    saved := false }

def envReset (lane : BoundaryLane) : BoundaryLane := { lane.clearEpisode with
    position := lane.position.reset
    settled := false }

/-- The frames of a policy step.  A done step saves the episode. -/
def record (done : Bool) (lane : BoundaryLane) :
    List (List LanePosition) × BoundaryLane :=
  if lane.saved then ([], lane)
  else
    let frames := lane.frames ++ [lane.position]
    if done then
      ([frames], { lane with
          frames := []
          saved := true })
    else ([], { lane with frames := frames })

def finishStep (autoReset : Bool) (answer : StepAnswer) (lane : BoundaryLane) :
    BoundaryLane :=
  if autoReset then
    if answer.done || answer.restartEpisode then lane.envReset
    else { lane with position := lane.position.next }
  else
    { lane with
      position := lane.position.next
      settled := answer.done }

/-- An episode that is over reports nothing in its slots. -/
def run (autoReset : Bool) (lane : BoundaryLane) : List StepAnswer → LaneWindow
  | [] =>
    { slots := []
      steps := []
      recorded := []
      lane := lane }
  | answer :: rest =>
    if lane.settled then
      let window := run autoReset lane rest
      { window with
        slots := ⟨answer.substeps.map fun _ => Report.nothing, none⟩ ::
          window.slots }
    else
      let recorded := lane.record answer.done
      let window := run autoReset (recorded.2.finishStep autoReset answer) rest
      { slots := ⟨answer.substeps, some lane.position⟩ :: window.slots
        steps := lane.position :: window.steps
        recorded := recorded.1 ++ window.recorded
        lane := window.lane }

def finishRollout (autoReset : Bool) (lane : BoundaryLane) :
    List (List LanePosition) × BoundaryLane :=
  if autoReset || lane.saved then ([], lane)
  else
    (if lane.frames = [] then [] else [lane.frames], { lane with
        frames := []
        saved := true })

end BoundaryLane

/-- A reset: the mode of the reset before it, its own mode, and whether it has
reset the environments. -/
structure ResetCall where
  previous : Option EnvMode
  mode : EnvMode
  executed : Bool

/-- The environments of a process, with all that was recorded, every policy
step with the mode it was taken in, and every reset. -/
structure SharedEnv (n : ℕ) where
  lanes : Fin n → BoundaryLane
  latestObs : Bool
  previous : Option EnvMode
  recorderMode : EnvMode
  recorded : List (List LanePosition)
  steps : List (LanePosition × EnvMode)
  resets : List ResetCall

namespace SharedEnv

variable {n : ℕ}

def initial (n : ℕ) : SharedEnv n where
  lanes e := .initial e
  latestObs := false
  previous := none
  recorderMode := .train
  recorded := []
  steps := []
  resets := []

/-- The recorder drops its frames when the mode changes. -/
def setMode (env : SharedEnv n) (mode : EnvMode) (lane : BoundaryLane) : BoundaryLane :=
  if mode = env.recorderMode then lane else lane.clearEpisode

def servesCached (autoReset resetEval : Bool) (env : SharedEnv n) : Bool :=
  autoReset && env.latestObs && !resetEval

def reset (autoReset : Bool) (mode : EnvMode) (resetEval : Bool)
    (env : SharedEnv n) : SharedEnv n :=
  let cached := env.servesCached autoReset resetEval
  { env with
    lanes := fun e =>
      let lane := { env.setMode mode (env.lanes e) with settled := false }
      if cached then lane else lane.envReset
    latestObs := true
    previous := some mode
    recorderMode := mode
    resets := env.resets ++ [⟨env.previous, mode, !cached⟩] }

def run (autoReset : Bool) (mode : EnvMode) (answer : SimAnswer)
    (env : SharedEnv n) :
    List (Episode (Option LanePosition)) × SharedEnv n :=
  let window := fun e => (env.lanes e).run autoReset (answer.getD e [])
  let finished := fun e => (window e).lane.finishRollout autoReset
  (List.ofFn fun e => (window e).slots, { env with
      lanes := fun e => (finished e).2
      recorded := env.recorded ++
        (List.ofFn fun e => (window e).recorded ++ (finished e).1).flatten
      steps := env.steps ++
        (List.ofFn fun e => (window e).steps.map fun step =>
          (step, mode)).flatten })

/-- A new process knows of no reset and has a new recorder. -/
def restart (env : SharedEnv n) : SharedEnv n := { env with
    lanes := fun e => { (env.lanes e).clearEpisode with settled := false }
    latestObs := false
    previous := none
    recorderMode := .train }

end SharedEnv

def sharedWorld (n : ℕ) (autoReset : Bool)
    (records : List (Episode (Option LanePosition)) → CarryState → CarryState)
    (datasets : List (Episode (Option LanePosition)) → Bool) :
    ClusterWorld (SharedEnv n) Unit (List (Episode (Option LanePosition)))
      SimAnswer where
  resetEnv mode resetEval env := ((), env.reset autoReset mode resetEval)
  generateSequences mode _ _ answer env := env.run autoReset mode answer
  restartSimulators := SharedEnv.restart
  collectRecords := records
  collectDatasets := datasets

/-! ## The segments of trajectory records -/

section Records

variable {D R : Type}

/-- A segment is closed by a done step, and kept or dropped. -/
def segmentStep (keep : Episode D → Bool)
    (state : Episode D × List (Episode D)) (step : RolloutStep D) :
    Episode D × List (Episode D) :=
  let segment := state.1 ++ [step]
  if step.done then
    ([], if keep segment then state.2 ++ [segment] else state.2)
  else (segment, state.2)

theorem ingestStep_eq :
    (EpisodeBuffer.ingestStep : Episode D × List (Episode D) → _) =
      segmentStep fun segment => decide (1 < segment.length) := by
  funext state step
  simp only [EpisodeBuffer.ingestStep, segmentStep, decide_eq_true_eq]

/-- The open segment of a lane and the segments it has records of.  Without
auto-reset a rollout has one record of each lane, up to its first end. -/
def recordLane (autoReset : Bool) (segment steps : Episode D) :
    Episode D × List (Episode D) :=
  if autoReset then steps.foldl (segmentStep fun _ => true) (segment, [])
  else
    match steps.findIdx? RolloutStep.done with
    | some doneIdx => (segment, [steps.take (doneIdx + 1)])
    | none => (segment, [steps])

/-- The segments that the carry stands for, and those of the records. -/
structure RecordState (D : Type) where
  segments : Option (List (Episode D))
  records : List (Episode D)

namespace RecordState

def initial : RecordState D where
  segments := none
  records := []

def collect (autoReset : Bool) (state : RecordState D)
    (window : List (Episode D)) : RecordState D :=
  let collected := List.zipWith (recordLane autoReset)
    (state.segments.getD (window.map fun _ => [])) window
  { segments := if autoReset then some (collected.map Prod.fst)
      else state.segments
    records := state.records ++ (collected.map Prod.snd).flatten }

/-- Records are collected when a rollout has run, and an evaluation ends the
carried segments. -/
def follow (autoReset : Bool) (state : RecordState D) :
    ClusterEvent R (List (Episode D)) → RecordState D
  | .finished _ window _ => state.collect autoReset window
  | .returnedSync window => state.collect autoReset window
  | .evaluated _ => { state with segments := none }
  | _ => state

theorem follow_still {state : RecordState D}
    {entry : ClusterEvent R (List (Episode D))} (hstill : entry.still = true) :
    state.follow autoReset entry = state := by
  cases entry with
  | launched | weightsUpdated | trained | raised => rfl
  | finished | evaluated | returned | returnedSync => cases hstill

def segment (state : RecordState D) (lane : ℕ) : Episode D :=
  (state.segments.getD []).getD lane []

end RecordState

def recordsAfter (autoReset : Bool)
    (entries : List (ClusterEvent R (List (Episode D)))) : RecordState D :=
  entries.foldl (RecordState.follow autoReset) .initial

@[simp] theorem recordsAfter_append (entry : ClusterEvent R (List (Episode D))) :
    recordsAfter autoReset (entries ++ [entry]) =
      (recordsAfter autoReset entries).follow autoReset entry := by
  rw [recordsAfter, List.foldl_append]
  rfl

end Records

section Lengths

end Lengths

end VerlVla
