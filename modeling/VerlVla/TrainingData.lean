import VerlVla.RecordingRuns

/-!
# Evaluation data and training data

What a pop returns are the training episodes, as long as no episode is
completed in an evaluation.  The recorder keeps one dataset for both modes: an
episode that an evaluation completes is returned by the next pop.
-/

namespace VerlVla

open Transition
open BaseEnv (EnvConfig)

variable {n : ℕ} {O X A D I : Type}

/-- A run of an environment with a recorder that it calls directly, or through
a queue. -/
inductive RecordedRun (config : EnvConfig) (makeFrame : RecordedStep O X A → D)
    (panel : RecordedStep O X A → Option I) (video : Bool) :
    List (RecordingEvent n O X A (RecorderError Empty) D) → Prop
  | direct {events : List (Event (RecordedEnv n O X A (MultiRecorder D I))
        (RecordingLabel n O X A (RecorderCall (RecordedStep O X A)))
        (List (RecordingEvent n O X A (RecorderError Empty) D)))}
      {final : RecordedEnv n O X A (MultiRecorder D I)}
      (hrun : Run (recordingMachine config
        (directRecorder (frameRecorder n makeFrame panel)))
        (.start (.create video)) events final) :
      RecordedRun config makeFrame panel video (log events)
  | background {queueSize : ℕ} (hsize : 1 ≤ queueSize)
      {events : List (Event (RecordedEnv n O X A (AsyncRecorder
          (MultiRecorder D I) (RecordedStep O X A) (RecorderError Empty)
          (RecorderAnswer D)))
        (RecordingLabel n O X A (AsyncLabel (RecordedStep O X A)))
        (List (RecordingEvent n O X A (RecorderError Empty) D)))}
      {final : RecordedEnv n O X A (AsyncRecorder (MultiRecorder D I)
        (RecordedStep O X A) (RecorderError Empty) (RecorderAnswer D))}
      (hrun : Run (recordingMachine config
        (backgroundRecorder (frameRecorder n makeFrame panel) queueSize))
        (.start (.start (.create video))) events final) :
      RecordedRun config makeFrame panel video (log events)

/-- Every pop returns the training episodes completed since the pop before it,
each once, with its frames in order.  Their frames were recorded in training,
in one environment. -/
structure CollectsTraining (makeFrame : RecordedStep O X A → D)
    (entries : List (RecordingEvent n O X A (RecorderError Empty) D)) :
    Prop where
  pops : Lawful (trainingLaw makeFrame) entries
  frames : ∀ moves : List (RecordingMove n O X A),
    ∀ episode ∈ (CollectedEpisodes.after makeFrame moves).completed,
      ∀ frame ∈ episode.frames,
        frame.envId = episode.envId ∧ frame.mode = episode.mode

theorem popped_data_is_training {config : EnvConfig}
    {makeFrame : RecordedStep O X A → D}
    {panel : RecordedStep O X A → Option I} {video : Bool}
    {entries : List (RecordingEvent n O X A (RecorderError Empty) D)}
    (hrun : RecordedRun config makeFrame panel video entries)
    (hallowed : Allowed makeFrame entries) :
    CollectsTraining makeFrame entries := by
  constructor
  · cases hrun with
    | direct hrun =>
        have hrecording := recording_run
          (directRecorder_serves (frameRecorder n makeFrame panel)
            (.create video)) hrun
        exact hrecording.training hallowed
    | @background queueSize _ _ _ hrun =>
        have hrecording := recording_run
          (backgroundRecorder_serves (frameRecorder n makeFrame panel)
            (.create video) queueSize) hrun
        exact hrecording.training hallowed
  · intro moves
    exact (CollectedEpisodes.tagged_after makeFrame moves).completed

/-! ## An evaluation between two training windows -/

def numberedStep (action : ℕ) (done : Bool) : RecordedStep Unit Unit ℕ where
  observation := ()
  extra := none
  action := action
  task := "pick"
  nextReward := 0
  nextTerminated := done
  nextTruncated := false
  nextSuccess := false
  isIntervention := false
  criticValue := 0

abbrev actionRecorder : BaseRecorder (MultiRecorder ℕ Unit)
    (RecordedStep Unit Unit ℕ) (RecorderError Empty) (RecorderAnswer ℕ) :=
  frameRecorder 1 RecordedStep.action fun _ => none

abbrev ActionLabel : Type :=
  RecordingLabel 1 Unit Unit ℕ (RecorderCall (RecordedStep Unit Unit ℕ))

def resetLabels (mode : EnvMode) (resetEval : Bool) : List ActionLabel :=
  [.call (.reset mode ⟨none, resetEval⟩), .move, .invoke, .move, .write,
    .invoke]

/-- A reset that returns the observation there is. -/
def cachedResetLabels (mode : EnvMode) : List ActionLabel :=
  [.call (.reset mode ⟨none, false⟩), .move, .invoke]

def doneStepLabels (action : ℕ) : List ActionLabel :=
  [.call (.maskStep (fun _ => true) fun _ => numberedStep action true), .move,
    .invoke, .invoke, .write, .call (.resetDoneEnvs fun _ => true), .move,
    .write, .invoke]

def popLabels : List ActionLabel :=
  [.call .popCompletedDataset, .move, .invoke]

def autoResetEnv : EnvConfig where
  autoReset := true

theorem popped_data_is_training_one_episode : ∃ events final,
      Run (recordingMachine autoResetEnv (directRecorder actionRecorder))
        (.start (.create false)) events final ∧
      events.map Event.label =
        resetLabels .train false ++ doneStepLabels 9 ++ popLabels ∧
      CollectsTraining RecordedStep.action (log events) := by
  have hchecked : (((recordingMachine autoResetEnv
      (directRecorder actionRecorder)).exec (.start (.create false))
        (resetLabels .train false ++ doneStepLabels 9 ++ popLabels)).map
      fun result => movesOf (log result.1)) =
        some ([] ++ [.setMode .train] ++ [.resetEnv 0] ++
          [.recordStep 0 (numberedStep 9 true)] ++ [.resetEnv 0] ++
          [.popCompleted]) := by
    decide +kernel
  obtain ⟨⟨events, final⟩, hexec, hmoves⟩ := Option.map_eq_some_iff.mp hchecked
  have hrun := Machine.run_of_exec hexec
  refine ⟨events, final, hrun, Machine.labels_of_exec hexec,
    popped_data_is_training (.direct hrun) ?_⟩
  rw [Allowed, hmoves]
  have hreset : Lawful (fun moves move =>
      (CollectedEpisodes.after RecordedStep.action moves).Allows move)
      ([] ++ [(.setMode .train : RecordingMove 1 Unit Unit ℕ)] ++
        [.resetEnv 0]) :=
    (lawful_nil.snoc trivial).snoc trivial
  have hstep : Lawful (fun moves move =>
      (CollectedEpisodes.after RecordedStep.action moves).Allows move)
      ([] ++ [(.setMode .train : RecordingMove 1 Unit Unit ℕ)] ++
        [.resetEnv 0] ++ [.recordStep 0 (numberedStep 9 true)]) :=
    hreset.snoc fun _ _ => rfl
  apply Lawful.snoc
  · exact hstep.snoc trivial
  · trivial

theorem evaluation_in_training_data : ∃ events final moves,
      Run (recordingMachine autoResetEnv (directRecorder actionRecorder))
        (.start (.create false)) events final ∧
      events.map Event.label = resetLabels .eval true ++ doneStepLabels 7 ++
          cachedResetLabels .train ++ doneStepLabels 9 ++ popLabels ∧
      movesOf (log events) = moves ++ [.popCompleted] ∧
      .returned .popCompleted (some (.completed [[7], [9]])) ∈
        recorderLog (log events) ∧
      (CollectedEpisodes.after RecordedStep.action moves).trainEpisodes =
        [[9]] := by
  have hchecked : (((recordingMachine autoResetEnv
      (directRecorder actionRecorder)).exec (.start (.create false))
        (resetLabels .eval true ++ doneStepLabels 7 ++
          cachedResetLabels .train ++ doneStepLabels 9 ++ popLabels)).map
      fun result => decide (movesOf (log result.1) =
          (movesOf (log result.1)).dropLast ++ [.popCompleted] ∧
        .returned .popCompleted (some (.completed [[7], [9]])) ∈
          recorderLog (log result.1) ∧
        (CollectedEpisodes.after RecordedStep.action
          (movesOf (log result.1)).dropLast).trainEpisodes = [[9]])) =
        some true := by
    decide +kernel
  obtain ⟨⟨events, final⟩, hexec, hall⟩ := Option.map_eq_some_iff.mp hchecked
  obtain ⟨hmoves, hpop, htrain⟩ := of_decide_eq_true hall
  exact ⟨events, final, _, Machine.run_of_exec hexec,
    Machine.labels_of_exec hexec, hmoves, hpop, htrain⟩

end VerlVla
