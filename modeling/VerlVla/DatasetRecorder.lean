import VerlVla.Recorder

/-!
# Recording a dataset

The frames of an environment are kept in memory until its episode is saved.
All episodes go to one dataset on disk, which is handed over as a whole; the
next frame that is recorded begins a new one.  A video recorder may run beside
the dataset recorder.
-/

namespace VerlVla

open Transition

/-- Exceptions of a recorder: those of the frame conversion, and those of
indexing the pending frames or using a dataset that was handed over. -/
inductive RecorderError (E : Type)
  | makeFrame (error : E)
  | indexError (envId : ℕ)
  | noDataset
  deriving DecidableEq

inductive RecorderAnswer (D : Type)
  | none
  | changed (changed : Bool)
  | completed (episodes : List (List D))
  deriving DecidableEq

structure EpisodeDataset (D : Type) where
  episodes : List (List D)
  buffer : List D
  deriving DecidableEq

namespace EpisodeDataset

variable {D : Type}

def empty : EpisodeDataset D where
  episodes := []
  buffer := []

def addFrame (dataset : EpisodeDataset D) (frame : D) : EpisodeDataset D :=
  { dataset with buffer := dataset.buffer ++ [frame] }

def saveEpisode (dataset : EpisodeDataset D) : EpisodeDataset D where
  episodes := dataset.episodes ++ [dataset.buffer]
  buffer := []

theorem addFrames (dataset : EpisodeDataset D) (frames : List D) :
    frames.foldl addFrame dataset =
      { dataset with buffer := dataset.buffer ++ frames } := by
  induction frames generalizing dataset with
  | nil => rw [List.append_nil, List.foldl_nil]
  | cons frame frames ih =>
    rw [List.foldl_cons, ih, addFrame]
    simp only [List.append_assoc, List.singleton_append]

end EpisodeDataset

structure LerobotDatasetRecorder (D : Type) where
  pendingFrames : ℕ → List D
  hasCompletedEpisode : Bool
  mode : EnvMode
  dataset : Option (EpisodeDataset D)

namespace LerobotDatasetRecorder

variable {F D E : Type} (numEnvs : ℕ) (makeFrame : F → Except E D)
  (recorder : LerobotDatasetRecorder D)

def create : LerobotDatasetRecorder D where
  pendingFrames _ := []
  hasCompletedEpisode := false
  mode := .train
  dataset := some .empty

/-- Creating a dataset removes what is on disk. -/
def openDataset : LerobotDatasetRecorder D :=
  { recorder with dataset := some (recorder.dataset.getD .empty) }

def recordOnce (envId : ℕ) (frame : F) :
    Except (RecorderError E) (RecorderAnswer D) × LerobotDatasetRecorder D :=
  let opened := recorder.openDataset
  if envId < numEnvs then
    match makeFrame frame with
    | .error error => (.error (.makeFrame error), opened)
    | .ok made => (.ok .none, { opened with
        pendingFrames := Function.update opened.pendingFrames envId
          (opened.pendingFrames envId ++ [made]) })
  else (.error (.indexError envId), opened)

def saveEpisode (envId : ℕ) :
    Except (RecorderError E) (RecorderAnswer D) × LerobotDatasetRecorder D :=
  if envId < numEnvs then
    if recorder.pendingFrames envId = [] then (.ok .none, recorder)
    else
      match recorder.dataset with
      | none => (.error .noDataset, recorder)
      | some dataset => (.ok .none, { recorder with
          dataset := some (((recorder.pendingFrames envId).foldl
            EpisodeDataset.addFrame dataset).saveEpisode)
          pendingFrames := Function.update recorder.pendingFrames envId []
          hasCompletedEpisode := true })
  else (.error (.indexError envId), recorder)

def clearEpisode (envId : ℕ) :
    Except (RecorderError E) (RecorderAnswer D) × LerobotDatasetRecorder D :=
  if envId < numEnvs then
    (.ok .none, { recorder with
      pendingFrames := Function.update recorder.pendingFrames envId [] })
  else (.error (.indexError envId), recorder)

def setMode (mode : EnvMode) :
    Except (RecorderError E) (RecorderAnswer D) × LerobotDatasetRecorder D :=
  if mode = recorder.mode then (.ok (.changed false), recorder)
  else (.ok (.changed true),
    { recorder with mode := mode, pendingFrames := fun _ => [] })

def popCompleted :
    Except (RecorderError E) (RecorderAnswer D) × LerobotDatasetRecorder D :=
  if recorder.hasCompletedEpisode then
    match recorder.dataset with
    | none => (.error .noDataset, recorder)
    | some dataset => (.ok (.completed dataset.episodes),
        { recorder with dataset := none, hasCompletedEpisode := false })
  else (.ok .none, recorder)

def finalize : LerobotDatasetRecorder D where
  pendingFrames _ := []
  hasCompletedEpisode := false
  mode := recorder.mode
  dataset := none

def apply (call : RecorderCall F) :
    Except (RecorderError E) (RecorderAnswer D) × LerobotDatasetRecorder D :=
  match call with
  | .recordOnce envId frame => recorder.recordOnce numEnvs makeFrame envId frame
  | .saveEpisode envId => recorder.saveEpisode numEnvs envId
  | .clearEpisode envId => recorder.clearEpisode numEnvs envId
  | .setMode mode => recorder.setMode mode
  | .popCompleted => recorder.popCompleted
  | .flush => (.ok .none, recorder)
  | .finalize => (.ok .none, recorder.finalize)

end LerobotDatasetRecorder

def lerobotRecorder {F D E : Type} (numEnvs : ℕ)
    (makeFrame : F → Except E D) :
    BaseRecorder (LerobotDatasetRecorder D) F (RecorderError E)
      (RecorderAnswer D) where
  apply call recorder := recorder.apply numEnvs makeFrame call

structure SavedVideo (I : Type) where
  mode : EnvMode
  envId : ℕ
  number : ℕ
  frames : List I

structure VideoRecorder (I : Type) where
  mode : EnvMode
  frames : ℕ → List I
  videoCounts : EnvMode → ℕ → ℕ
  videos : List (SavedVideo I)

namespace VideoRecorder

variable {F D E I : Type} (panel : F → Option I) (recorder : VideoRecorder I)

def create : VideoRecorder I where
  mode := .train
  frames _ := []
  videoCounts _ _ := 0
  videos := []

def recordOnce (envId : ℕ) (frame : F) : VideoRecorder I := { recorder with
    frames := Function.update recorder.frames envId
      (recorder.frames envId ++ (panel frame).toList) }

def saveEpisode (envId : ℕ) : VideoRecorder I :=
  if recorder.frames envId = [] then recorder
  else
    let number := recorder.videoCounts recorder.mode envId
    { recorder with
      videos := recorder.videos ++
        [⟨recorder.mode, envId, number, recorder.frames envId⟩]
      videoCounts := Function.update recorder.videoCounts recorder.mode
        (Function.update (recorder.videoCounts recorder.mode) envId
          (number + 1))
      frames := Function.update recorder.frames envId [] }

def clearEpisode (envId : ℕ) : VideoRecorder I :=
  { recorder with frames := Function.update recorder.frames envId [] }

def setMode (mode : EnvMode) : Bool × VideoRecorder I :=
  if mode = recorder.mode then (false, recorder)
  else (true, { recorder with frames := fun _ => [], mode := mode })

def finalize : VideoRecorder I := { recorder with frames := fun _ => [] }

end VideoRecorder

/-- The enabled recorders, called one after the other. -/
structure MultiRecorder (D I : Type) where
  lerobot : LerobotDatasetRecorder D
  video : Option (VideoRecorder I)

namespace MultiRecorder

variable {F D E I : Type} (numEnvs : ℕ) (makeFrame : F → Except E D)
  (panel : F → Option I) (recorder : MultiRecorder D I)

def create (video : Bool) : MultiRecorder D I where
  lerobot := .create
  video := if video then some .create else none

/-- The dataset recorder checks the environment id and converts the frame
before the video recorder does, so that one cannot raise alone. -/
def videoAfter (call : RecorderCall F) (video : VideoRecorder I) :
    Bool × VideoRecorder I :=
  match call with
  | .recordOnce envId frame => (false, video.recordOnce panel envId frame)
  | .saveEpisode envId => (false, video.saveEpisode envId)
  | .clearEpisode envId => (false, video.clearEpisode envId)
  | .setMode mode => video.setMode mode
  | .popCompleted => (false, video)
  | .flush => (false, video)
  | .finalize => (false, video.finalize)

def answer (videoChanged : Bool) : RecorderAnswer D → RecorderAnswer D
  | .changed changed => .changed (videoChanged || changed)
  | given => given

def apply (call : RecorderCall F) :
    Except (RecorderError E) (RecorderAnswer D) × MultiRecorder D I :=
  let applied := recorder.lerobot.apply numEnvs makeFrame call
  match applied.1, recorder.video with
  | .error error, video => (.error error, ⟨applied.2, video⟩)
  | .ok given, none => (.ok given, ⟨applied.2, none⟩)
  | .ok given, some video =>
    let shown := videoAfter panel call video
    (.ok (answer shown.1 given), ⟨applied.2, some shown.2⟩)

end MultiRecorder

def multiRecorder {F D E I : Type} (numEnvs : ℕ) (makeFrame : F → Except E D)
    (panel : F → Option I) :
    BaseRecorder (MultiRecorder D I) F (RecorderError E) (RecorderAnswer D) where
  apply call recorder := recorder.apply numEnvs makeFrame panel call

end VerlVla
