import VerlVla.EnvRecording

/-!
# The episodes that are collected

An episode of an environment begins with a reset, or with a change of the mode,
which drops the frames recorded so far.  It is completed by a done step or at
the end of a rollout.  What a pop should return are the training episodes
completed since the pop before it.
-/

namespace VerlVla

open Transition
open BaseEnv (Mask noEnvs)

structure TaggedFrame (n : ℕ) (D : Type) where
  envId : Fin n
  mode : EnvMode
  frame : D

structure CompletedEpisode (n : ℕ) (D : Type) where
  envId : Fin n
  mode : EnvMode
  frames : List (TaggedFrame n D)

def CompletedEpisode.content {n : ℕ} {D : Type}
    (episode : CompletedEpisode n D) : List D :=
  episode.frames.map TaggedFrame.frame

/-- The open episode of each environment, whether it is over, and the episodes
completed since the last pop.  `handedOver` says that no frame was recorded
since a pop returned a dataset. -/
structure CollectedEpisodes (n : ℕ) (D : Type) where
  mode : EnvMode
  frames : Fin n → List (TaggedFrame n D)
  settled : Mask n
  completed : List (CompletedEpisode n D)
  handedOver : Bool

namespace CollectedEpisodes

variable {n : ℕ} {O X A D I E : Type}

def initial : CollectedEpisodes n D where
  mode := .train
  frames _ := []
  settled := noEnvs
  completed := []
  handedOver := false

section Moves

variable (collected : CollectedEpisodes n D) (envId : Fin n)

def record (frame : D) : CollectedEpisodes n D := { collected with
    frames := Function.update collected.frames envId
      (collected.frames envId ++ [⟨envId, collected.mode, frame⟩])
    handedOver := false }

def complete : CollectedEpisodes n D := { collected with
    frames := Function.update collected.frames envId []
    settled := Function.update collected.settled envId true
    completed := if collected.frames envId = [] then collected.completed
      else collected.completed ++
        [⟨envId, collected.mode, collected.frames envId⟩] }

def move (makeFrame : RecordedStep O X A → D) :
    RecordingMove n O X A → CollectedEpisodes n D
  | .setMode mode =>
    if mode = collected.mode then collected
    else { collected with mode := mode, frames := fun _ => [], settled := noEnvs }
  | .resetEnv envId =>
    { collected with
      frames := Function.update collected.frames envId []
      settled := Function.update collected.settled envId false }
  | .recordStep envId step =>
    if collected.settled envId then collected
    else
      let recorded := collected.record envId (makeFrame step)
      if step.episodeDone then recorded.complete envId else recorded
  | .finishEnv envId =>
    if collected.settled envId then collected else collected.complete envId
  | .flush => collected
  | .popCompleted =>
    { collected with
      completed := []
      handedOver := collected.handedOver || !collected.completed.isEmpty }

def trainEpisodes : List (List D) :=
  (collected.completed.filter fun episode => episode.mode = .train).map
    CompletedEpisode.content

structure Tagged : Prop where
  frames : ∀ e, ∀ frame ∈ collected.frames e,
    frame.envId = e ∧ frame.mode = collected.mode
  completed : ∀ episode ∈ collected.completed, ∀ frame ∈ episode.frames,
    frame.envId = episode.envId ∧ frame.mode = episode.mode

/-- No episode is completed in an evaluation, and a rollout does not end with
frames of a dataset that was handed over. -/
def Allows : RecordingMove n O X A → Prop
  | .recordStep envId step => step.episodeDone = true →
      collected.settled envId = false → collected.mode = .train
  | .finishEnv envId => collected.settled envId = false →
      collected.frames envId ≠ [] →
        collected.mode = .train ∧ collected.handedOver = false
  | _ => True

end Moves

def after (makeFrame : RecordedStep O X A → D)
    (moves : List (RecordingMove n O X A)) : CollectedEpisodes n D :=
  moves.foldl (fun collected move => collected.move makeFrame move) initial

theorem after_snoc (makeFrame : RecordedStep O X A → D)
    (moves : List (RecordingMove n O X A)) (move : RecordingMove n O X A) :
    after makeFrame (moves ++ [move]) =
      (after makeFrame moves).move makeFrame move :=
  List.foldl_concat ..

variable {collected : CollectedEpisodes n D} {envId : Fin n}

/-! ## Episodes do not mix environments or modes -/

theorem tagged_initial : (initial : CollectedEpisodes n D).Tagged := by
  constructor
  · exact nofun
  · exact nofun

theorem Tagged.record (htagged : collected.Tagged) (frame : D) :
    (collected.record envId frame).Tagged := by
  constructor
  · intro e other hother
    by_cases he : e = envId
    · subst he
      simp only [CollectedEpisodes.record, Function.update_self] at hother
      rcases List.mem_append.mp hother with hother | hother
      · exact htagged.frames e other hother
      · rw [List.mem_singleton.mp hother]
        exact ⟨rfl, rfl⟩
    · simp only [CollectedEpisodes.record, Function.update_of_ne he] at hother
      exact htagged.frames e other hother
  · exact htagged.completed

theorem Tagged.clear (htagged : collected.Tagged) (settled : Mask n) :
    Tagged { collected with
      frames := Function.update collected.frames envId []
      settled := settled } := by
  constructor
  · intro e frame hframe
    by_cases he : e = envId
    · subst he
      simp only [Function.update_self] at hframe
      cases hframe
    · simp only [Function.update_of_ne he] at hframe
      exact htagged.frames e frame hframe
  · exact htagged.completed

theorem Tagged.complete (htagged : collected.Tagged) :
    (collected.complete envId).Tagged := by
  constructor
  · exact (htagged.clear (Function.update collected.settled envId true)).frames
  · intro episode hepisode
    simp only [CollectedEpisodes.complete] at hepisode
    split_ifs at hepisode
    · exact htagged.completed episode hepisode
    · rcases List.mem_append.mp hepisode with hepisode | hepisode
      · exact htagged.completed episode hepisode
      · rw [List.mem_singleton.mp hepisode]
        exact htagged.frames envId

theorem Tagged.move (htagged : collected.Tagged)
    (makeFrame : RecordedStep O X A → D) (move : RecordingMove n O X A) :
    (collected.move makeFrame move).Tagged := by
  cases move with
  | setMode mode =>
    simp only [CollectedEpisodes.move]
    split_ifs
    · exact htagged
    · exact ⟨fun _ _ hframe => absurd hframe List.not_mem_nil,
        htagged.completed⟩
  | resetEnv envId => exact htagged.clear _
  | recordStep envId step =>
    simp only [CollectedEpisodes.move]
    split_ifs
    · exact htagged
    · exact (htagged.record _).complete
    · exact htagged.record _
  | finishEnv envId =>
    simp only [CollectedEpisodes.move]
    split_ifs
    · exact htagged
    · exact htagged.complete
  | flush => exact htagged
  | popCompleted =>
    exact ⟨htagged.frames, fun _ hepisode => absurd hepisode List.not_mem_nil⟩

theorem tagged_after (makeFrame : RecordedStep O X A → D)
    (moves : List (RecordingMove n O X A)) :
    (after makeFrame moves).Tagged := by
  induction moves using List.reverseRecOn with
  | nil => exact tagged_initial
  | append_singleton moves move ih =>
    rw [after_snoc]
    exact ih.move makeFrame move

end CollectedEpisodes
end VerlVla
