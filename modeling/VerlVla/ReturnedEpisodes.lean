import VerlVla.WindowFlow

/-!
# The episodes that a trainer gets

The trainer ingests every window that a rollout returns, and clears its buffer
after an evaluation.
-/

namespace VerlVla

open List hiding after

/-- The buffer of the trainer, and the episodes it has returned.  A rollout
that it refuses ends the training. -/
structure FitState (D : Type) where
  buffer : EpisodeBuffer D
  episodes : List (Episode D)
  failed : Bool

namespace FitState

variable {D R : Type}

def initial (autoReset : Bool) : FitState D where
  buffer := EpisodeBuffer.create autoReset
  episodes := []
  failed := false

def ingest (fit : FitState D) (window : List (Episode D)) : FitState D :=
  let ingested := fit.buffer.ingest window
  match ingested.2 with
  | .ok episodes =>
    { fit with
      buffer := ingested.1
      episodes := fit.episodes ++ episodes }
  | .error _ =>
    { fit with
      buffer := ingested.1
      failed := true }

def clear (fit : FitState D) : FitState D :=
  { fit with buffer := fit.buffer.clear }

/-- A returned window is ingested, and an evaluation clears the buffer. -/
def follow (fit : FitState D) (entry : ClusterEvent R (List (Episode D))) :
    FitState D :=
  if fit.failed then fit
  else
    match entry with
    | .returned _ window => fit.ingest window
    | .returnedSync window => fit.ingest window
    | .evaluated _ => fit.clear
    | _ => fit

def lane (fit : FitState D) (lane : ℕ) : Episode D :=
  (fit.buffer.lanes.getD []).getD lane []

end FitState

section Fit

variable {D R : Type}

def fitAfter (autoReset : Bool)
    (entries : List (ClusterEvent R (List (Episode D)))) : FitState D :=
  entries.foldl FitState.follow (.initial autoReset)

@[simp] theorem fitAfter_append (entry : ClusterEvent R (List (Episode D))) :
    fitAfter autoReset (entries ++ [entry]) =
      (fitAfter autoReset entries).follow entry := by
  rw [fitAfter, foldl_append]
  rfl

theorem FitState.clear_lane (fit : FitState D) (lane : ℕ) :
    fit.clear.lane lane = [] := by
  simp only [FitState.lane, FitState.clear, EpisodeBuffer.clear]
  cases hbuffers : fit.buffer.lanes with
  | none => rfl
  | some buffers =>
    rw [Option.map_some, Option.getD_some, getD_eq_getElem?_getD, getElem?_map]
    cases buffers[lane]? <;> rfl

theorem EpisodeBuffer.ingest_rows {buffer : EpisodeBuffer D}
    {window : List (Episode D)}
    (hlength : ∀ buffers, buffer.lanes = some buffers →
      buffers.length = window.length) :
    ∃ buffers : List (Episode D), buffers.length = window.length ∧
      (∀ lane, buffers.getD lane [] = (buffer.lanes.getD []).getD lane []) ∧
      buffer.ingest window = ({ buffer with
            lanes := some ((List.zipWith EpisodeBuffer.ingestLane buffers
              window).map Prod.fst) }, do
          require (buffer.autoReset ∨ EpisodeBuffer.unfinished
              ((List.zipWith EpisodeBuffer.ingestLane buffers
                window).map Prod.fst) = [])
            (.unfinishedLanes (EpisodeBuffer.unfinished
              ((List.zipWith EpisodeBuffer.ingestLane buffers
                window).map Prod.fst)))
          pure ((List.zipWith EpisodeBuffer.ingestLane buffers
            window).map Prod.snd).flatten) := by
  have hbuffers : (buffer.lanes.getD (window.map fun _ => [])).length =
      window.length := by
    cases hlanes : buffer.lanes with
    | none => rw [Option.getD_none, length_map]
    | some buffers => exact hlength buffers hlanes
  refine ⟨buffer.lanes.getD (window.map fun _ => []), hbuffers, ?_, ?_⟩
  · intro lane
    cases buffer.lanes with
    | none =>
      simp only [Option.getD_none, getD_eq_getElem?_getD, getElem?_map]
      cases window[lane]? <;> rfl
    | some buffers => rfl
  · have hdrop : (buffer.lanes.getD (window.map fun _ => [])).drop
        window.length = [] := drop_of_length_le hbuffers.le
    simp only [EpisodeBuffer.ingest, hdrop, append_nil]
    rw [require_of hbuffers.ge]
    rfl

section Follow

variable {fit : FitState D} (halive : fit.failed = false)

theorem FitState.follow_still (hstill : entry.still = true) :
    fit.follow entry = fit := by
  unfold FitState.follow
  cases entry with
  | launched | weightsUpdated | trained | raised => exact ite_self _
  | finished | evaluated | returned | returnedSync => cases hstill

theorem FitState.follow_finished (task : ℕ) (window : List (Episode D))
    (state : RolloutState R) :
    fit.follow (.finished task window state) = fit :=
  ite_self _

theorem FitState.follow_failed (hfailed : fit.failed = true) :
    fit.follow entry = fit :=
  if_pos hfailed

include halive

theorem FitState.follow_returned (task : ℕ) (window : List (Episode D)) :
    fit.follow (.returned task window : ClusterEvent R _) =
      fit.ingest window := by
  rw [FitState.follow, halive, if_neg Bool.false_ne_true]

theorem FitState.follow_returnedSync (window : List (Episode D)) :
    fit.follow (.returnedSync window : ClusterEvent R _) =
      fit.ingest window := by
  rw [FitState.follow, halive, if_neg Bool.false_ne_true]

theorem FitState.follow_evaluated (future : R) :
    fit.follow (.evaluated future) = fit.clear := by
  rw [FitState.follow, halive, if_neg Bool.false_ne_true]

end Follow

def waitingSteps (waiting : List (List (Episode D))) (lane : ℕ) : Episode D :=
  waiting.flatMap fun window => window.getD lane []

theorem waitingSteps_append (waiting : List (List (Episode D)))
    (window : List (Episode D)) (lane : ℕ) :
    waitingSteps (waiting ++ [window]) lane =
      waitingSteps waiting lane ++ window.getD lane [] := by
  simp only [waitingSteps, flatMap_append, flatMap_singleton]

theorem waitingSteps_cons (window : List (Episode D))
    (waiting : List (List (Episode D))) (lane : ℕ) :
    waitingSteps (window :: waiting) lane =
      window.getD lane [] ++ waitingSteps waiting lane :=
  flatMap_cons ..

/-! ## Row by row -/

section Rows

variable {buffers window : List (Episode D)}
  (read : Episode D → Episode D → Episode D × List (Episode D))
  (hlength : buffers.length = window.length)
include hlength

theorem zipWith_left (lane : ℕ) (hlane : lane < window.length) :
    ((List.zipWith read buffers window).map Prod.fst).getD lane [] =
      (read (buffers.getD lane []) (window.getD lane [])).1 := by
  have hbuffer : lane < buffers.length := by omega
  simp only [getD_eq_getElem?_getD, getElem?_map,
    getElem?_zipWith, getElem?_eq_getElem hlane,
    getElem?_eq_getElem hbuffer, Option.map_some, Option.getD_some]

theorem mem_zipWith_closed :
    episode ∈ ((List.zipWith read buffers window).map Prod.snd).flatten →
      ∃ lane < window.length,
        episode ∈ (read (buffers.getD lane []) (window.getD lane [])).2 := by
  intro hmember
  obtain ⟨episodes, hepisodes, hin⟩ := mem_flatten.mp hmember
  obtain ⟨result, hzip, rfl⟩ := mem_map.mp hepisodes
  obtain ⟨lane, hlt, hget⟩ := getElem_of_mem hzip
  rw [length_zipWith, hlength, Nat.min_self] at hlt
  refine ⟨lane, hlt, ?_⟩
  rw [getElem_zipWith] at hget
  rw [getD_eq_getElem _ _ (hlength ▸ hlt), getD_eq_getElem _ _ hlt, hget]
  exact hin

end Rows

structure FitState.Ingested (fit next : FitState D)
    (window : List (Episode D)) : Prop where
  autoReset : next.buffer.autoReset = fit.buffer.autoReset
  failed : next.failed = fit.failed
  buffer : ∀ buffers, next.buffer.lanes = some buffers →
    buffers.length = window.length
  lane : ∀ lane < window.length, next.lane lane =
    (EpisodeBuffer.ingestLane (fit.lane lane) (window.getD lane [])).1
  beyond : ∀ lane, window.length ≤ lane → next.lane lane = []
  episodes : ∀ episode ∈ next.episodes, episode ∈ fit.episodes ∨
    ∃ lane < window.length, episode ∈
      (EpisodeBuffer.ingestLane (fit.lane lane) (window.getD lane [])).2

theorem FitState.ingested {fit : FitState D} {window : List (Episode D)}
    (hauto : fit.buffer.autoReset = true)
    (hlength : ∀ buffers, fit.buffer.lanes = some buffers →
      buffers.length = window.length) :
    fit.Ingested (fit.ingest window) window := by
  obtain ⟨buffers, hbuffers, hlane, hingest⟩ :=
    EpisodeBuffer.ingest_rows hlength
  have heq : fit.ingest window = { fit with
        buffer := { fit.buffer with
            lanes := some ((List.zipWith EpisodeBuffer.ingestLane buffers
              window).map Prod.fst) }
        episodes := fit.episodes ++
          ((List.zipWith EpisodeBuffer.ingestLane buffers window).map
            Prod.snd).flatten } := by
    rw [FitState.ingest, hingest, require_of (.inl hauto)]
    rfl
  rw [heq]
  constructor
  · rfl
  · rfl
  · rintro after ⟨⟩
    simp [hbuffers]
  · intro lane hlt
    refine (zipWith_left _ hbuffers lane hlt).trans ?_
    rw [hlane]
    rfl
  · intro lane hge
    apply getD_eq_default
    simpa [hbuffers] using hge
  · intro episode hepisode
    rcases mem_append.mp hepisode with hold | hnew
    · exact .inl hold
    · obtain ⟨lane, hlt, hmember⟩ := mem_zipWith_closed _ hbuffers hnew
      rw [hlane] at hmember
      exact .inr ⟨lane, hlt, hmember⟩

end Fit

end VerlVla
