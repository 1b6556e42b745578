import VerlVla.ClusterRollouts

/-!
# Training lanes with auto-reset

A lane of a simulator is in some episode, at some policy step of it.  The next
episode starts after a done step, after a step that restarts the episode, and
with a reset that reaches the simulator.  With auto-reset on, a reset returns
the last observation instead, unless it is the first one of a process or the
first of an evaluation.
-/

namespace VerlVla

open List hiding after cons nil

/-- A lane, an episode of it, counted by its resets, and a policy step. -/
structure LanePosition where
  lane : ℕ
  episode : ℕ
  index : ℕ
  deriving DecidableEq

namespace LanePosition

def next (position : LanePosition) : LanePosition :=
  { position with index := position.index + 1 }

def reset (position : LanePosition) : LanePosition := { position with
    episode := position.episode + 1
    index := 0 }

end LanePosition

abbrev LaneStep : Type := RolloutStep LanePosition

/-- What is reported of a policy step, and whether the episode was restarted
in it. -/
structure StepAnswer where
  substeps : List BaseEnv.Report
  restartEpisode : Bool

def StepAnswer.done (answer : StepAnswer) : Bool :=
  answer.substeps.any (·.terminated) || answer.substeps.any (·.truncated)

def stepAnswer (done : Bool) : StepAnswer where
  substeps := [⟨0, done, false, false⟩]
  restartEpisode := false

/-- The policy steps of every lane in a window. -/
abbrev SimAnswer : Type := List (List StepAnswer)

/-- The policy steps of a lane in a window, and where it is then. -/
def runLane (position : LanePosition) :
    List StepAnswer → Episode LanePosition × LanePosition
  | [] => ([], position)
  | answer :: rest =>
    let after := if answer.done || answer.restartEpisode then
        position.reset
      else position.next
    let window := runLane after rest
    (⟨answer.substeps, position⟩ :: window.1, window.2)

/-- The lanes of the simulators of a mode, and whether an observation is left
from the last call. -/
structure LaneSims where
  lanes : List LanePosition
  cached : Bool

namespace LaneSims

def reset (resetEval : Bool) (sims : LaneSims) : LaneSims :=
  if sims.cached && !resetEval then sims
  else
    { lanes := sims.lanes.map LanePosition.reset
      cached := true }

def run (answer : SimAnswer) (sims : LaneSims) :
    List (Episode LanePosition) × LaneSims :=
  let windows := sims.lanes.mapIdx fun lane position =>
    runLane position (answer.getD lane [])
  (windows.map Prod.fst, { sims with lanes := windows.map Prod.snd })

end LaneSims

structure SimWorld where
  train : LaneSims
  eval : LaneSims

namespace SimWorld

def initial (lanes : ℕ) : SimWorld where
  train := ⟨(range lanes).map (⟨·, 0, 0⟩), false⟩
  eval := ⟨(range lanes).map (⟨·, 0, 0⟩), false⟩

def simulators (shared : Bool) (world : SimWorld) : EnvMode → LaneSims
  | .train => world.train
  | .eval => if shared then world.train else world.eval

def setSimulators (shared : Bool) (world : SimWorld) (sims : LaneSims) :
    EnvMode → SimWorld
  | .train => { world with train := sims }
  | .eval =>
    if shared then { world with train := sims }
    else { world with eval := sims }

end SimWorld

def simulatorWorld (shared : Bool)
    (records : List (Episode LanePosition) → CarryState → CarryState)
    (datasets : List (Episode LanePosition) → Bool) :
    ClusterWorld SimWorld Unit (List (Episode LanePosition)) SimAnswer where
  resetEnv mode resetEval world := ((), world.setSimulators shared
      ((world.simulators shared mode).reset resetEval) mode)
  generateSequences mode _ _ answer world :=
    let window := (world.simulators shared mode).run answer
    (window.1, world.setSimulators shared window.2 mode)
  restartSimulators world :=
    { world with train := { world.train with cached := false } }
  collectRecords := records
  collectDatasets := datasets

/-! ## Steps that lead on -/

def upcoming (steps : Episode LanePosition) (position : LanePosition) :
    LanePosition :=
  match steps with
  | [] => position
  | step :: _ => step.data

/-- After every step that is not done comes the next step of its episode, at
last from the lane. -/
def Leads : Episode LanePosition → LanePosition → Prop
  | [], _ => True
  | step :: rest, position =>
    (step.done = false → upcoming rest position = step.data.next) ∧
      Leads rest position

def Continuous (episode : Episode LanePosition) : Prop :=
  episode.IsChain fun step next => next.data = step.data.next

instance : DecidablePred Continuous := fun episode =>
  inferInstanceAs (Decidable (episode.IsChain _))

def Closed (steps : Episode LanePosition) : Prop :=
  ∀ last, steps.getLast? = some last → last.done = true

instance : DecidablePred Closed := fun steps =>
  inferInstanceAs (Decidable (∀ last ∈ steps.getLast?, last.done = true))

section Leads

variable {steps more buffer : Episode LanePosition}
  {position after : LanePosition}

theorem upcoming_append : upcoming (steps ++ more) position =
      upcoming steps (upcoming more position) := by
  cases steps <;> rfl

theorem leads_append : Leads (steps ++ more) position ↔
      Leads steps (upcoming more position) ∧ Leads more position := by
  induction steps with
  | nil => simp [Leads]
  | cons step steps ih =>
    simp only [cons_append, Leads, ih, upcoming_append, and_assoc]

theorem Leads.of_closed (hleads : Leads steps position)
    (hclosed : Closed steps) : Leads steps after := by
  induction steps with
  | nil => trivial
  | cons step steps ih =>
    obtain ⟨hstep, hrest⟩ := hleads
    cases steps with
    | nil =>
      have hdone := hclosed step rfl
      refine ⟨?_, trivial⟩
      intro hlive
      simp [hdone] at hlive
    | cons next rest =>
      refine ⟨hstep, ih hrest ?_⟩
      intro last hlast
      apply hclosed
      rw [getLast?_cons_cons, hlast]

def EndsReported (answers : List StepAnswer) : Prop :=
  ∀ answer ∈ answers, answer.restartEpisode = true → answer.done = true

theorem runLane_leads (position : LanePosition) (hends : EndsReported answers) :
    Leads (runLane position answers).1 (runLane position answers).2 ∧
      upcoming (runLane position answers).1 (runLane position answers).2 =
        position := by
  induction answers generalizing position with
  | nil => exact ⟨trivial, rfl⟩
  | cons answer rest ih =>
    obtain ⟨hanswer, hrest⟩ := forall_mem_cons.mp hends
    have hnext := fun next => ih next hrest
    refine ⟨⟨?_, (hnext _).1⟩, rfl⟩
    intro hlive
    have hdone : answer.done = false := hlive
    have hrestart : answer.restartEpisode = false := by
      by_contra htrue
      have hreported := hanswer (Bool.eq_true_of_not_eq_false htrue)
      simp [hdone] at hreported
    refine (hnext _).2.trans ?_
    rw [hdone, hrestart]
    rfl

theorem Leads.runLane (hleads : Leads steps position)
    (hends : EndsReported answers) :
    Leads (steps ++ (runLane position answers).1)
      (runLane position answers).2 := by
  obtain ⟨hwindow, hposition⟩ := runLane_leads position hends
  rw [leads_append, hposition]
  exact ⟨hleads, hwindow⟩

theorem runLane_substeps (position : LanePosition)
    (answers : List StepAnswer) :
    (runLane position answers).1.map RolloutStep.substeps =
      answers.map StepAnswer.substeps := by
  induction answers generalizing position with
  | nil => rfl
  | cons answer rest ih =>
    simp only [VerlVla.runLane, map_cons, ih]

theorem closed_of_window (hlast : answers.getLast? = some last)
    (hdone : last.done = true) :
    Closed (steps ++ (runLane position answers).1) := by
  have hsubsteps : (runLane position answers).1.getLast?.map
      RolloutStep.substeps = some last.substeps := by
    rw [← getLast?_map, runLane_substeps, getLast?_map, hlast]
    rfl
  intro final hfinal
  obtain ⟨step, hstep, hsame⟩ := Option.map_eq_some_iff.mp hsubsteps
  rw [getLast?_append, hstep, Option.some_or] at hfinal
  cases hfinal
  rw [StepAnswer.done, ← hsame] at hdone
  exact hdone

theorem continuous_of_live {step : LaneStep}
    (hlive : ∀ other ∈ buffer, other.done = false)
    (hleads : Leads (buffer ++ step :: more) position) :
    Continuous (buffer ++ [step]) := by
  induction buffer with
  | nil => exact isChain_singleton _
  | cons first buffer ih =>
    obtain ⟨hfirst, hrest⟩ := forall_mem_cons.mp hlive
    obtain ⟨hnext, hbuffer⟩ := hleads
    have hchain := ih hrest hbuffer
    apply isChain_cons.mpr
    refine ⟨?_, hchain⟩
    intro next hhead
    rw [← hnext hfirst]
    cases buffer with
    | nil | cons second _ =>
      cases hhead
      rfl

theorem Leads.ingestLane (hleads : Leads (buffer ++ (steps ++ more)) position)
    (hlive : ∀ step ∈ buffer, step.done = false)
    (hepisodes : ∀ episode ∈ episodes, Continuous episode) :
    let ingested := steps.foldl EpisodeBuffer.ingestStep (buffer, episodes)
    Leads (ingested.1 ++ more) position ∧
      (∀ step ∈ ingested.1, step.done = false) ∧
      ∀ episode ∈ ingested.2, Continuous episode := by
  induction steps generalizing buffer episodes with
  | nil => exact ⟨hleads, hlive, hepisodes⟩
  | cons step steps ih =>
    rw [foldl_cons, EpisodeBuffer.ingestStep]
    have hmoved : Leads ((buffer ++ [step]) ++ (steps ++ more)) position := by
      rw [append_assoc]
      exact hleads
    cases hdone : step.done with
    | true =>
      rw [if_pos rfl]
      have hepisode : Continuous (buffer ++ [step]) :=
        continuous_of_live hlive hleads
      apply ih
      · exact (leads_append.mp hmoved).2
      · simp
      · split
        · intro episode hmember
          rcases mem_append.mp hmember with hold | hnew
          · exact hepisodes episode hold
          · rw [mem_singleton.mp hnew]
            exact hepisode
        · exact hepisodes
    | false =>
      rw [if_neg Bool.false_ne_true]
      apply ih hmoved _ hepisodes
      intro other hother
      rcases mem_append.mp hother with hold | hnew
      · exact hlive other hold
      · rw [mem_singleton.mp hnew]
        exact hdone

end Leads

end VerlVla
