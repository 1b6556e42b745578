import VerlVla.SharedSimulator

/-!
# The boundary between training and evaluation

Without auto-reset every reset reaches the environments, so the first step
after a change of the mode begins an episode.  With auto-reset the observation
of the last mode is returned, and the episode goes on in the other mode.
-/

namespace VerlVla

open Transition

/-! ## One environment -/

/-- The frames begin with the first policy step of an episode. -/
def FramesBegin (frames : List LanePosition) : Prop :=
  ∀ first, frames.head? = some first → first.index = 0

/-- The next frame to be recorded continues the frames or begins an
episode. -/
structure LaneFrames (lane : BoundaryLane) : Prop where
  begins : FramesBegin lane.frames
  next : lane.saved = false → lane.settled = false → lane.frames = [] →
    lane.position.index = 0

section Lane

variable {autoReset done : Bool} {lane : BoundaryLane} {answer : StepAnswer}

theorem framesBegin_nil : FramesBegin [] := by
  exact nofun

theorem laneFrames_envReset (lane : BoundaryLane) : LaneFrames lane.envReset :=
  ⟨framesBegin_nil, fun _ _ _ => rfl⟩

theorem BoundaryLane.record_same (done : Bool) (lane : BoundaryLane) :
    (lane.record done).2.position = lane.position ∧
      (lane.record done).2.settled = lane.settled := by
  unfold BoundaryLane.record
  cases lane.saved <;> cases done <;> exact ⟨rfl, rfl⟩

theorem LaneFrames.record (hframes : LaneFrames lane)
    (hover : lane.settled = false) (done : Bool) :
    (∀ frames ∈ (lane.record done).1, FramesBegin frames) ∧
      FramesBegin (lane.record done).2.frames ∧
      ((lane.record done).2.saved = false →
        (lane.record done).2.frames ≠ []) := by
  have hmore : lane.saved = false →
      FramesBegin (lane.frames ++ [lane.position]) := by
    intro hsaved first hfirst
    cases hcase : lane.frames with
    | nil =>
      rw [hcase] at hfirst
      cases hfirst
      exact hframes.next hsaved hover hcase
    | cons frame frames =>
      rw [hcase] at hfirst
      apply hframes.begins
      rw [hcase]
      exact hfirst
  unfold BoundaryLane.record
  cases hsaved : lane.saved with
  | true =>
    rw [if_pos rfl]
    refine ⟨by simp, hframes.begins, ?_⟩
    intro hfalse
    simp [hsaved] at hfalse
  | false =>
    rw [if_neg Bool.false_ne_true]
    cases done with
    | true => exact ⟨by simpa using hmore hsaved, framesBegin_nil, by simp⟩
    | false => exact ⟨by simp, hmore hsaved, by simp⟩

theorem LaneFrames.finishStep (hbegins : FramesBegin lane.frames)
    (hnext : lane.saved = false → lane.frames ≠ []) :
    LaneFrames (lane.finishStep autoReset answer) := by
  unfold BoundaryLane.finishStep
  split
  · split
    · exact laneFrames_envReset lane
    · exact ⟨hbegins, fun hsaved _ hnil => absurd hnil (hnext hsaved)⟩
  · exact ⟨hbegins, fun hsaved _ hnil => absurd hnil (hnext hsaved)⟩

theorem LaneFrames.run (hframes : LaneFrames lane)
    (answers : List StepAnswer) :
    (∀ frames ∈ (lane.run autoReset answers).recorded, FramesBegin frames) ∧
      LaneFrames (lane.run autoReset answers).lane := by
  induction answers generalizing lane with
  | nil =>
    refine ⟨?_, hframes⟩
    exact nofun
  | cons answer rest ih =>
    unfold BoundaryLane.run
    cases hover : lane.settled with
    | true =>
      rw [if_pos rfl]
      exact ih hframes
    | false =>
      rw [if_neg Bool.false_ne_true]
      obtain ⟨hrecorded, hbegins, hnext⟩ := hframes.record hover answer.done
      obtain ⟨hrest, hlast⟩ := ih (LaneFrames.finishStep hbegins hnext)
      refine ⟨?_, hlast⟩
      intro frames hmember
      rcases List.mem_append.mp hmember with hnow | hlater
      · exact hrecorded frames hnow
      · exact hrest frames hlater

theorem LaneFrames.finishRollout (hframes : LaneFrames lane) :
    (∀ frames ∈ (lane.finishRollout autoReset).1, FramesBegin frames) ∧
      LaneFrames (lane.finishRollout autoReset).2 := by
  unfold BoundaryLane.finishRollout
  split
  · exact ⟨by simp, hframes⟩
  · refine ⟨?_, framesBegin_nil, ?_⟩
    · split
      · simp
      · simpa using hframes.begins
    · exact nofun

theorem BoundaryLane.finishStep_position (autoReset : Bool) (answer : StepAnswer)
    (lane : BoundaryLane) :
    (lane.finishStep autoReset answer).position.lane = lane.position.lane ∧
      lane.position.episode ≤
        (lane.finishStep autoReset answer).position.episode := by
  unfold BoundaryLane.finishStep
  split
  · split
    · exact ⟨rfl, Nat.le_succ _⟩
    · exact ⟨rfl, Nat.le_refl _⟩
  · exact ⟨rfl, Nat.le_refl _⟩

/-- A lane stays the same lane and goes through its episodes in order. -/
structure LaneAdvance (first last : LanePosition) (steps : List LanePosition) :
    Prop where
  lane : last.lane = first.lane
  episode : first.episode ≤ last.episode
  steps : ∀ step ∈ steps, step.lane = first.lane ∧
    first.episode ≤ step.episode ∧ step.episode ≤ last.episode

theorem BoundaryLane.run_advance (autoReset : Bool) (lane : BoundaryLane)
    (answers : List StepAnswer) :
    LaneAdvance lane.position (lane.run autoReset answers).lane.position
      (lane.run autoReset answers).steps := by
  induction answers generalizing lane with
  | nil => exact ⟨rfl, Nat.le_refl _, by simp [BoundaryLane.run]⟩
  | cons answer rest ih =>
    unfold BoundaryLane.run
    cases hover : lane.settled with
    | true =>
      rw [if_pos rfl]
      exact ih lane
    | false =>
      rw [if_neg Bool.false_ne_true]
      obtain ⟨hlane, hepisode⟩ := BoundaryLane.finishStep_position autoReset
        answer (lane.record answer.done).2
      rw [(BoundaryLane.record_same answer.done lane).1] at hlane hepisode
      have hrest := ih ((lane.record answer.done).2.finishStep autoReset
        answer)
      have hlast := hrest.episode
      constructor
      · exact hrest.lane.trans hlane
      · exact hepisode.trans hlast
      · intro step hstep
        rcases List.mem_cons.mp hstep with rfl | hlater
        · exact ⟨rfl, Nat.le_refl _, hepisode.trans hlast⟩
        · obtain ⟨hsame, hfirst, hend⟩ := hrest.steps step hlater
          exact ⟨hsame.trans hlane, hepisode.trans hfirst, hend⟩

theorem BoundaryLane.finishRollout_same (autoReset : Bool) (lane : BoundaryLane) :
    (lane.finishRollout autoReset).2.position = lane.position ∧
      (lane.finishRollout autoReset).2.settled = lane.settled := by
  unfold BoundaryLane.finishRollout
  split
  · exact ⟨rfl, rfl⟩
  · exact ⟨rfl, rfl⟩

end Lane

/-! ## The process -/

def ResetCall.ModeReset (call : ResetCall) : Prop :=
  ∀ mode, call.previous = some mode → mode ≠ call.mode → call.executed = true

/-- The policy steps of a simulated episode are taken in one mode. -/
def Uniform (steps : List (LanePosition × EnvMode)) : Prop :=
  ∀ step ∈ steps, ∀ other ∈ steps, step.1.lane = other.1.lane →
    step.1.episode = other.1.episode → step.2 = other.2

/-- What has happened in the process up to now. -/
structure EnvSound {n : ℕ} (env : SharedEnv n) : Prop where
  resets : ∀ call ∈ env.resets, call.ModeReset
  uniform : Uniform env.steps
  recorded : ∀ frames ∈ env.recorded, FramesBegin frames
  lane : ∀ e, (env.lanes e).position.lane = e
  bound : ∀ (e : Fin n), ∀ step ∈ env.steps, step.1.lane = e →
    step.1.episode ≤ (env.lanes e).position.episode

structure Rested {n : ℕ} (env : SharedEnv n) : Prop where
  index : ∀ e, (env.lanes e).position.index = 0
  settled : ∀ e, (env.lanes e).settled = false
  frames : ∀ e, (env.lanes e).frames = []
  fresh : ∀ (e : Fin n), ∀ step ∈ env.steps, step.1.lane = e →
    step.1.episode < (env.lanes e).position.episode

/-- Only training has taken place, and every environment goes on. -/
structure Ongoing {n : ℕ} (env : SharedEnv n) : Prop where
  settled : ∀ e, (env.lanes e).settled = false
  frames : ∀ e, LaneFrames (env.lanes e)
  mode : env.recorderMode = .train
  previous : ∀ mode, env.previous = some mode → mode = .train
  steps : ∀ step ∈ env.steps, step.2 = .train

section Env

variable {n : ℕ} {env : SharedEnv n} {autoReset : Bool}

theorem Rested.laneFrames (hrested : Rested env) (e : Fin n) :
    LaneFrames (env.lanes e) := by
  constructor
  · rw [hrested.frames e]
    exact framesBegin_nil
  · exact fun _ _ _ => hrested.index e

theorem envSound_initial (n : ℕ) : EnvSound (.initial n) := by
  constructor
  · exact nofun
  · exact nofun
  · exact nofun
  · exact fun _ => rfl
  · exact nofun

theorem rested_initial (n : ℕ) : Rested (.initial n) := by
  constructor
  · exact fun _ => rfl
  · exact fun _ => rfl
  · exact fun _ => rfl
  · exact nofun

theorem ongoing_initial (n : ℕ) : Ongoing (.initial n) := by
  constructor
  · exact fun _ => rfl
  · exact fun _ => ⟨framesBegin_nil, fun _ _ _ => rfl⟩
  · rfl
  · exact nofun
  · exact nofun

/-! ### Resets -/

theorem SharedEnv.setMode_position (env : SharedEnv n) (mode : EnvMode)
    (lane : BoundaryLane) :
    (env.setMode mode lane).position = lane.position := by
  unfold SharedEnv.setMode
  split <;> rfl

theorem SharedEnv.reset_position (autoReset : Bool) (mode : EnvMode)
    (resetEval : Bool) (env : SharedEnv n) (e : Fin n) :
    let position := ((env.reset autoReset mode resetEval).lanes e).position
    position = (env.lanes e).position ∨
      position = (env.lanes e).position.reset := by
  simp only [SharedEnv.reset]
  split
  · exact .inl (SharedEnv.setMode_position env mode _)
  · refine .inr ?_
    simp only [BoundaryLane.envReset, BoundaryLane.clearEpisode,
      SharedEnv.setMode_position]

theorem EnvSound.reset (hsound : EnvSound env) (mode : EnvMode)
    (resetEval : Bool)
    (hcached : env.servesCached autoReset resetEval = true →
      ∀ previous, env.previous = some previous → previous = mode) :
    EnvSound (env.reset autoReset mode resetEval) := by
  constructor
  · intro call hcall
    rcases List.mem_append.mp hcall with hold | hnew
    · exact hsound.resets call hold
    · rw [List.mem_singleton.mp hnew]
      intro previous hprevious hother
      cases hserves : env.servesCached autoReset resetEval with
      | false => rfl
      | true => exact absurd (hcached hserves previous hprevious) hother
  · exact hsound.uniform
  · exact hsound.recorded
  · intro e
    rcases SharedEnv.reset_position autoReset mode resetEval env e with
      hsame | hreset
    · rw [hsame, hsound.lane e]
    · rw [hreset]
      exact hsound.lane e
  · intro e step hstep hlane
    have hle := hsound.bound e step hstep hlane
    rcases SharedEnv.reset_position autoReset mode resetEval env e with
      hsame | hreset
    · rw [hsame]
      exact hle
    · rw [hreset]
      exact Nat.le_succ_of_le hle

theorem EnvSound.rested (hsound : EnvSound env) (mode : EnvMode)
    (hexecuted : env.servesCached autoReset resetEval = false) :
    Rested (env.reset autoReset mode resetEval) := by
  have hlane : ∀ e, (env.reset autoReset mode resetEval).lanes e =
      BoundaryLane.envReset
        { env.setMode mode (env.lanes e) with settled := false } := by
    intro e
    simp only [SharedEnv.reset, hexecuted, Bool.false_eq_true, if_false]
  constructor
  · intro e
    rw [hlane e]
    rfl
  · intro e
    rw [hlane e]
    rfl
  · intro e
    rw [hlane e]
    rfl
  · intro e step hstep hsame
    have hle := hsound.bound e step hstep hsame
    rw [hlane e]
    simp only [BoundaryLane.envReset, BoundaryLane.clearEpisode,
      SharedEnv.setMode_position, LanePosition.reset]
    omega

theorem Ongoing.reset (hongoing : Ongoing env) :
    Ongoing (env.reset autoReset .train false) := by
  have hmode : ∀ lane, env.setMode .train lane = lane := by
    intro lane
    rw [SharedEnv.setMode, hongoing.mode, if_pos rfl]
  have hlane : ∀ e, (env.reset autoReset .train false).lanes e = env.lanes e ∨
        (env.reset autoReset .train false).lanes e =
          (env.lanes e).envReset := by
    intro e
    have hover := hongoing.settled e
    simp only [SharedEnv.reset, hmode]
    split
    · refine .inl ?_
      rw [← hover]
    · exact .inr rfl
  constructor
  · intro e
    rcases hlane e with hsame | hreset
    · rw [hsame, hongoing.settled e]
    · rw [hreset]
      rfl
  · intro e
    rcases hlane e with hsame | hreset
    · rw [hsame]
      exact hongoing.frames e
    · rw [hreset]
      exact laneFrames_envReset _
  · rfl
  · intro mode hsome
    cases hsome
    rfl
  · exact hongoing.steps

theorem EnvSound.restart (hsound : EnvSound env) : EnvSound env.restart := by
  constructor
  · exact hsound.resets
  · exact hsound.uniform
  · exact hsound.recorded
  · exact hsound.lane
  · exact hsound.bound

/-! ### Windows -/

theorem SharedEnv.mem_run_steps :
    step ∈ (env.run autoReset mode answer).2.steps ↔ step ∈ env.steps ∨
      ∃ e, step.1 ∈ ((env.lanes e).run autoReset
        (answer.getD e [])).steps ∧ step.2 = mode := by
  simp only [SharedEnv.run, List.mem_append, List.mem_flatten, List.mem_ofFn]
  constructor
  · rintro (hold | ⟨_, ⟨e, rfl⟩, hnew⟩)
    · exact .inl hold
    · obtain ⟨position, hposition, rfl⟩ := List.mem_map.mp hnew
      exact .inr ⟨e, hposition, rfl⟩
  · rintro (hold | ⟨e, hposition, hmode⟩)
    · exact .inl hold
    · refine .inr ⟨_, ⟨e, rfl⟩, ?_⟩
      rw [List.mem_map]
      exact ⟨step.1, hposition, by rw [← hmode]⟩

theorem EnvSound.run (hsound : EnvSound env) (mode : EnvMode)
    (answer : SimAnswer) (hframes : ∀ e, LaneFrames (env.lanes e))
    (hmode : ∀ (e : Fin n), ∀ step ∈ env.steps, step.1.lane = e →
      step.1.episode = (env.lanes e).position.episode → step.2 = mode) :
    EnvSound (env.run autoReset mode answer).2 := by
  have hadvance := fun e => BoundaryLane.run_advance autoReset (env.lanes e)
    (answer.getD e [])
  have hposition : ∀ e, ((env.run autoReset mode answer).2.lanes e).position =
      ((env.lanes e).run autoReset (answer.getD e [])).lane.position :=
    fun e => (BoundaryLane.finishRollout_same autoReset _).1
  have hnew : ∀ e, ∀ step ∈ ((env.lanes e).run autoReset
      (answer.getD e [])).steps, step.lane = e := by
    intro e step hstep
    rw [((hadvance e).steps step hstep).1, hsound.lane e]
  have hjoined : ∀ step ∈ env.steps, ∀ other e, other ∈ ((env.lanes e).run
      autoReset (answer.getD e [])).steps → step.1.lane = other.lane →
      step.1.episode = other.episode → step.2 = mode := by
    intro step hstep other e hother hlane hepisode
    rw [hnew e other hother] at hlane
    have hle := hsound.bound e step hstep hlane
    have hfirst := ((hadvance e).steps other hother).2.1
    exact hmode e step hstep hlane (by omega)
  constructor
  · exact hsound.resets
  · intro step hstep other hother hlane hepisode
    rcases SharedEnv.mem_run_steps.mp hstep with hold | ⟨e, hrun, hstepMode⟩
    · rcases SharedEnv.mem_run_steps.mp hother with hprior | ⟨e, hlater, hotherMode⟩
      · exact hsound.uniform step hold other hprior hlane hepisode
      · rw [hotherMode]
        exact hjoined step hold other.1 e hlater hlane hepisode
    · rcases SharedEnv.mem_run_steps.mp hother with hprior | ⟨_, _, hotherMode⟩
      · rw [hstepMode]
        exact (hjoined other hprior step.1 e hrun hlane.symm
          hepisode.symm).symm
      · rw [hstepMode, hotherMode]
  · intro frames hmember
    rcases List.mem_append.mp hmember with hold | hrecorded
    · exact hsound.recorded frames hold
    · obtain ⟨_, hlane, hin⟩ := List.mem_flatten.mp hrecorded
      obtain ⟨e, rfl⟩ := List.mem_ofFn.mp hlane
      obtain ⟨hwindow, hlast⟩ := @LaneFrames.run autoReset _ (hframes e)
        (answer.getD e [])
      rcases List.mem_append.mp hin with hrun | hfinished
      · exact hwindow frames hrun
      · exact hlast.finishRollout.1 frames hfinished
  · intro e
    rw [hposition e, (hadvance e).lane, hsound.lane e]
  · intro e step hstep hlane
    rw [hposition e]
    rcases SharedEnv.mem_run_steps.mp hstep with hold | ⟨other, hrun, _⟩
    · exact (hsound.bound e step hold hlane).trans (hadvance e).episode
    · have hsame : other = e := by
        apply Fin.ext
        rw [← hnew other step.1 hrun, hlane]
      subst hsame
      exact ((hadvance other).steps step.1 hrun).2.2

end Env

/-! ## The slots of a window -/

/-- The first slot is the first policy step of a simulated episode. -/
def BeginsFresh (steps : Episode (Option LanePosition)) : Prop :=
  ∀ first, steps.head? = some first →
    ∃ position, first.data = some position ∧ position.index = 0

def SilentAfterEnd (steps : Episode (Option LanePosition)) : Prop :=
  steps.Pairwise fun step later => step.done = true → later.done = false

/-- A step after a closed segment begins an episode, at last the next step of
the environment. -/
def Begins : Bool → Episode (Option LanePosition) → LanePosition → Prop
  | closed, [], position => closed = true → position.index = 0
  | closed, step :: rest, position =>
    (closed = true → ∃ first, step.data = some first ∧ first.index = 0) ∧
      Begins step.done rest position

section Slots

variable {lane : BoundaryLane} {answers : List StepAnswer} {closed : Bool}
  {steps more segment : Episode (Option LanePosition)}
  {position : LanePosition}

theorem beginsFresh_nil : BeginsFresh [] := by
  exact nofun

theorem BeginsFresh.of_append (hbegins : BeginsFresh (steps ++ more)) :
    BeginsFresh steps := by
  intro first hfirst
  apply hbegins
  rw [List.head?_append, hfirst, Option.some_or]

theorem BeginsFresh.append (hbegins : BeginsFresh steps)
    (hmore : steps = [] → BeginsFresh more) : BeginsFresh (steps ++ more) := by
  intro first hfirst
  rw [List.head?_append] at hfirst
  cases hhead : steps.head? with
  | none =>
    rw [hhead, Option.none_or] at hfirst
    exact hmore (List.head?_eq_none_iff.mp hhead) first hfirst
  | some other =>
    rw [hhead, Option.some_or] at hfirst
    cases hfirst
    exact hbegins first hhead

/-! ### Without auto-reset -/

theorem idle_done (answer : StepAnswer) :
    (⟨answer.substeps.map fun _ => .nothing, none⟩ :
      RolloutStep (Option LanePosition)).done = false := by
  rw [RolloutStep.done_eq_any, ← Bool.not_eq_true, List.any_eq_true]
  rintro ⟨report, hreport, hdone⟩
  obtain ⟨_, _, rfl⟩ := List.mem_map.mp hreport
  cases hdone

theorem BoundaryLane.run_over (hover : lane.settled = true)
    (autoReset : Bool) (answers : List StepAnswer) :
    ∀ slot ∈ (lane.run autoReset answers).slots, slot.done = false := by
  induction answers with
  | nil =>
    exact nofun
  | cons answer rest ih =>
    intro slot hslot
    rw [BoundaryLane.run, hover, if_pos rfl] at hslot
    rcases List.mem_cons.mp hslot with rfl | hlater
    · exact idle_done answer
    · exact ih slot hlater

theorem BoundaryLane.run_silentAfterEnd (lane : BoundaryLane)
    (answers : List StepAnswer) :
    SilentAfterEnd (lane.run false answers).slots := by
  induction answers generalizing lane with
  | nil => exact List.Pairwise.nil
  | cons answer rest ih =>
    unfold BoundaryLane.run
    cases hover : lane.settled with
    | true =>
      rw [if_pos rfl]
      refine List.Pairwise.cons ?_ (ih lane)
      intro later _ hdone
      rw [idle_done] at hdone
      cases hdone
    | false =>
      rw [if_neg Bool.false_ne_true]
      refine List.Pairwise.cons ?_ (ih _)
      intro later hlater hdone
      have hended : answer.done = true := hdone
      refine BoundaryLane.run_over ?_ false rest later hlater
      exact hended

theorem BoundaryLane.run_head (hover : lane.settled = false)
    (autoReset : Bool) (answers : List StepAnswer) :
    ∀ first, (lane.run autoReset answers).slots.head? = some first →
      first.data = some lane.position := by
  intro first hfirst
  cases answers with
  | nil => cases hfirst
  | cons answer rest =>
    rw [BoundaryLane.run, hover, if_neg Bool.false_ne_true] at hfirst
    cases hfirst
    rfl

theorem SilentAfterEnd.ingestLane (honce : SilentAfterEnd steps)
    (hbegins : BeginsFresh steps) :
    ∀ episode ∈ (EpisodeBuffer.ingestLane [] steps).2,
      BeginsFresh episode := by
  intro episode hepisode
  by_cases hdone : ∃ step ∈ steps, step.done = true
  · obtain ⟨last, hlast, hended⟩ := hdone
    obtain ⟨before, after, rfl⟩ := List.append_of_mem hlast
    obtain ⟨_, htail, hbefore⟩ := List.pairwise_append.mp honce
    have hlive : ∀ step ∈ before, step.done = false := by
      intro step hstep
      by_contra hfalse
      have hnot := hbefore step hstep last (List.mem_cons_self ..)
        (Bool.eq_true_of_not_eq_false hfalse)
      simp [hended] at hnot
    have hafter : ∀ step ∈ after, step.done = false := by
      intro step hstep
      exact (List.pairwise_cons.mp htail).1 step hstep hended
    rw [EpisodeBuffer.ingestLane_ended hlive hended hafter] at hepisode
    split at hepisode
    · cases hepisode
    · rw [List.mem_singleton.mp hepisode]
      apply @BeginsFresh.of_append _ after
      rw [List.append_assoc]
      exact hbegins
  · have hlive : ∀ step ∈ steps, step.done = false := by
      intro step hstep
      by_contra hfalse
      exact hdone ⟨step, hstep, Bool.eq_true_of_not_eq_false hfalse⟩
    rw [EpisodeBuffer.ingestLane,
      EpisodeBuffer.ingestLane_unfinished hlive] at hepisode
    cases hepisode

theorem BeginsFresh.recordLane (hbegins : BeginsFresh steps)
    (segment : Episode (Option LanePosition)) :
    ∀ record ∈ (recordLane false segment steps).2, BeginsFresh record := by
  intro record hrecord
  unfold VerlVla.recordLane at hrecord
  rw [if_neg Bool.false_ne_true] at hrecord
  split at hrecord
  case h_1 doneIdx _ =>
    rw [List.mem_singleton.mp hrecord]
    apply @BeginsFresh.of_append _ (steps.drop (doneIdx + 1))
    rw [List.take_append_drop]
    exact hbegins
  case h_2 =>
    rw [List.mem_singleton.mp hrecord]
    exact hbegins

/-! ### With auto-reset -/

theorem Begins.reset (hbegins : Begins closed steps position) :
    Begins closed steps position.reset := by
  induction steps generalizing closed with
  | nil => exact fun _ => rfl
  | cons step steps ih => exact ⟨hbegins.1, ih hbegins.2⟩

theorem BoundaryLane.finishStep_over {answer : StepAnswer}
    (hover : lane.settled = false) :
    (lane.finishStep true answer).settled = false ∧ (answer.done = true →
        (lane.finishStep true answer).position.index = 0) := by
  rw [BoundaryLane.finishStep, if_pos rfl]
  split
  · exact ⟨rfl, fun _ => rfl⟩
  · refine ⟨hover, ?_⟩
    intro hdone
    rename_i hlive
    rw [hdone] at hlive
    exact absurd rfl hlive

theorem BoundaryLane.run_begins (hover : lane.settled = false)
    (hclosed : closed = true → lane.position.index = 0)
    (answers : List StepAnswer) :
    Begins closed (lane.run true answers).slots
        (lane.run true answers).lane.position ∧
      (lane.run true answers).lane.settled = false := by
  induction answers generalizing lane closed with
  | nil => exact ⟨hclosed, hover⟩
  | cons answer rest ih =>
    rw [BoundaryLane.run, hover, if_neg Bool.false_ne_true]
    have hrecorded := (BoundaryLane.record_same answer.done lane).2
    rw [hover] at hrecorded
    obtain ⟨hnext, hindex⟩ := @BoundaryLane.finishStep_over _ answer hrecorded
    obtain ⟨hbegins, hlast⟩ := ih hnext hindex
    refine ⟨⟨?_, hbegins⟩, hlast⟩
    intro hnow
    exact ⟨lane.position, rfl, hclosed hnow⟩

theorem Begins.run (hbegins : Begins closed steps lane.position)
    (hover : lane.settled = false) (answers : List StepAnswer) :
    Begins closed (steps ++ (lane.run true answers).slots)
      (lane.run true answers).lane.position := by
  induction steps generalizing closed with
  | nil => exact (BoundaryLane.run_begins hover hbegins answers).1
  | cons step steps ih => exact ⟨hbegins.1, ih hbegins.2⟩

theorem Begins.segments (keep : Episode (Option LanePosition) → Bool)
    {episodes : List (Episode (Option LanePosition))}
    (hbegins : Begins segment.isEmpty (steps ++ more) position)
    (hsegment : BeginsFresh segment)
    (hepisodes : ∀ episode ∈ episodes, BeginsFresh episode) :
    let result := steps.foldl (segmentStep keep) (segment, episodes)
    Begins result.1.isEmpty more position ∧ BeginsFresh result.1 ∧
      ∀ episode ∈ result.2, BeginsFresh episode := by
  induction steps generalizing segment episodes with
  | nil => exact ⟨hbegins, hsegment, hepisodes⟩
  | cons step steps ih =>
    have hnext : BeginsFresh (segment ++ [step]) := by
      apply hsegment.append
      intro hempty first hfirst
      cases hfirst
      apply hbegins.1
      rw [hempty]
      rfl
    have hrest : Begins step.done (steps ++ more) position := hbegins.2
    rw [List.foldl_cons, segmentStep]
    cases hdone : step.done with
    | true =>
      rw [hdone] at hrest
      rw [if_pos rfl]
      refine @ih [] _ hrest beginsFresh_nil ?_
      split
      · intro episode hepisode
        rcases List.mem_append.mp hepisode with hold | hnew
        · exact hepisodes episode hold
        · rw [List.mem_singleton.mp hnew]
          exact hnext
      · exact hepisodes
    | false =>
      rw [hdone] at hrest
      rw [if_neg Bool.false_ne_true]
      refine ih ?_ hnext hepisodes
      rw [show (segment ++ [step]).isEmpty = false by simp]
      exact hrest

end Slots

/-! ## Training without auto-reset -/

section Flow

variable {n : ℕ} {env : SharedEnv n} {fit : FitState (Option LanePosition)}
  {state : RecordState (Option LanePosition)}
  {waiting : List (List (Episode (Option LanePosition)))}
  {window : List (Episode (Option LanePosition))}

theorem EnvSound.reset_off (hsound : EnvSound env) (mode : EnvMode)
    (resetEval : Bool) :
    EnvSound (env.reset false mode resetEval) ∧
      Rested (env.reset false mode resetEval) := by
  constructor
  · apply hsound.reset
    exact nofun
  · exact hsound.rested mode rfl

theorem EnvSound.run_rested (hsound : EnvSound env) (hrested : Rested env)
    (autoReset : Bool) (mode : EnvMode) (answer : SimAnswer) :
    EnvSound (env.run autoReset mode answer).2 := by
  apply hsound.run mode answer hrested.laneFrames
  intro e step hstep hlane hepisode
  have hlt := hrested.fresh e step hstep hlane
  omega

/-- The windows that wait begin with their environments, and nothing is left
in the buffer of a trainer that goes on. -/
structure ReplayFresh (n : ℕ)
    (waiting : List (List (Episode (Option LanePosition))))
    (fit : FitState (Option LanePosition)) : Prop where
  autoReset : fit.buffer.autoReset = false
  buffer : ∀ buffers, fit.buffer.lanes = some buffers → buffers.length = n
  windows : ∀ window ∈ waiting, window.length = n ∧
    ∀ row ∈ window, BeginsFresh row ∧ SilentAfterEnd row
  empty : fit.failed = false → ∀ lane < n, fit.lane lane = []
  episodes : ∀ episode ∈ fit.episodes, BeginsFresh episode

structure RecordsFresh (state : RecordState (Option LanePosition)) : Prop where
  segments : state.segments = none
  records : ∀ record ∈ state.records, BeginsFresh record

theorem replayFresh_initial (n : ℕ) : ReplayFresh n [] (.initial false) := by
  constructor
  · rfl
  · exact nofun
  · simp
  · exact fun _ _ _ => rfl
  · exact nofun

theorem recordsFresh_initial : RecordsFresh .initial := by
  constructor
  · rfl
  · exact nofun

theorem ReplayFresh.clear (hreplay : ReplayFresh n waiting fit) :
    ReplayFresh n waiting fit.clear := by
  constructor
  · exact hreplay.autoReset
  · intro buffers hbuffers
    simp only [FitState.clear, EpisodeBuffer.clear,
      Option.map_eq_some_iff] at hbuffers
    obtain ⟨before, hbefore, rfl⟩ := hbuffers
    rw [List.length_map, hreplay.buffer before hbefore]
  · exact hreplay.windows
  · exact fun _ lane _ => fit.clear_lane lane
  · exact hreplay.episodes

theorem ReplayFresh.ingest (hreplay : ReplayFresh n (window :: waiting) fit)
    (halive : fit.failed = false) :
    ReplayFresh n waiting (fit.ingest window) := by
  obtain ⟨hwindow, hrows⟩ := hreplay.windows window (List.mem_cons_self ..)
  have hrest : ∀ other ∈ waiting, other.length = n ∧
      ∀ row ∈ other, BeginsFresh row ∧ SilentAfterEnd row :=
    fun other hother => hreplay.windows other (List.mem_cons_of_mem _ hother)
  obtain ⟨buffers, hlength, hlane, hingest⟩ :=
    @EpisodeBuffer.ingest_rows _ fit.buffer window (by
      intro buffers hbuffers
      rw [hreplay.buffer buffers hbuffers, hwindow])
  let left := (List.zipWith EpisodeBuffer.ingestLane buffers window).map
    Prod.fst
  have hleft : ∀ after, some left = some after → after.length = n := by
    rintro after ⟨⟩
    simp [left, hlength, hwindow]
  have hrefused : fit.buffer.autoReset = true → False := by
    rw [hreplay.autoReset]
    simp
  rw [FitState.ingest, hingest]
  by_cases hfinished : EpisodeBuffer.unfinished left = []
  · rw [require_of (.inr hfinished)]
    constructor
    · exact hreplay.autoReset
    · exact hleft
    · exact hrest
    · intro _ lane hlt
      have hempty := EpisodeBuffer.unfinished_eq_nil.mp hfinished
      have hlane : lane < left.length := by
        rw [hleft left rfl]
        exact hlt
      exact (List.getD_eq_getElem _ _ hlane).trans
        (hempty _ (List.getElem_mem hlane))
    · intro episode hepisode
      rcases List.mem_append.mp hepisode with hold | hnew
      · exact hreplay.episodes episode hold
      · obtain ⟨lane, hlt, hmember⟩ := mem_zipWith_closed _ hlength hnew
        have hbuffer : fit.lane lane = [] :=
          hreplay.empty halive lane (hwindow ▸ hlt)
        obtain ⟨hbegins, honce⟩ := hrows (window.getD lane []) (by
          rw [List.getD_eq_getElem _ _ hlt]
          exact List.getElem_mem hlt)
        rw [hlane lane] at hmember
        rw [show (fit.buffer.lanes.getD []).getD lane [] = [] from hbuffer]
          at hmember
        exact honce.ingestLane hbegins episode hmember
  · have hfails : ¬ (fit.buffer.autoReset = true ∨
        EpisodeBuffer.unfinished left = []) := by
      rintro (hon | hnone)
      · exact hrefused hon
      · exact hfinished hnone
    rw [require_eq_error.mpr ⟨hfails, rfl⟩]
    constructor
    · exact hreplay.autoReset
    · exact hleft
    · exact hrest
    · intro halive
      cases halive
    · exact hreplay.episodes

theorem RecordsFresh.collect (hrecords : RecordsFresh state)
    (hwindow : ∀ row ∈ window, BeginsFresh row) :
    RecordsFresh (state.collect false window) := by
  constructor
  · exact hrecords.segments
  · intro record hrecord
    rcases List.mem_append.mp hrecord with hold | hnew
    · exact hrecords.records record hold
    · rw [hrecords.segments, Option.getD_none] at hnew
      obtain ⟨lane, hlt, hmember⟩ := mem_zipWith_closed _
        (List.length_map ..) hnew
      refine BeginsFresh.recordLane ?_ _ record hmember
      rw [List.getD_eq_getElem _ _ hlt]
      exact hwindow _ (List.getElem_mem hlt)

/-- The process and the trainer between the calls, without auto-reset. -/
structure RestedFlow
    (entries : List (ClusterEvent Unit (List (Episode (Option LanePosition)))))
    (env : SharedEnv n)
    (waiting : List (List (Episode (Option LanePosition)))) : Prop where
  sound : EnvSound env
  rested : Rested env
  replay : ReplayFresh n waiting (fitAfter false entries)
  records : RecordsFresh (recordsAfter false entries)

/-! ## Training with auto-reset -/

/-- The buffered steps and the windows that wait lead to the environments. -/
structure ReplayOngoing (env : SharedEnv n)
    (waiting : List (List (Episode (Option LanePosition))))
    (fit : FitState (Option LanePosition)) : Prop where
  autoReset : fit.buffer.autoReset = true
  alive : fit.failed = false
  buffer : ∀ buffers, fit.buffer.lanes = some buffers → buffers.length = n
  windows : ∀ window ∈ waiting, window.length = n
  begins : ∀ e : Fin n, BeginsFresh (fit.lane e)
  leads : ∀ e : Fin n, Begins (fit.lane e).isEmpty (waitingSteps waiting e)
    (env.lanes e).position
  episodes : ∀ episode ∈ fit.episodes, BeginsFresh episode

structure RecordsOngoing (env : SharedEnv n)
    (state : RecordState (Option LanePosition)) : Prop where
  segments : ∀ segments, state.segments = some segments → segments.length = n
  begins : ∀ e : Fin n, BeginsFresh (state.segment e)
  leads : ∀ e : Fin n, Begins (state.segment e).isEmpty []
    (env.lanes e).position
  records : ∀ record ∈ state.records, BeginsFresh record

structure OngoingFlow
    (entries : List (ClusterEvent Unit (List (Episode (Option LanePosition)))))
    (env : SharedEnv n)
    (waiting : List (List (Episode (Option LanePosition)))) : Prop where
  sound : EnvSound env
  ongoing : Ongoing env
  replay : ReplayOngoing env waiting (fitAfter true entries)
  records : RecordsOngoing env (recordsAfter true entries)

section Ongoing

variable {answer : SimAnswer}

theorem replayOngoing_initial (n : ℕ) :
    ReplayOngoing (.initial n) [] (.initial true) := by
  constructor
  · rfl
  · rfl
  · exact nofun
  · simp
  · exact fun _ => beginsFresh_nil
  · exact fun _ _ => rfl
  · exact nofun

theorem recordsOngoing_initial (n : ℕ) :
    RecordsOngoing (.initial n) .initial := by
  constructor
  · exact nofun
  · exact fun _ => beginsFresh_nil
  · exact fun _ _ => rfl
  · exact nofun

/-- Environments that stay where they are or begin an episode. -/
def Moves (env next : SharedEnv n) : Prop :=
  ∀ e, (next.lanes e).position = (env.lanes e).position ∨
    (next.lanes e).position = (env.lanes e).position.reset

theorem Begins.moves {e : Fin n} (hmoves : Moves env next)
    (hbegins : Begins closed steps (env.lanes e).position) :
    Begins closed steps (next.lanes e).position := by
  rcases hmoves e with hsame | hreset
  · rw [hsame]
    exact hbegins
  · rw [hreset]
    exact hbegins.reset

theorem ReplayOngoing.moves (hreplay : ReplayOngoing env waiting fit)
    (hmoves : Moves env next) : ReplayOngoing next waiting fit :=
  ⟨hreplay.autoReset, hreplay.alive, hreplay.buffer, hreplay.windows,
    hreplay.begins, fun e => (hreplay.leads e).moves hmoves,
    hreplay.episodes⟩

theorem RecordsOngoing.moves (hrecords : RecordsOngoing env state)
    (hmoves : Moves env next) : RecordsOngoing next state :=
  ⟨hrecords.segments, hrecords.begins,
    fun e => (hrecords.leads e).moves hmoves, hrecords.records⟩

theorem SharedEnv.run_position (autoReset : Bool) (mode : EnvMode)
    (answer : SimAnswer) (env : SharedEnv n) (e : Fin n) :
    ((env.run autoReset mode answer).2.lanes e).position =
      ((env.lanes e).run autoReset (answer.getD e [])).lane.position :=
  (BoundaryLane.finishRollout_same autoReset _).1

theorem SharedEnv.run_row (autoReset : Bool) (mode : EnvMode)
    (answer : SimAnswer) (env : SharedEnv n) (e : Fin n) :
    (env.run autoReset mode answer).1.getD e [] =
      ((env.lanes e).run autoReset (answer.getD e [])).slots := by
  simp [SharedEnv.run, List.getD_eq_getElem?_getD]

theorem Ongoing.run (hongoing : Ongoing env) (answer : SimAnswer) :
    Ongoing (env.run true .train answer).2 := by
  constructor
  · intro e
    refine (BoundaryLane.finishRollout_same true _).2.trans ?_
    exact (@BoundaryLane.run_begins _ false (hongoing.settled e) (by simp) _).2
  · intro e
    exact ((hongoing.frames e).run _).2.finishRollout.2
  · exact hongoing.mode
  · exact hongoing.previous
  · intro step hstep
    rcases SharedEnv.mem_run_steps.mp hstep with hold | ⟨_, _, hnew⟩
    · exact hongoing.steps step hold
    · exact hnew

theorem ReplayOngoing.run (hreplay : ReplayOngoing env waiting fit)
    (hongoing : Ongoing env) (answer : SimAnswer) :
    ReplayOngoing (env.run true .train answer).2
      (waiting ++ [(env.run true .train answer).1]) fit := by
  constructor
  · exact hreplay.autoReset
  · exact hreplay.alive
  · exact hreplay.buffer
  · intro window hwindow
    rcases List.mem_append.mp hwindow with hold | hnew
    · exact hreplay.windows window hold
    · rw [List.mem_singleton.mp hnew]
      exact List.length_ofFn
  · exact hreplay.begins
  · intro e
    rw [waitingSteps_append, SharedEnv.run_row, SharedEnv.run_position]
    exact (hreplay.leads e).run (hongoing.settled e) _
  · exact hreplay.episodes

theorem ReplayOngoing.ingest
    (hreplay : ReplayOngoing env (window :: waiting) fit) :
    ReplayOngoing env waiting (fit.ingest window) := by
  have hwindow : window.length = n :=
    hreplay.windows window (List.mem_cons_self ..)
  have hingested : fit.Ingested (fit.ingest window) window := by
    apply FitState.ingested hreplay.autoReset
    intro buffers hbuffers
    rw [hreplay.buffer buffers hbuffers, hwindow]
  have hsegments := fun e : Fin n => @Begins.segments
    (window.getD e []) (waitingSteps waiting e) (fit.lane e)
    (env.lanes e).position (fun segment => decide (1 < segment.length)) []
    (by
      rw [← waitingSteps_cons]
      exact hreplay.leads e)
    (hreplay.begins e) (by simp)
  rw [← ingestStep_eq] at hsegments
  have hlane : ∀ e : Fin n, (fit.ingest window).lane e =
      (EpisodeBuffer.ingestLane (fit.lane e) (window.getD e [])).1 :=
    fun e => hingested.lane e (hwindow.symm ▸ e.isLt)
  constructor
  · rw [hingested.autoReset]
    exact hreplay.autoReset
  · rw [hingested.failed]
    exact hreplay.alive
  · intro after hafter
    rw [hingested.buffer after hafter, hwindow]
  · intro other hother
    exact hreplay.windows other (List.mem_cons_of_mem _ hother)
  · intro e
    rw [hlane e]
    exact (hsegments e).2.1
  · intro e
    rw [hlane e]
    exact (hsegments e).1
  · intro episode hepisode
    rcases hingested.episodes episode hepisode with hold | hnew
    · exact hreplay.episodes episode hold
    · obtain ⟨lane, hlt, hmember⟩ := hnew
      exact (hsegments ⟨lane, hwindow ▸ hlt⟩).2.2 episode hmember

theorem RecordsOngoing.collect (hrecords : RecordsOngoing env state)
    (hongoing : Ongoing env) (answer : SimAnswer) :
    RecordsOngoing (env.run true .train answer).2
      (state.collect true (env.run true .train answer).1) := by
  have hwindow : (env.run true .train answer).1.length = n := List.length_ofFn
  let segments := state.segments.getD
    ((env.run true .train answer).1.map fun _ => [])
  have hlength : segments.length = (env.run true .train answer).1.length := by
    cases hcase : state.segments with
    | none => simp [segments, hcase]
    | some others =>
      simp only [segments, hcase, Option.getD_some, hwindow]
      exact hrecords.segments others hcase
  have hsegment : ∀ e : Fin n, segments.getD e [] = state.segment e := by
    intro e
    cases hcase : state.segments with
    | none =>
      simp only [segments, RecordState.segment, hcase, Option.getD_none,
        List.getD_eq_getElem?_getD, List.getElem?_map]
      cases (env.run true .train answer).1[(e : ℕ)]? <;> rfl
    | some others =>
      simp only [segments, RecordState.segment, hcase, Option.getD_some]
  have hcollected := fun e : Fin n => @Begins.segments
    ((env.lanes e).run true (answer.getD e [])).slots [] (state.segment e)
    ((env.lanes e).run true (answer.getD e [])).lane.position
    (fun _ => true) []
    (by
      rw [List.append_nil]
      exact (hrecords.leads e).run (hongoing.settled e) _)
    (hrecords.begins e) (by simp)
  have hleft : ∀ e : Fin n,
      (state.collect true (env.run true .train answer).1).segment e =
        (((env.lanes e).run true (answer.getD e [])).slots.foldl
          (segmentStep fun _ => true) (state.segment e, [])).1 := by
    intro e
    refine (zipWith_left _ hlength e (hwindow.symm ▸ e.isLt)).trans ?_
    rw [hsegment e, SharedEnv.run_row]
    rfl
  constructor
  · rintro after ⟨⟩
    simp only [List.length_map, List.length_zipWith]
    rw [show (state.segments.getD _).length = _ from hlength, hwindow,
      Nat.min_self]
  · intro e
    rw [hleft e]
    exact (hcollected e).2.1
  · intro e
    rw [hleft e, SharedEnv.run_position]
    exact (hcollected e).1
  · intro record hrecord
    rcases List.mem_append.mp hrecord with hold | hnew
    · exact hrecords.records record hold
    · obtain ⟨lane, hlt, hmember⟩ := mem_zipWith_closed _ hlength hnew
      have hsame := hsegment ⟨lane, hwindow ▸ hlt⟩
      have hrow := SharedEnv.run_row true .train answer env
        ⟨lane, hwindow ▸ hlt⟩
      simp only at hsame hrow
      rw [hsame, hrow] at hmember
      exact (hcollected ⟨lane, hwindow ▸ hlt⟩).2.2 record hmember

end Ongoing

/-! ## Whole runs -/

section Rules

variable
  {records : List (Episode (Option LanePosition)) → CarryState → CarryState}
  {datasets : List (Episode (Option LanePosition)) → Bool}
  {config : ClusterConfig}

/-- An evaluation fails only before its first wave, and with auto-reset on
every evaluation does. -/
def boundaryConditions (autoReset : Bool) :
    FlowConditions Unit (List (Episode (Option LanePosition))) SimAnswer where
  rollout _ _ := True
  call waves fails :=
    (fails = true → waves = []) ∧ (autoReset = true → fails = true)
  windows _ := True

theorem takeReset_shared (autoReset : Bool) (rollout : RolloutState Unit)
    (env : SharedEnv n) :
    TrainCluster.takeReset (sharedWorld n autoReset records datasets) rollout
        env = ((), env) ∨
      TrainCluster.takeReset (sharedWorld n autoReset records datasets)
        rollout env = ((), env.reset autoReset .train false) := by
  unfold TrainCluster.takeReset
  cases rollout.resetFuture with
  | none => exact .inr rfl
  | some future => exact .inl rfl

theorem rolloutOnce_shared (autoReset : Bool) (stages : Option ℕ)
    (rollout : RolloutState Unit) (answer : SimAnswer) (env : SharedEnv n) :
    ∃ first, (first = env ∨ first = env.reset autoReset .train false) ∧
      let result := TrainCluster.rolloutOnce
        (sharedWorld n autoReset records datasets) config stages rollout
        answer env
      result.1.1 = (first.run autoReset .train answer).1 ∧
        (result.2 = (first.run autoReset .train answer).2.reset autoReset
            .train false ∨
          result.2 = (first.run autoReset .train answer).2.restart.reset
            autoReset .train false) := by
  obtain ⟨first, hfirst, heq⟩ : ∃ first, (first = env ∨
      first = env.reset autoReset .train false) ∧
        TrainCluster.takeReset (sharedWorld n autoReset records datasets)
          rollout env = ((), first) := by
    rcases @takeReset_shared n records datasets autoReset rollout env with
      hsame | hreset
    · exact ⟨env, .inl rfl, hsame⟩
    · exact ⟨_, .inr rfl, hreset⟩
  refine ⟨first, hfirst, ?_⟩
  simp only [TrainCluster.rolloutOnce, heq]
  refine ⟨rfl, ?_⟩
  generalize (if config.restartBetweenRollouts = true then
    rollout.rolloutsSinceSimulatorRestart + 1
    else rollout.rolloutsSinceSimulatorRestart) = rollouts
  split
  · exact .inr rfl
  · exact .inl rfl

/-! ### Without auto-reset -/

theorem RestedFlow.reset (hflow : RestedFlow entries env waiting)
    (mode : EnvMode) (resetEval : Bool) :
    RestedFlow entries (env.reset false mode resetEval) waiting := by
  obtain ⟨hsound, hrested⟩ := hflow.sound.reset_off mode resetEval
  exact ⟨hsound, hrested, hflow.replay, hflow.records⟩

theorem evalWaves_sound (hsound : EnvSound env) (first : Bool)
    (waves : List SimAnswer) :
    EnvSound (TrainCluster.evalWaves (sharedWorld n false records datasets)
      first waves env) := by
  induction waves generalizing first env with
  | nil => exact hsound
  | cons answer waves ih =>
    obtain ⟨hreset, hrested⟩ := hsound.reset_off .eval first
    exact ih (hreset.run_rested hrested false .eval answer) false

theorem Rested.rows (hrested : Rested env) (mode : EnvMode)
    (answer : SimAnswer) :
    ∀ row ∈ (env.run false mode answer).1, BeginsFresh row ∧ SilentAfterEnd row := by
  intro row hrow
  obtain ⟨e, rfl⟩ := List.mem_ofFn.mp hrow
  refine ⟨?_, BoundaryLane.run_silentAfterEnd _ _⟩
  intro first hfirst
  exact ⟨_, BoundaryLane.run_head (hrested.settled e) false _ first hfirst,
    hrested.index e⟩

theorem ReplayFresh.returned (hreplay : ReplayFresh n (window :: waiting) fit)
    {entry : ClusterEvent Unit (List (Episode (Option LanePosition)))}
    (hentry : fit.failed = false → fit.follow entry = fit.ingest window)
    (hfailed : fit.failed = true → fit.follow entry = fit) :
    ReplayFresh n waiting (fit.follow entry) := by
  cases hcase : fit.failed with
  | true =>
    rw [hfailed hcase]
    exact ⟨hreplay.autoReset, hreplay.buffer,
      fun other hother => hreplay.windows other
        (List.mem_cons_of_mem _ hother),
      hreplay.empty, hreplay.episodes⟩
  | false =>
    rw [hentry hcase]
    exact hreplay.ingest hcase

theorem RestedFlow.rollout (hflow : RestedFlow entries env [])
    (answer : SimAnswer) :
    let result := env.run false .train answer
    EnvSound result.2 ∧ ReplayFresh n [result.1] (fitAfter false entries) ∧
      RecordsFresh ((recordsAfter false entries).collect false result.1) := by
  have hrows := hflow.rested.rows .train answer
  refine ⟨hflow.sound.run_rested hflow.rested false .train answer, ?_, ?_⟩
  · constructor
    · exact hflow.replay.autoReset
    · exact hflow.replay.buffer
    · intro window hwindow
      rw [List.mem_singleton.mp hwindow]
      exact ⟨List.length_ofFn, hrows⟩
    · exact hflow.replay.empty
    · exact hflow.replay.episodes
  · exact hflow.records.collect fun row hrow => (hrows row hrow).1

theorem restedRules : FlowRules (sharedWorld n false records datasets) config
      (boundaryConditions false) (fun _ => True) RestedFlow := by
  constructor
  case still =>
    intro entries env waiting entry hflow hstill
    constructor
    · exact hflow.sound
    · exact hflow.rested
    · rw [fitAfter_append, FitState.follow_still hstill]
      exact hflow.replay
    · rw [recordsAfter_append, RecordState.follow_still hstill]
      exact hflow.records
  case rollout =>
    intro entries env rollout answer stages hflow _ _
    obtain ⟨first, hfirst, hwindow, hlast⟩ := @rolloutOnce_shared n records
      datasets config false stages rollout answer env
    have hstart : RestedFlow entries first [] := by
      rcases hfirst with rfl | rfl
      · exact hflow
      · exact hflow.reset .train false
    obtain ⟨hsound, hreplay, hrecords⟩ := hstart.rollout answer
    have hfinal : EnvSound (TrainCluster.rolloutOnce
          (sharedWorld n false records datasets) config stages rollout answer
          env).2 ∧
        Rested (TrainCluster.rolloutOnce
          (sharedWorld n false records datasets) config stages rollout answer
          env).2 := by
      rcases hlast with hreset | hrestart
      · rw [hreset]
        exact hsound.reset_off .train false
      · rw [hrestart]
        exact hsound.restart.reset_off .train false
    refine ⟨trivial, ?_, ?_⟩
    · intro task
      refine ⟨hfinal.1, hfinal.2, ?_, ?_⟩
      · rw [fitAfter_append, FitState.follow_finished, hwindow]
        exact hreplay
      · rw [recordsAfter_append, hwindow]
        exact hrecords
    · refine ⟨hfinal.1, hfinal.2, ?_, ?_⟩
      · rw [fitAfter_append, hwindow]
        exact hreplay.returned
          (fun halive => FitState.follow_returnedSync halive _)
          FitState.follow_failed
      · rw [recordsAfter_append, hwindow]
        exact hrecords
  case returned =>
    intro entries env window task hflow
    refine ⟨hflow.sound, hflow.rested, ?_, ?_⟩
    · rw [fitAfter_append]
      exact hflow.replay.returned
        (fun halive => FitState.follow_returned halive task _)
        FitState.follow_failed
    · rw [recordsAfter_append]
      exact hflow.records
  case evaluated =>
    intro entries env waiting waves hflow _ _
    refine ⟨trivial, ?_⟩
    have hsound := @evalWaves_sound n env records datasets hflow.sound true
      waves
    obtain ⟨hlast, hrested⟩ := hsound.reset_off .train false
    refine ⟨hlast, hrested, ?_, ?_⟩
    · rw [fitAfter_append]
      cases hcase : (fitAfter false entries).failed with
      | true =>
        rw [FitState.follow_failed hcase]
        exact hflow.replay
      | false =>
        rw [FitState.follow_evaluated hcase]
        exact hflow.replay.clear
    · rw [recordsAfter_append]
      exact ⟨rfl, hflow.records.records⟩
  case failed =>
    intro waves hcall
    exact hcall.1 rfl
  case quiet => trivial

/-! ### With auto-reset -/

theorem moves_reset (autoReset : Bool) (mode : EnvMode) (resetEval : Bool)
    (env : SharedEnv n) : Moves env (env.reset autoReset mode resetEval) :=
  SharedEnv.reset_position autoReset mode resetEval env

theorem OngoingFlow.reset (hflow : OngoingFlow entries env waiting) :
    OngoingFlow entries (env.reset true .train false) waiting := by
  constructor
  · apply hflow.sound.reset
    intro _ previous hprevious
    exact hflow.ongoing.previous previous hprevious
  · exact hflow.ongoing.reset
  · exact hflow.replay.moves (moves_reset true .train false env)
  · exact hflow.records.moves (moves_reset true .train false env)

theorem OngoingFlow.restart (hflow : OngoingFlow entries env waiting) :
    OngoingFlow entries (env.restart.reset true .train false) waiting := by
  have hmoves : Moves env (env.restart.reset true .train false) :=
    moves_reset true .train false env.restart
  have hsound := hflow.sound.restart
  constructor
  · apply hsound.reset
    exact nofun
  · constructor
    · exact fun _ => rfl
    · exact fun _ => laneFrames_envReset _
    · rfl
    · intro mode hmode
      cases hmode
      rfl
    · exact hflow.ongoing.steps
  · exact hflow.replay.moves hmoves
  · exact hflow.records.moves hmoves

theorem ongoingRules : FlowRules (sharedWorld n true records datasets) config
      (boundaryConditions true) (fun _ => True) OngoingFlow := by
  constructor
  case still =>
    intro entries env waiting entry hflow hstill
    constructor
    · exact hflow.sound
    · exact hflow.ongoing
    · rw [fitAfter_append, FitState.follow_still hstill]
      exact hflow.replay
    · rw [recordsAfter_append, RecordState.follow_still hstill]
      exact hflow.records
  case rollout =>
    intro entries env rollout answer stages hflow _ _
    obtain ⟨first, hfirst, hwindow, hlast⟩ := @rolloutOnce_shared n records
      datasets config true stages rollout answer env
    have hstart : OngoingFlow entries first [] := by
      rcases hfirst with rfl | rfl
      · exact hflow
      · exact hflow.reset
    have hsound : EnvSound (first.run true .train answer).2 := by
      apply hstart.sound.run .train answer hstart.ongoing.frames
      intro _ step hstep _ _
      exact hstart.ongoing.steps step hstep
    have hreplay := hstart.replay.run hstart.ongoing answer
    have hrecords := hstart.records.collect hstart.ongoing answer
    have hdone : ∀ {later : List (ClusterEvent Unit
        (List (Episode (Option LanePosition))))} {waiting},
        OngoingFlow later (first.run true .train answer).2 waiting →
        OngoingFlow later (TrainCluster.rolloutOnce
          (sharedWorld n true records datasets) config stages rollout answer
          env).2 waiting := by
      intro later waiting hrun
      rcases hlast with hreset | hrestart
      · rw [hreset]
        exact hrun.reset
      · rw [hrestart]
        exact hrun.restart
    refine ⟨trivial, ?_, ?_⟩
    · intro task
      apply hdone
      refine ⟨hsound, hstart.ongoing.run answer, ?_, ?_⟩
      · rw [fitAfter_append, FitState.follow_finished, hwindow]
        exact hreplay
      · rw [recordsAfter_append, hwindow]
        exact hrecords
    · apply hdone
      refine ⟨hsound, hstart.ongoing.run answer, ?_, ?_⟩
      · rw [fitAfter_append, hwindow,
          FitState.follow_returnedSync hstart.replay.alive]
        exact hreplay.ingest
      · rw [recordsAfter_append, hwindow]
        exact hrecords
  case returned =>
    intro entries env window task hflow
    refine ⟨hflow.sound, hflow.ongoing, ?_, ?_⟩
    · rw [fitAfter_append, FitState.follow_returned hflow.replay.alive]
      exact hflow.replay.ingest
    · rw [recordsAfter_append]
      exact hflow.records
  case evaluated =>
    intro entries env waiting waves _ hcall _
    cases hcall.2 rfl
  case failed =>
    intro waves hcall
    exact hcall.1 rfl
  case quiet => trivial

/-- The boundary between the modes: a reset in another mode resets the
environments, no simulated episode is stepped in both modes, and recorded
episodes, trajectory records and replayed episodes begin with the first step
after a reset. -/
structure BoundaryKept (autoReset : Bool)
    (entries : List (ClusterEvent Unit (List (Episode (Option LanePosition)))))
    (env : SharedEnv n) : Prop where
  resets : ∀ call ∈ env.resets, call.ModeReset
  uniform : Uniform env.steps
  recorded : ∀ frames ∈ env.recorded, FramesBegin frames
  records : ∀ record ∈ (recordsAfter autoReset entries).records,
    BeginsFresh record
  replay : ∀ episode ∈ (fitAfter autoReset entries).episodes,
    BeginsFresh episode

/-- The boundary is kept if auto-reset is off or no evaluation is run. -/
theorem mode_boundary_kept {autoReset asyncRollout : Bool}
    {final : TrainCluster (SharedEnv n) Unit
      (List (Episode (Option LanePosition))) SimAnswer}
    {events : List (Event (TrainCluster (SharedEnv n) Unit
        (List (Episode (Option LanePosition))) SimAnswer)
      (ClusterLabel SimAnswer)
      (List (ClusterEvent Unit (List (Episode (Option LanePosition))))))}
    (hrun : Run (TrainCluster.machine
      (sharedWorld n autoReset records datasets) config)
      (TrainCluster.start (.initial n)) events final)
    (hflow : ∀ event ∈ events, FlowStep (boundaryConditions autoReset)
      asyncRollout event.before event.label) :
    BoundaryKept autoReset (log events) final.world := by
  cases autoReset with
  | true =>
      have hkept := (flowInv_of_run ongoingRules hrun hflow
        ⟨envSound_initial n, ongoing_initial n, replayOngoing_initial n,
          recordsOngoing_initial n⟩).windows.kept
      exact ⟨hkept.sound.resets, hkept.sound.uniform, hkept.sound.recorded,
        hkept.records.records, hkept.replay.episodes⟩
  | false =>
      have hkept := (flowInv_of_run restedRules hrun hflow
        ⟨envSound_initial n, rested_initial n, replayFresh_initial n,
          recordsFresh_initial⟩).windows.kept
      exact ⟨hkept.sound.resets, hkept.sound.uniform, hkept.sound.recorded,
        hkept.records.records, hkept.replay.episodes⟩

end Rules

end Flow

/-! ## An evaluation between two rollouts -/

section Decide

instance : DecidablePred ResetCall.ModeReset := fun call =>
  decidable_of_iff (∀ mode ∈ call.previous,
      mode ≠ call.mode → call.executed = true) Iff.rfl

instance : DecidablePred Uniform := fun steps =>
  inferInstanceAs (Decidable (∀ step ∈ steps, ∀ other ∈ steps, _ → _ → _))

instance : DecidablePred FramesBegin := fun frames =>
  inferInstanceAs (Decidable (∀ first ∈ frames.head?, first.index = 0))

instance : DecidablePred BeginsFresh := fun steps =>
  inferInstanceAs (Decidable (∀ first ∈ steps.head?,
    ∃ position ∈ first.data, position.index = 0))

end Decide

/-- One environment: a window, an evaluation of one wave, and a window. -/
def evalInTraining : List (ClusterLabel SimAnswer) :=
  [.rollout false none [[stepAnswer false, stepAnswer true]], .train,
    .eval [[[stepAnswer false]]] false,
    .rollout false none [[stepAnswer false, stepAnswer true]], .train]

/-- With auto-reset the second window goes on with the episode of the
evaluation, and all that is made of it begins there. -/
theorem training_continues_evaluation : ∃ events final,
      Run (TrainCluster.machine
        (sharedWorld 1 true (fun _ carry => carry) fun _ => false)
        TrainCluster.separateModel) (TrainCluster.start (.initial 1)) events
        final ∧
      events.map Event.label = evalInTraining ∧
      (¬ ∀ call ∈ final.world.resets, call.ModeReset) ∧
      ¬ Uniform final.world.steps ∧
      (¬ ∀ frames ∈ final.world.recorded, FramesBegin frames) ∧
      (¬ ∀ record ∈ (recordsAfter true (log events)).records,
        BeginsFresh record) ∧
      ¬ ∀ episode ∈ (fitAfter true (log events)).episodes,
        BeginsFresh episode := by
  have hcheck : ((TrainCluster.machine
      (sharedWorld 1 true (fun _ carry => carry) fun _ => false)
      TrainCluster.separateModel).exec (TrainCluster.start (.initial 1))
        evalInTraining).map (fun result => decide (
          (¬ ∀ call ∈ result.2.world.resets, call.ModeReset) ∧
          ¬ Uniform result.2.world.steps ∧
          (¬ ∀ frames ∈ result.2.world.recorded, FramesBegin frames) ∧
          (¬ ∀ record ∈ (recordsAfter true (log result.1)).records,
            BeginsFresh record) ∧
          ¬ ∀ episode ∈ (fitAfter true (log result.1)).episodes,
            BeginsFresh episode)) = some true := by
    decide +kernel
  obtain ⟨⟨events, final⟩, hexec, hresult⟩ := Option.map_eq_some_iff.mp hcheck
  exact ⟨events, final, Machine.run_of_exec hexec,
    Machine.labels_of_exec hexec, of_decide_eq_true hresult⟩

theorem evalInTraining_flow (hlabel : label ∈ evalInTraining)
    (cluster : TrainCluster (SharedEnv 1) Unit
      (List (Episode (Option LanePosition))) SimAnswer) :
    FlowStep (boundaryConditions false) false cluster label := by
  simp only [evalInTraining, List.mem_cons, List.not_mem_nil,
    or_false] at hlabel
  rcases hlabel with rfl | rfl | rfl | rfl | rfl
  all_goals constructor
  all_goals simp [OneKind, FlowConditions.Rollouts, FlowConditions.Calls,
    boundaryConditions]

theorem mode_boundary_kept_around_eval : ∃ events final,
      Run (TrainCluster.machine
        (sharedWorld 1 false (fun _ carry => carry) fun _ => false)
        TrainCluster.separateModel) (TrainCluster.start (.initial 1)) events
        final ∧
      BoundaryKept false (log events) final.world := by
  have hexec : ((TrainCluster.machine
      (sharedWorld 1 false (fun _ carry => carry) fun _ => false)
      TrainCluster.separateModel).exec (TrainCluster.start (.initial 1))
        evalInTraining).isSome := by
    decide +kernel
  obtain ⟨⟨events, final⟩, hexec⟩ := Option.isSome_iff_exists.mp hexec
  have hrun := Machine.run_of_exec hexec
  refine ⟨events, final, hrun, ?_⟩
  apply @mode_boundary_kept 1 (fun _ carry => carry) (fun _ => false)
    TrainCluster.separateModel false false final events hrun
  intro event hevent
  apply evalInTraining_flow
  rw [← Machine.labels_of_exec hexec]
  exact List.mem_map_of_mem hevent

end VerlVla
