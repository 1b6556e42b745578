import VerlVla.ResetRuns
import VerlVla.TeleopController

/-!
# Operator commands take effect

A command popped for a live environment sets a flag of the control tick.  If
the tick does not skip the environment, the next step executed for it belongs
to the same tick and carries the flag.  A stop is applied after a manual
success, so it wins where both were popped.
-/

namespace VerlVla
namespace BaseEnv

variable {n : ℕ} {A O : Type}

/-! ## The next step of an environment -/

/-- What a call does to one environment. -/
inductive Touch (O : Type)
  | stepped (row : StepRow O)
  | reset

def BackendCall.touch (e : Fin n) : BackendCall n A O → Option (Touch O)
  | .step envIds _ _ _ result =>
    if envIds e then some (.stepped (result e)) else none
  | .reset envIds => if e ∈ envIds then some .reset else none

def firstTouch (e : Fin n) (calls : List (BackendCall n A O)) :
    Option (Touch O) :=
  calls.findSome? (BackendCall.touch e)

def FirstStep (e : Fin n) (mark : StepRow O → Prop)
    (calls : List (BackendCall n A O)) : Prop :=
  match firstTouch e calls with
  | some (.stepped row) => mark row
  | _ => False

instance (e : Fin n) (mark : StepRow O → Prop) [DecidablePred mark]
    (calls : List (BackendCall n A O)) : Decidable (FirstStep e mark calls) :=
  match h : firstTouch e calls with
  | some (.stepped row) => decidable_of_iff (mark row) (by simp [FirstStep, h])
  | some .reset => isFalse (by simp [FirstStep, h])
  | none => isFalse (by simp [FirstStep, h])

theorem FirstStep.prepend {e : Fin n} (hnone : firstTouch e earlier = none)
    (hfirst : FirstStep e mark calls) :
    FirstStep e mark (earlier ++ calls) := by
  have hsame : firstTouch e (earlier ++ calls) = firstTouch e calls := by
    rw [firstTouch, List.findSome?_append, ← firstTouch, hnone]
    rfl
  unfold FirstStep
  rw [hsame]
  exact hfirst

theorem FirstStep.append {e : Fin n} (hfirst : FirstStep e mark calls)
    (later : List (BackendCall n A O)) :
    FirstStep e mark (calls ++ later) := by
  unfold FirstStep at hfirst ⊢
  cases htouch : firstTouch e calls with
  | none =>
    rw [htouch] at hfirst
    exact hfirst.elim
  | some touch =>
    have hsame : firstTouch e (calls ++ later) = some touch := by
      rw [firstTouch, List.findSome?_append, ← firstTouch, htouch]
      rfl
    rw [hsame]
    rwa [htouch] at hfirst

def MarkedSuccess (row : StepRow O) : Prop :=
  row.terminated = true ∧ row.success = true ∧ row.truncated = false ∧
    row.reward = 1

def MarkedTruncated (row : StepRow O) : Prop :=
  row.truncated = true ∧ row.success = false ∧ row.terminated = false ∧
    row.reward = 0

instance : DecidablePred (MarkedSuccess : StepRow O → Prop) :=
  fun row => inferInstanceAs (Decidable (row.terminated = true ∧ _ ∧ _ ∧ _))

instance : DecidablePred (MarkedTruncated : StepRow O → Prop) :=
  fun row => inferInstanceAs (Decidable (row.truncated = true ∧ _ ∧ _ ∧ _))

def Marked (stopped : Prop) (row : StepRow O) : Prop :=
  (stopped → MarkedTruncated row) ∧ (¬stopped → MarkedSuccess row)

theorem Marked.done {stopped : Prop} (hmarked : Marked stopped row) :
    row.done = true := by
  by_cases hstopped : stopped
  · simp [StepRow.done, (hmarked.1 hstopped).1]
  · simp [StepRow.done, (hmarked.2 hstopped).1]

theorem marked_of_flags {e : Fin n} (result : Fin n → StepRow O)
    (hflag : tick.forceTruncated e = true ∨ tick.manualReward e = true) :
    Marked (tick.forceTruncated e = true)
      (applyManualStepOverrides tick result e) := by
  constructor
  · intro hstop
    simp [MarkedTruncated, applyManualStepOverrides, applyForceTruncated,
      hstop]
  · intro hstop
    have hmanual : tick.manualReward e = true := by
      rcases hflag with hforce | hmanual
      · exact absurd hforce hstop
      · exact hmanual
    simp [MarkedSuccess, applyManualStepOverrides, applyForceTruncated,
      applyManualReward, hstop, hmanual]

/-! ## The calls of a tick -/

/-- The calls made until a computation returned or raised. -/
def callsOf {β : Type} : Except (Raised n A O) (EnvState n A O × β) →
    List (BackendCall n A O)
  | .ok next => next.1.calls
  | .error raised => raised.calls

def selectedCalls (tick : TickState n A)
    (executeMask isIntervention : Mask n) (reply : Fin n → StepRow O) :
    List (BackendCall n A O) :=
  if executeMask.any then
    [.step executeMask tick.action isIntervention reply
      (applyManualStepOverrides tick reply)]
  else []

section Selected

variable {env : EnvState n A O} {tick : TickState n A} {e : Fin n}

theorem callsOf_stepSelected :
    callsOf (stepSelected env tick executeMask isIntervention reply) =
      env.calls ++ selectedCalls tick executeMask isIntervention reply := by
  unfold stepSelected selectedCalls
  split_ifs
  · cases hstep : maskStep env tick executeMask isIntervention reply with
    | ok next =>
      obtain ⟨next, nextTick⟩ := next
      obtain ⟨rfl, _⟩ := maskStep_eq_ok hstep
      rfl
    | error raised => exact maskStep_eq_error hstep
  · exact (List.append_nil _).symm

theorem stepSelected_tick
    (hstep : stepSelected env tick executeMask isIntervention reply =
      .ok next) :
    next.2 = { tick with
      done := fun e => tick.done e ||
        (executeMask e && (applyManualStepOverrides tick reply e).done) } := by
  obtain ⟨next, nextTick⟩ := next
  unfold stepSelected at hstep
  split_ifs at hstep with hany
  · exact (maskStep_eq_ok hstep).2
  · cases hstep
    have hnone : ∀ e, executeMask e = false := by
      intro e
      by_contra hselected
      exact hany (any_iff.mpr ⟨e, by simpa using hselected⟩)
    simp [hnone]

theorem firstTouch_selectedCalls_of_mem (he : executeMask e = true) :
    firstTouch e (selectedCalls tick executeMask isIntervention reply) =
      some (.stepped (applyManualStepOverrides tick reply e)) := by
  have hany : executeMask.any = true := any_iff.mpr ⟨e, he⟩
  simp [selectedCalls, hany, firstTouch, BackendCall.touch, he]

theorem firstTouch_selectedCalls_of_not_mem (he : executeMask e = false) :
    firstTouch e (selectedCalls tick executeMask isIntervention reply) =
      none := by
  unfold selectedCalls
  split_ifs
  · simp [firstTouch, BackendCall.touch, he]
  · rfl

theorem callsOf_finishTick : callsOf (finishTick env tick reply) = env.calls ++
      selectedCalls tick tick.executeMask tick.isIntervened reply := by
  rw [← callsOf_stepSelected]
  unfold finishTick
  cases stepSelected env tick tick.executeMask tick.isIntervened reply with
  | error raised => rfl
  | ok next =>
    show callsOf (publishStep next.1 next.2) = next.1.calls
    unfold publishStep
    cases next.1.mergedStepResult <;> rfl

end Selected

/-! ## The polls of a tick -/

structure ReadPoll (n : ℕ) (A O : Type) where
  env : EnvState n A O
  tick : TickState n A
  poll : Poll n A O

def readPolls (env : EnvState n A O) (tick : TickState n A) :
    List (Poll n A O) → List (ReadPoll n A O)
  | [] => []
  | poll :: polls =>
    ⟨env, tick, poll⟩ :: match pollTeleops env tick poll with
      | .ok (.polling env tick) => readPolls env tick polls
      | _ => []

def ReadPoll.Pops (read : ReadPoll n A O) (command : RecordCommand)
    (e : Fin n) : Prop :=
  read.tick.done e = false ∧ (read.poll.commands e).pops command = true

instance (read : ReadPoll n A O) (command : RecordCommand) (e : Fin n) :
    Decidable (read.Pops command e) :=
  inferInstanceAs (Decidable (_ ∧ _))

def ReadPoll.Intervenes (read : ReadPoll n A O) (e : Fin n) : Prop :=
  read.tick.interventionMask read.poll e = true

instance (read : ReadPoll n A O) (e : Fin n) : Decidable (read.Intervenes e) :=
  inferInstanceAs (Decidable (_ = true))

def polledTick (tick : TickState n A) (poll : Poll n A O) : TickState n A :=
  let read := tick.readCommands poll
  let mask := tick.interventionMask poll
  ({ read with
      done := fun e => read.done e || (read.isIntervened e && mask e &&
        (applyManualStepOverrides read poll.reply e).done) } :
    TickState n A).takeOver poll mask

def polledCalls (tick : TickState n A) (poll : Poll n A O) :
    List (BackendCall n A O) :=
  selectedCalls (tick.readCommands poll)
    (fun e => tick.isIntervened e && tick.interventionMask poll e)
    (tick.interventionMask poll) poll.reply

/-- One round of the teleop loop, seen from its result and from the polls that
are read. -/
inductive LoopStep (env : EnvState n A O) (tick : TickState n A)
    (reply : Fin n → StepRow O) (poll : Poll n A O)
    (polls : List (Poll n A O)) :
    Except (Raised n A O) (EnvState n A O × StepFeedback n) →
    List (ReadPoll n A O) → Prop
  | finished (hquiet : ∀ e, tick.interventionMask poll e = false) :
      LoopStep env tick reply poll polls
        (finishTick env (tick.readCommands poll) poll.reply)
        [⟨env, tick, poll⟩]
  | raised {raised : Raised n A O}
      (hcalls : raised.calls = env.calls ++ polledCalls tick poll) :
      LoopStep env tick reply poll polls (.error raised) [⟨env, tick, poll⟩]
  | polled {next : EnvState n A O}
      (hcalls : next.calls = env.calls ++ polledCalls tick poll) :
      LoopStep env tick reply poll polls
        (stepWithTeleop next (polledTick tick poll) reply polls)
        (⟨env, tick, poll⟩ :: readPolls next (polledTick tick poll) polls)

theorem pollTeleops_of_any {env : EnvState n A O} {tick : TickState n A}
    {poll : Poll n A O} (hany : (tick.interventionMask poll).any = true) :
    pollTeleops env tick poll = (stepSelected env (tick.readCommands poll)
        (fun e => tick.isIntervened e && tick.interventionMask poll e)
        (tick.interventionMask poll) poll.reply).map
        fun next => .polling next.1 (polledTick tick poll) := by
  have hread :
      ((tick.readCommands poll).interventionMask poll).any = true := hany
  unfold pollTeleops
  dsimp only
  rw [if_pos hread]
  cases hstep : stepSelected env (tick.readCommands poll)
      (fun e => tick.isIntervened e && tick.interventionMask poll e)
      (tick.interventionMask poll) poll.reply with
  | error raised =>
    have hintervene : intervene env (tick.readCommands poll) poll =
        .error raised :=
      bind_eq_error.mpr (.inl hstep)
    rw [hintervene]
    rfl
  | ok next =>
    have hintervene : intervene env (tick.readCommands poll) poll =
        .ok (next.1, polledTick tick poll) := by
      apply bind_eq_ok.mpr
      refine ⟨next, hstep, ?_⟩
      rw [stepSelected_tick hstep]
      rfl
    rw [hintervene]
    rfl

theorem pollTeleops_of_quiet {env : EnvState n A O} {tick : TickState n A}
    {poll : Poll n A O} (hany : ¬(tick.interventionMask poll).any = true) :
    pollTeleops env tick poll =
      (finishTick env (tick.readCommands poll) poll.reply).map
        fun next => .finished next.1 next.2 :=
  if_neg hany

theorem loopStep (env : EnvState n A O) (tick : TickState n A)
    (reply : Fin n → StepRow O) (poll : Poll n A O)
    (polls : List (Poll n A O)) :
    LoopStep env tick reply poll polls
      (stepWithTeleop env tick reply (poll :: polls))
      (readPolls env tick (poll :: polls)) := by
  by_cases hany : (tick.interventionMask poll).any = true
  · have hpoll := @pollTeleops_of_any n A O env tick poll hany
    have hcalls : callsOf (stepSelected env (tick.readCommands poll)
        (fun e => tick.isIntervened e && tick.interventionMask poll e)
        (tick.interventionMask poll) poll.reply) =
          env.calls ++ polledCalls tick poll :=
      callsOf_stepSelected
    cases hstep : stepSelected env (tick.readCommands poll)
        (fun e => tick.isIntervened e && tick.interventionMask poll e)
        (tick.interventionMask poll) poll.reply with
    | error raised =>
      rw [hstep] at hpoll hcalls
      simp only [stepWithTeleop, readPolls, hpoll, Except.map]
      exact .raised hcalls
    | ok next =>
      rw [hstep] at hpoll hcalls
      simp only [stepWithTeleop, readPolls, hpoll, Except.map]
      exact .polled hcalls
  · have hpoll := @pollTeleops_of_quiet n A O env tick poll hany
    have hquiet : ∀ e, tick.interventionMask poll e = false := by
      intro e
      by_contra hmask
      exact hany (any_iff.mpr ⟨e, by simpa using hmask⟩)
    have hfinished : LoopStep env tick reply poll polls _ _ := .finished hquiet
    cases hfinish : finishTick env (tick.readCommands poll) poll.reply with
    | error raised | ok next =>
      rw [hfinish] at hpoll hfinished
      simp only [stepWithTeleop, readPolls, hpoll, Except.map]
      exact hfinished

/-! ## The rest of a tick -/

section Rest

variable {env : EnvState n A O} {tick : TickState n A} {poll : Poll n A O}
  {e : Fin n}

theorem callsOf_stepWithTeleop (env : EnvState n A O) (tick : TickState n A)
    (reply : Fin n → StepRow O) (polls : List (Poll n A O)) :
    ∃ later, callsOf (stepWithTeleop env tick reply polls) =
      env.calls ++ later := by
  induction polls generalizing env tick with
  | nil => exact ⟨_, callsOf_finishTick⟩
  | cons poll polls ih =>
    have hstep := loopStep env tick reply poll polls
    generalize stepWithTeleop env tick reply (poll :: polls) = outcome at hstep
    generalize readPolls env tick (poll :: polls) = reads at hstep
    cases hstep with
    | finished hquiet => exact ⟨_, callsOf_finishTick⟩
    | raised hcalls => exact ⟨_, hcalls⟩
    | @polled next hcalls =>
      obtain ⟨later, hlater⟩ := ih next (polledTick tick poll)
      refine ⟨polledCalls tick poll ++ later, ?_⟩
      rw [hlater, hcalls, List.append_assoc]

theorem done_of_readPolls (hdone : tick.done e = true) :
    ∀ read ∈ readPolls env tick polls, read.tick.done e = true := by
  induction polls generalizing env tick with
  | nil =>
    exact nofun
  | cons poll polls ih =>
    have hstep := loopStep env tick poll.reply poll polls
    generalize stepWithTeleop env tick poll.reply (poll :: polls) = outcome
      at hstep
    generalize readPolls env tick (poll :: polls) = reads at hstep
    intro read hread
    cases hstep with
    | finished hquiet | raised hcalls =>
      rw [List.mem_singleton.mp hread]
      exact hdone
    | polled hcalls =>
      rcases List.mem_cons.mp hread with rfl | hlater
      · exact hdone
      · apply ih _ read hlater
        simp [polledTick, TickState.takeOver, TickState.readCommands, hdone]

def Stopped (tick : TickState n A) (reads : List (ReadPoll n A O))
    (e : Fin n) : Prop :=
  tick.forceTruncated e = true ∨ ∃ read ∈ reads, read.Pops .stopEpisode e

def Executes (tick : TickState n A) (reads : List (ReadPoll n A O))
    (e : Fin n) : Prop :=
  tick.intervenedBeforeStep e = false ∨ tick.isIntervened e = true ∨
    ∃ read ∈ reads, read.Intervenes e

theorem readCommands_forceTruncated :
    (tick.readCommands poll).forceTruncated e = true ↔
      tick.forceTruncated e = true ∨
        (⟨env, tick, poll⟩ : ReadPoll n A O).Pops .stopEpisode e := by
  simp [TickState.readCommands, ReadPoll.Pops, TeleopCommand.pops, and_comm]

theorem readCommands_manualReward :
    (tick.readCommands poll).manualReward e = true ↔
      tick.manualReward e = true ∨
        (⟨env, tick, poll⟩ : ReadPoll n A O).Pops .manualReward e := by
  simp [TickState.readCommands, ReadPoll.Pops, TeleopCommand.pops, and_comm]

theorem stopped_singleton : Stopped tick [⟨env, tick, poll⟩] e ↔
      (tick.readCommands poll).forceTruncated e = true := by
  simp [Stopped, @readCommands_forceTruncated n A O env]

theorem stopped_cons : Stopped tick (⟨env, tick, poll⟩ :: reads) e ↔
      Stopped (polledTick tick poll) reads e := by
  simp only [Stopped, List.mem_cons, exists_eq_or_imp]
  rw [← or_assoc, ← readCommands_forceTruncated]
  rfl

theorem done_polledTick
    (hselected : (tick.isIntervened e && tick.interventionMask poll e) = true)
    (hflag : (tick.readCommands poll).forceTruncated e = true ∨
      (tick.readCommands poll).manualReward e = true) :
    (polledTick tick poll).done e = true := by
  have hmarked := (marked_of_flags poll.reply hflag).done
  show (_ || _) = true
  rw [Bool.or_eq_true]
  right
  rw [Bool.and_eq_true]
  exact ⟨hselected, hmarked⟩

theorem done_polledTick_of_not_selected (hskipped :
      (tick.isIntervened e && tick.interventionMask poll e) = false) :
    (polledTick tick poll).done e = tick.done e := by
  show (_ || (_ && _)) = _
  rw [show ((tick.readCommands poll).isIntervened e &&
    tick.interventionMask poll e) = false from hskipped]
  simp [TickState.readCommands]

theorem isIntervened_polledTick (hlive : (polledTick tick poll).done e = false) :
    (polledTick tick poll).isIntervened e =
      (tick.isIntervened e || tick.interventionMask poll e) := by
  show (_ || (_ && !(polledTick tick poll).done e)) = _
  rw [hlive]
  simp [TickState.readCommands]

theorem Executes.polled {reads : List (ReadPoll n A O)}
    (hexecutes : Executes tick (⟨env, tick, poll⟩ :: reads) e)
    (hlive : (polledTick tick poll).done e = false) :
    Executes (polledTick tick poll) reads e := by
  rcases hexecutes with hfresh | hintervened | ⟨read, hread, hmask⟩
  · exact .inl hfresh
  · right
    left
    rw [isIntervened_polledTick hlive, hintervened, Bool.true_or]
  · rcases List.mem_cons.mp hread with rfl | hlater
    · right
      left
      rw [isIntervened_polledTick hlive, show _ = true from hmask,
        Bool.or_true]
    · exact .inr (.inr ⟨read, hlater, hmask⟩)

theorem Executes.finished (hlive : tick.done e = false)
    (hquiet : tick.interventionMask poll e = false)
    (hexecutes : Executes tick [⟨env, tick, poll⟩] e) :
    (tick.readCommands poll).executeMask e = true := by
  have hmask : tick.intervenedBeforeStep e = false ∨
      tick.isIntervened e = true := by
    rcases hexecutes with hfresh | hintervened | ⟨read, hread, hmask⟩
    · exact .inl hfresh
    · exact .inr hintervened
    · rw [List.mem_singleton.mp hread] at hmask
      rw [show _ = true from hmask] at hquiet
      cases hquiet
  simpa [TickState.executeMask, TickState.readCommands, hlive] using hmask

end Rest

/-! ## Every command of an executing tick is answered -/

/-- The next call for the environment steps it and returns such a row; only an
error of the computation can prevent the call. -/
def Answered {β : Type} (e : Fin n) (mark : StepRow O → Prop)
    (calls : List (BackendCall n A O))
    (outcome : Except (Raised n A O) (EnvState n A O × β)) : Prop :=
  ∃ later, callsOf outcome = calls ++ later ∧ (FirstStep e mark later ∨
      outcome.toOption = none ∧ firstTouch e later = none)

def readNext (tick : TickState n A) : List (Poll n A O) → TickState n A
  | [] => tick
  | poll :: _ => tick.readCommands poll

section Answers

variable {e : Fin n}

theorem firstStep_selectedCalls {stopped : Prop} (he : executeMask e = true)
    (hflag : tick.forceTruncated e = true ∨ tick.manualReward e = true)
    (hstopped : stopped ↔ tick.forceTruncated e = true) :
    FirstStep e (Marked stopped)
      (selectedCalls tick executeMask isIntervention reply) := by
  unfold FirstStep
  rw [firstTouch_selectedCalls_of_mem he, propext hstopped]
  exact marked_of_flags reply hflag

theorem Answered.prepend {mark : StepRow O → Prop}
    {calls earlier next : List (BackendCall n A O)}
    {outcome : Except (Raised n A O) (EnvState n A O × StepFeedback n)}
    (hnext : next = calls ++ earlier) (hnone : firstTouch e earlier = none)
    (hanswered : Answered e mark next outcome) :
    Answered e mark calls outcome := by
  obtain ⟨later, hcalls, hlater⟩ := hanswered
  refine ⟨earlier ++ later, ?_, ?_⟩
  · rw [hcalls, hnext, List.append_assoc]
  · rcases hlater with hfirst | ⟨hraised, huntouched⟩
    · exact .inl (hfirst.prepend hnone)
    · refine .inr ⟨hraised, ?_⟩
      rw [firstTouch, List.findSome?_append, ← firstTouch, ← firstTouch, hnone,
        huntouched]
      rfl

theorem answered_of_finishTick {stopped : Prop}
    (hexecute : tick.executeMask e = true)
    (hflag : tick.forceTruncated e = true ∨ tick.manualReward e = true)
    (hstopped : stopped ↔ tick.forceTruncated e = true) :
    Answered e (Marked stopped) env.calls (finishTick env tick reply) :=
  ⟨_, callsOf_finishTick,
    .inl (firstStep_selectedCalls hexecute hflag hstopped)⟩

theorem answered_of_flagged (hlive : tick.done e = false)
    (hflag : (readNext tick polls).forceTruncated e = true ∨
      (readNext tick polls).manualReward e = true)
    (hexecutes : Executes tick (readPolls env tick polls) e) :
    Answered e (Marked (Stopped tick (readPolls env tick polls) e)) env.calls
      (stepWithTeleop env tick reply polls) := by
  induction polls generalizing env tick with
  | nil =>
    change tick.forceTruncated e = true ∨ tick.manualReward e = true at hflag
    apply answered_of_finishTick _ hflag
    · simp [Stopped, readPolls]
    · have hmask : tick.intervenedBeforeStep e = false ∨
          tick.isIntervened e = true := by
        simpa [Executes, readPolls] using hexecutes
      simpa [TickState.executeMask, hlive] using hmask
  | cons poll polls ih =>
    have hstep := loopStep env tick reply poll polls
    generalize stepWithTeleop env tick reply (poll :: polls) = outcome at hstep
    generalize readPolls env tick (poll :: polls) = reads at hstep hexecutes
    change (tick.readCommands poll).forceTruncated e = true ∨
      (tick.readCommands poll).manualReward e = true at hflag
    cases hstep with
    | finished hquiet =>
      exact answered_of_finishTick (hexecutes.finished hlive (hquiet e))
        hflag stopped_singleton
    | raised hcalls =>
      refine ⟨_, hcalls, ?_⟩
      cases hselected : tick.isIntervened e &&
          tick.interventionMask poll e with
      | true =>
        exact .inl (firstStep_selectedCalls hselected hflag stopped_singleton)
      | false =>
        exact .inr ⟨rfl, firstTouch_selectedCalls_of_not_mem hselected⟩
    | @polled next hcalls =>
      rw [stopped_cons]
      cases hselected : tick.isIntervened e &&
          tick.interventionMask poll e with
      | true =>
        -- Later polls pop nothing for an environment that is done.
        have hdone := done_polledTick hselected hflag
        have hstopped : Stopped (polledTick tick poll)
            (readPolls next (polledTick tick poll) polls) e ↔
            (tick.readCommands poll).forceTruncated e = true := by
          constructor
          · rintro (hforce | ⟨read, hread, hpops⟩)
            · exact hforce
            · have hread := done_of_readPolls hdone read hread
              rw [hpops.1] at hread
              cases hread
          · exact .inl
        obtain ⟨later, hlater⟩ := callsOf_stepWithTeleop next
          (polledTick tick poll) reply polls
        refine ⟨polledCalls tick poll ++ later, ?_, .inl ?_⟩
        · rw [hlater, hcalls, List.append_assoc]
        · exact (firstStep_selectedCalls hselected hflag hstopped).append later
      | false =>
        have hnext : (polledTick tick poll).done e = false := by
          rw [done_polledTick_of_not_selected hselected, hlive]
        apply Answered.prepend hcalls
          (firstTouch_selectedCalls_of_not_mem hselected)
        apply ih hnext _ (hexecutes.polled hnext)
        cases polls with
        | nil => exact hflag
        | cons other polls =>
          rcases hflag with hforce | hmanual
          · left
            change (_ || _) = true
            rw [show (polledTick tick poll).forceTruncated e = true
              from hforce, Bool.true_or]
          · right
            change (_ || _) = true
            rw [show (polledTick tick poll).manualReward e = true
              from hmanual, Bool.true_or]

theorem answered_of_popped {read : ReadPoll n A O}
    (hexecutes : Executes tick (readPolls env tick polls) e)
    (hread : read ∈ readPolls env tick polls)
    (hpops : read.Pops .manualReward e ∨ read.Pops .stopEpisode e) :
    Answered e (Marked (Stopped tick (readPolls env tick polls) e))
      read.env.calls (stepWithTeleop env tick reply polls) := by
  induction polls generalizing env tick with
  | nil => cases hread
  | cons poll polls ih =>
    by_cases hhead : read = ⟨env, tick, poll⟩
    · subst hhead
      have hlive : tick.done e = false := by
        rcases hpops with hmanual | hstop
        · exact hmanual.1
        · exact hstop.1
      apply answered_of_flagged hlive _ hexecutes
      rcases hpops with hmanual | hstop
      · exact .inr (readCommands_manualReward.mpr (.inr hmanual))
      · exact .inl (readCommands_forceTruncated.mpr (.inr hstop))
    · have hstep := loopStep env tick reply poll polls
      generalize stepWithTeleop env tick reply (poll :: polls) = outcome
        at hstep
      generalize readPolls env tick (poll :: polls) = reads
        at hstep hexecutes hread
      cases hstep with
      | finished hquiet | raised hcalls =>
        exact absurd (List.mem_singleton.mp hread) hhead
      | @polled next hcalls =>
        rw [stopped_cons]
        have hlater : read ∈ readPolls next (polledTick tick poll) polls :=
          (List.mem_cons.mp hread).resolve_left hhead
        have hnext : (polledTick tick poll).done e = false := by
          by_contra hdone
          have hended := done_of_readPolls (by simpa using hdone) read hlater
          rcases hpops with hmanual | hstop
          · rw [hmanual.1] at hended
            cases hended
          · rw [hstop.1] at hended
            cases hended
        exact ih (hexecutes.polled hnext) hlater

end Answers

end BaseEnv
end VerlVla
