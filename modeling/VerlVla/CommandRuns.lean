import VerlVla.OperatorCommands

/-!
# Operator commands over whole runs

The calls of a session grow with every chunk and every reset, and a session
that raised makes no further call.  So what a tick answers stays the next step
of the environment in the transcript of the whole run.
-/

namespace VerlVla
namespace BaseEnv

open Transition

variable {n : ℕ} {A O : Type}

/-! ## The ticks of a run -/

structure TickStart (n : ℕ) (A O : Type) where
  env : EnvState n A O
  input : TickInput n A O
  chunkStarted : Bool

namespace TickStart

def started (tick : TickStart n A O) : EnvState n A O × TickState n A :=
  beginTick tick.env tick.input.action tick.chunkStarted

def reads (tick : TickStart n A O) : List (ReadPoll n A O) :=
  readPolls tick.started.1 tick.started.2 tick.input.polls

def outcome (tick : TickStart n A O) :
    Except (Raised n A O) (EnvState n A O × StepFeedback n) :=
  executeActionStep tick.env tick.input tick.chunkStarted

/-- The chunk was intervened before the tick, and no device intervenes now. -/
def Skips (tick : TickStart n A O) (e : Fin n) : Prop :=
  tick.started.2.intervenedBeforeStep e = true ∧
    ∀ read ∈ tick.reads, ¬read.Intervenes e

instance (tick : TickStart n A O) (e : Fin n) : Decidable (tick.Skips e) :=
  inferInstanceAs (Decidable (_ ∧ ∀ _ ∈ _, _))

end TickStart

def chunkTicks (env : EnvState n A O) (chunkStarted : Bool) :
    List (TickInput n A O) → List (TickStart n A O)
  | [] => []
  | input :: inputs =>
    ⟨env, input, chunkStarted⟩ ::
      match executeActionStep env input chunkStarted with
      | .ok next => chunkTicks next.1 false inputs
      | .error _ => []

def eventTicks
    (event : Event (Session n A O) (SerialLabel n A O) CallOutcome) :
    List (TickStart n A O) :=
  match event.label with
  | .step inputs _ _ => chunkTicks event.before.env true inputs
  | .reset _ _ => []

def sessionTicks
    (events : List (Event (Session n A O) (SerialLabel n A O) CallOutcome)) :
    List (TickStart n A O) :=
  events.flatMap eventTicks

/-- A command of a tick is answered in the run: the next call for the
environment is a step with such a row; or the session raised before. -/
def NextStep (e : Fin n) (mark : StepRow O → Prop)
    (calls : List (BackendCall n A O)) (final : Session n A O) : Prop :=
  ∃ later, final.env.calls = calls ++ later ∧ (FirstStep e mark later ∨
      final.raised = true ∧ firstTouch e later = none)

theorem answered_of_tick {tick : TickStart n A O} {e : Fin n}
    {read : ReadPoll n A O} (hexecuted : ¬tick.Skips e)
    (hread : read ∈ tick.reads)
    (hpops : read.Pops .manualReward e ∨ read.Pops .stopEpisode e) :
    Answered e (Marked (∃ other ∈ tick.reads, other.Pops .stopEpisode e))
      read.env.calls tick.outcome := by
  have hexecutes : Executes tick.started.2 tick.reads e := by
    cases hbefore : tick.started.2.intervenedBeforeStep e with
    | false => exact .inl hbefore
    | true =>
      right
      right
      by_contra hnone
      push Not at hnone
      exact hexecuted ⟨hbefore, hnone⟩
  have hstopped : Stopped tick.started.2 tick.reads e ↔
      ∃ other ∈ tick.reads, other.Pops .stopEpisode e := by
    constructor
    · rintro (hforce | hpopped)
      · cases hforce
      · exact hpopped
    · exact .inr
  rw [← propext hstopped]
  exact answered_of_popped hexecutes hread hpops

/-! ## From a tick to the run -/

/-- The second computation goes on with the calls of the first; it cannot when
the first raised. -/
structure Continued {β γ : Type}
    (first : Except (Raised n A O) (EnvState n A O × β))
    (second : Except (Raised n A O) (EnvState n A O × γ)) : Prop where
  calls : ∃ later, callsOf second = callsOf first ++ later ∧
    (first.toOption = none → later = [])
  raised : first.toOption = none → second.toOption = none

section Continued

variable {β γ δ : Type}
  {first : Except (Raised n A O) (EnvState n A O × β)}
  {second : Except (Raised n A O) (EnvState n A O × γ)}
  {third : Except (Raised n A O) (EnvState n A O × δ)}

theorem Continued.trans (hfirst : Continued first second)
    (hsecond : Continued second third) : Continued first third := by
  obtain ⟨middle, hmiddle, hnone⟩ := hfirst.calls
  obtain ⟨later, hlater, hlast⟩ := hsecond.calls
  constructor
  · refine ⟨middle ++ later, ?_, ?_⟩
    · rw [hlater, hmiddle, List.append_assoc]
    · intro hraised
      rw [hnone hraised, hlast (hfirst.raised hraised)]
      rfl
  · intro hraised
    exact hsecond.raised (hfirst.raised hraised)

theorem Continued.of_error {raised : Raised n A O} :
    Continued (.error raised : Except _ (EnvState n A O × β))
      (.error raised : Except _ (EnvState n A O × γ)) :=
  ⟨⟨[], (List.append_nil _).symm, fun _ => rfl⟩, fun _ => rfl⟩

theorem Continued.of_ok {next : EnvState n A O × β}
    (hcalls : ∃ later, callsOf second = next.1.calls ++ later) :
    Continued (.ok next) second := by
  obtain ⟨later, hlater⟩ := hcalls
  exact ⟨⟨later, hlater, nofun⟩, nofun⟩

theorem Answered.continued {e : Fin n}
    (hanswered : Answered e mark calls first)
    (hcontinued : Continued first second) :
    Answered e mark calls second := by
  obtain ⟨answer, hanswer, hfirst⟩ := hanswered
  obtain ⟨later, hlater, hnone⟩ := hcontinued.calls
  refine ⟨answer ++ later, ?_, ?_⟩
  · rw [hlater, hanswer, List.append_assoc]
  · rcases hfirst with hfirst | ⟨hraised, huntouched⟩
    · exact .inl (hfirst.append later)
    · right
      rw [hnone hraised, List.append_nil]
      exact ⟨hcontinued.raised hraised, huntouched⟩

end Continued

theorem callsOf_executeActionStep (env : EnvState n A O)
    (input : TickInput n A O) (chunkStarted : Bool) :
    ∃ later, callsOf (executeActionStep env input chunkStarted) =
      env.calls ++ later :=
  callsOf_stepWithTeleop ..

section Chunk

variable {env : EnvState n A O} {chunkStarted : Bool}
  {input : TickInput n A O} {inputs : List (TickInput n A O)}

theorem executeSteps_of_error
    (htick : executeActionStep env input chunkStarted = .error raised) :
    executeSteps env chunkStarted (input :: inputs) = .error raised :=
  bind_eq_error.mpr (.inl htick)

theorem executeSteps_of_ok
    (htick : executeActionStep env input chunkStarted = .ok next) :
    executeSteps env chunkStarted (input :: inputs) =
      (executeSteps next.1 false inputs).map
        fun rest => (rest.1, next.2 :: rest.2) := by
  simp only [executeSteps, htick, bind, Except.bind]
  cases executeSteps next.1 false inputs <;> rfl

theorem continued_map {β γ : Type} (f : β → γ)
    (first : Except (Raised n A O) (EnvState n A O × β)) :
    Continued first (first.map fun next => (next.1, f next.2)) := by
  cases first with
  | error raised => exact .of_error
  | ok next => exact .of_ok ⟨[], (List.append_nil _).symm⟩

theorem callsOf_executeSteps (env : EnvState n A O) (chunkStarted : Bool)
    (inputs : List (TickInput n A O)) :
    ∃ later, callsOf (executeSteps env chunkStarted inputs) =
      env.calls ++ later := by
  induction inputs generalizing env chunkStarted with
  | nil => exact ⟨[], (List.append_nil _).symm⟩
  | cons input inputs ih =>
    obtain ⟨ticked, hticked⟩ :=
      callsOf_executeActionStep env input chunkStarted
    cases htick : executeActionStep env input chunkStarted with
    | error raised =>
      rw [htick] at hticked
      rw [executeSteps_of_error htick]
      exact ⟨ticked, hticked⟩
    | ok next =>
      rw [htick] at hticked
      rw [executeSteps_of_ok htick]
      obtain ⟨rest, hrest⟩ := ih next.1 false
      obtain ⟨last, hlast, _⟩ := (continued_map (next.2 :: ·)
        (executeSteps next.1 false inputs)).calls
      refine ⟨ticked ++ (rest ++ last), ?_⟩
      rw [hlast, hrest, show next.1.calls = _ from hticked]
      simp only [List.append_assoc]

theorem continued_of_chunkTicks {tick : TickStart n A O}
    (htick : tick ∈ chunkTicks env chunkStarted inputs) :
    Continued tick.outcome (executeSteps env chunkStarted inputs) := by
  induction inputs generalizing env chunkStarted with
  | nil => cases htick
  | cons input inputs ih =>
    unfold chunkTicks at htick
    cases hstep : executeActionStep env input chunkStarted with
    | error raised =>
      rw [hstep] at htick
      rw [List.mem_singleton.mp htick, executeSteps_of_error hstep,
        TickStart.outcome, hstep]
      exact .of_error
    | ok next =>
      rw [hstep] at htick
      rw [executeSteps_of_ok hstep]
      have hmap := continued_map (next.2 :: ·)
        (executeSteps next.1 false inputs)
      rcases List.mem_cons.mp htick with rfl | hlater
      · rw [TickStart.outcome, hstep]
        apply Continued.trans (.of_ok _) hmap
        exact callsOf_executeSteps ..
      · exact (ih hlater).trans hmap

theorem callsOf_finishExecutionSlice {config : EnvConfig}
    {steps : List (StepFeedback n)} {fresh : Option (Fin n → EnvObs O)}
    {resetObs : Fin n → EnvObs O} :
    ∃ later, callsOf ((finishExecutionSlice config env steps fresh
      resetObs).map fun next => (next, steps)) = env.calls ++ later := by
  unfold finishExecutionSlice
  cases env.mergedStepResult with
  | none => exact ⟨[], (List.append_nil _).symm⟩
  | some rows =>
    simp only [Except.map, callsOf, clearFlags, resetDoneEnvs]
    split_ifs
    · exact ⟨_, rfl⟩
    · exact ⟨[], (List.append_nil _).symm⟩

theorem continued_serialStep {config : EnvConfig}
    {fresh : Option (Fin n → EnvObs O)} {resetObs : Fin n → EnvObs O} :
    Continued (executeSteps env true inputs)
      (serialStep config env inputs fresh resetObs) := by
  unfold serialStep
  cases executeSteps env true inputs with
  | error raised => exact .of_error
  | ok executed =>
    apply Continued.of_ok
    obtain ⟨later, hlater⟩ := @callsOf_finishExecutionSlice n A O
      executed.1 config executed.2 fresh resetObs
    refine ⟨later, ?_⟩
    rw [← hlater]
    show callsOf (finishExecutionSlice config executed.1 executed.2 fresh
      resetObs >>= _) = _
    cases finishExecutionSlice config executed.1 executed.2 fresh
      resetObs <;> rfl

end Chunk

section Session

variable {config : EnvConfig} {e : Fin n} {mark : StepRow O → Prop}
  {calls : List (BackendCall n A O)}
  {events : List (Event (Session n A O) (SerialLabel n A O) CallOutcome)}

structure Session.Grows (before after : Session n A O) : Prop where
  calls : ∃ later, after.env.calls = before.env.calls ++ later
  raised : before.raised = true → after = before

theorem Session.grows_step
    (hstep : (serialEnv n A O config).step session label =
      some (output, next)) : session.Grows next := by
  cases label with
  | step inputs fresh resetObs =>
    simp only [serialEnv, Option.ite_none_left_eq_some, Bool.not_eq_true,
      Option.some.injEq] at hstep
    obtain ⟨hraised, hsettle⟩ := hstep
    constructor
    · obtain ⟨executed, hexecuted⟩ :=
        callsOf_executeSteps session.env true inputs
      obtain ⟨last, hlast, _⟩ := (@continued_serialStep n A O session.env
        inputs config fresh resetObs).calls
      refine ⟨executed ++ last, ?_⟩
      rw [← List.append_assoc, ← hexecuted, ← hlast]
      cases hserial : serialStep config session.env inputs fresh resetObs with
      | error raised | ok stepped =>
        rw [hserial] at hsettle
        cases hsettle
        rfl
    · intro hfalse
      simp [hraised] at hfalse
  | reset options resetObs =>
    simp only [serialEnv, Option.ite_none_left_eq_some, Bool.not_eq_true,
      Option.some.injEq] at hstep
    obtain ⟨hraised, hreset⟩ := hstep
    cases hreset
    constructor
    · simp only [reset]
      split_ifs
      · exact ⟨[], (List.append_nil _).symm⟩
      · exact ⟨_, rfl⟩
    · intro hfalse
      simp [hraised] at hfalse

theorem Session.grows_run
    (hrun : Run (serialEnv n A O config) session events final) :
    session.Grows final := by
  apply hrun.monotone Session.Grows
  · exact fun session => ⟨⟨[], (List.append_nil _).symm⟩, fun _ => rfl⟩
  · intro first middle last hfirst hsecond
    obtain ⟨calls, hcalls⟩ := hfirst.calls
    obtain ⟨later, hlater⟩ := hsecond.calls
    constructor
    · refine ⟨calls ++ later, ?_⟩
      rw [hlater, hcalls, List.append_assoc]
    · intro hraised
      have hsame := hfirst.raised hraised
      rw [hsame] at hsecond
      exact (hsecond.raised hraised).trans rfl
  · exact fun _ _ _ _ hstep => Session.grows_step hstep

theorem NextStep.of_settled {β : Type} {session final : Session n A O}
    {outcome : Except (Raised n A O) (EnvState n A O × β)}
    (hcalls : session.env.calls = callsOf outcome)
    (hraised : outcome.toOption = none → session.raised = true)
    (hanswered : Answered e mark calls outcome)
    (hgrows : session.Grows final) : NextStep e mark calls final := by
  obtain ⟨answer, hanswer, hfirst⟩ := hanswered
  rcases hfirst with hfirst | ⟨hnone, huntouched⟩
  · obtain ⟨later, hlater⟩ := hgrows.calls
    refine ⟨answer ++ later, ?_, .inl (hfirst.append later)⟩
    rw [hlater, hcalls, hanswer, List.append_assoc]
  · have hsession := hraised hnone
    have hfinal := hgrows.raised hsession
    rw [hfinal]
    exact ⟨answer, hcalls.trans hanswer, .inr ⟨hsession, huntouched⟩⟩

end Session

theorem nextStep_of_sessionTicks {tick : TickStart n A O} {e : Fin n}
    {read : ReadPoll n A O}
    (hrun : Run (serialEnv n A O config) .initial events final)
    (htick : tick ∈ sessionTicks events) (hexecuted : ¬tick.Skips e)
    (hread : read ∈ tick.reads)
    (hpops : read.Pops .manualReward e ∨ read.Pops .stopEpisode e) :
    NextStep e (Marked (∃ other ∈ tick.reads, other.Pops .stopEpisode e))
      read.env.calls final := by
  have hanswered := answered_of_tick hexecuted hread hpops
  obtain ⟨event, hevent, hbegun⟩ := List.mem_flatMap.mp htick
  obtain ⟨left, right, rfl⟩ := List.append_of_mem hevent
  obtain ⟨_, hstep, hlater⟩ := hrun.at_event
  have hgrows := Session.grows_run hlater
  obtain ⟨before, label, output, after⟩ := event
  cases label with
  | step inputs fresh resetObs =>
    have hcontinued := (continued_of_chunkTicks hbegun).trans
      (@continued_serialStep n A O before.env inputs config fresh resetObs)
    simp only [serialEnv, Option.ite_none_left_eq_some,
      Option.some.injEq] at hstep
    obtain ⟨_, hsettle⟩ := hstep
    cases hserial : serialStep config before.env inputs fresh resetObs with
    | error raised =>
      rw [hserial] at hsettle hcontinued
      cases hsettle
      exact NextStep.of_settled rfl (fun _ => rfl)
        (hanswered.continued hcontinued) hgrows
    | ok stepped =>
      rw [hserial] at hsettle hcontinued
      cases hsettle
      exact NextStep.of_settled rfl (fun hnone => by cases hnone)
        (hanswered.continued hcontinued) hgrows
  | reset options resetObs => cases hbegun

/-- A manual success or a stop that is popped for a live environment, in a tick
that does not skip it, is answered by the next step: in the tick itself,
whatever the state in which it begins, and in every run of the session. -/
theorem operator_commands_take_effect (config : EnvConfig) :
    (∀ (tick : TickStart n A O) (e : Fin n), ¬tick.Skips e →
      ∀ read ∈ tick.reads,
        read.Pops .manualReward e ∨ read.Pops .stopEpisode e →
        Answered e (Marked (∃ other ∈ tick.reads, other.Pops .stopEpisode e))
          read.env.calls tick.outcome) ∧
    (∀ {events : List (Event (Session n A O) (SerialLabel n A O)
        CallOutcome)} {final : Session n A O},
      Run (serialEnv n A O config) .initial events final →
      ∀ tick ∈ sessionTicks events, ∀ e, ¬tick.Skips e → ∀ read ∈ tick.reads,
          read.Pops .manualReward e ∨ read.Pops .stopEpisode e →
          NextStep e
            (Marked (∃ other ∈ tick.reads, other.Pops .stopEpisode e))
            read.env.calls final) := by
  constructor
  · intro tick e hexecuted read hread hpops
    exact answered_of_tick hexecuted hread hpops
  · intro events final hrun tick htick e hexecuted read hread hpops
    exact nextStep_of_sessionTicks hrun htick hexecuted hread hpops

/-! ## Commands of an operator with one keyboard -/

def keyboard (controls : List RecordCommand) (override : Option ℤ) :
    TeleopController 1 ℤ where
  inputDevices _ :=
    { recordControl := controls.foldl RecordControl.set .clear
      override := override.map fun action _ => action }

def keyboardPoll (controls : List RecordCommand) (override : Option ℤ) :
    Poll 1 ℤ ℕ where
  commands :=
    (applyTeleopAction (fun _ => keyboard controls override) fun _ => 0).1
  reply _ := sampleRow false

def keyboardTick (polls : List (Poll 1 ℤ ℕ)) : TickInput 1 ℤ ℕ where
  action _ := 0
  polls := polls
  reply _ := sampleRow false

/-- The operator takes over the first tick of a chunk and gives the commands
in the second one; another chunk follows. -/
def lateCommands (controls : List RecordCommand) : List (SerialLabel 1 ℤ ℕ) :=
  [.reset fullReset fun _ => sampleObs 0,
    .step [keyboardTick [keyboardPoll [] (some 5), keyboardPoll [] none],
      keyboardTick [keyboardPoll controls none]] none fun _ => sampleObs 0,
    .step [keyboardTick [keyboardPoll [] none]] none fun _ => sampleObs 0]

def promptCommands (controls : List RecordCommand) :
    List (SerialLabel 1 ℤ ℕ) :=
  [.reset fullReset fun _ => sampleObs 0,
    .step [keyboardTick [keyboardPoll controls none]] none
      fun _ => sampleObs 0]

def keyboardExec (labels : List (SerialLabel 1 ℤ ℕ)) :=
  (serialEnv 1 ℤ ℕ ⟨false⟩).exec .initial labels

theorem keyboardExec_run (hexec : (keyboardExec labels).isSome) :
    Run (serialEnv 1 ℤ ℕ ⟨false⟩) .initial ((keyboardExec labels).get hexec).1
      ((keyboardExec labels).get hexec).2 :=
  Machine.run_of_exec (Option.some_get hexec).symm

theorem NextStep.firstStep {e : Fin n} (hnext : NextStep e mark calls final)
    (hraised : final.raised = false) :
    FirstStep e mark (final.env.calls.drop calls.length) := by
  obtain ⟨later, hcalls, hfirst⟩ := hnext
  rw [hcalls, List.drop_left]
  rcases hfirst with hfirst | ⟨htrue, _⟩
  · exact hfirst
  · simp [hraised] at htrue

theorem lateSuccess_exec :
    (keyboardExec (lateCommands [.manualReward])).isSome := by
  decide +kernel

theorem lateStop_exec :
    (keyboardExec (lateCommands [.stopEpisode])).isSome := by
  decide +kernel

theorem bothCommands_exec :
    (keyboardExec (promptCommands [.manualReward, .stopEpisode])).isSome := by
  decide +kernel

/-- A command that is popped in a tick that skips the environment is lost, and
a manual success that is popped together with a stop is no success. -/
theorem operator_command_is_lost :
    (∃ events final, Run (serialEnv 1 ℤ ℕ ⟨false⟩) .initial events final ∧
      ∃ tick ∈ sessionTicks events, ∃ read ∈ tick.reads,
        read.Pops .manualReward 0 ∧
        (∀ other ∈ tick.reads, ¬other.Pops .stopEpisode 0) ∧
        ¬NextStep 0 MarkedSuccess read.env.calls final) ∧
    (∃ events final, Run (serialEnv 1 ℤ ℕ ⟨false⟩) .initial events final ∧
      ∃ tick ∈ sessionTicks events, ∃ read ∈ tick.reads,
        read.Pops .stopEpisode 0 ∧
        ¬NextStep 0 MarkedTruncated read.env.calls final) ∧
    (∃ events final, Run (serialEnv 1 ℤ ℕ ⟨false⟩) .initial events final ∧
      ∃ tick ∈ sessionTicks events, ¬tick.Skips 0 ∧ ∃ read ∈ tick.reads,
        read.Pops .manualReward 0 ∧ read.Pops .stopEpisode 0 ∧
        ¬NextStep 0 MarkedSuccess read.env.calls final) := by
  have hlate : ∃ tick ∈ sessionTicks
      ((keyboardExec (lateCommands [.manualReward])).get lateSuccess_exec).1,
      ∃ read ∈ tick.reads, read.Pops .manualReward 0 ∧
        (∀ other ∈ tick.reads, ¬other.Pops .stopEpisode 0) ∧
        ¬FirstStep 0 MarkedSuccess
          (((keyboardExec (lateCommands [.manualReward])).get
            lateSuccess_exec).2.env.calls.drop read.env.calls.length) := by
    decide +kernel
  have hstop : ∃ tick ∈ sessionTicks
      ((keyboardExec (lateCommands [.stopEpisode])).get lateStop_exec).1,
      ∃ read ∈ tick.reads, read.Pops .stopEpisode 0 ∧
        ¬FirstStep 0 MarkedTruncated
          (((keyboardExec (lateCommands [.stopEpisode])).get
            lateStop_exec).2.env.calls.drop read.env.calls.length) := by
    decide +kernel
  have hboth : ∃ tick ∈ sessionTicks
      ((keyboardExec (promptCommands [.manualReward, .stopEpisode])).get
        bothCommands_exec).1, ¬tick.Skips 0 ∧ ∃ read ∈ tick.reads,
      read.Pops .manualReward 0 ∧ read.Pops .stopEpisode 0 ∧
        ¬FirstStep 0 MarkedSuccess
          (((keyboardExec (promptCommands [.manualReward,
            .stopEpisode])).get bothCommands_exec).2.env.calls.drop
              read.env.calls.length) := by
    decide +kernel
  refine ⟨⟨_, _, keyboardExec_run lateSuccess_exec, ?_⟩,
    ⟨_, _, keyboardExec_run lateStop_exec, ?_⟩,
    ⟨_, _, keyboardExec_run bothCommands_exec, ?_⟩⟩
  · obtain ⟨tick, htick, read, hread, hpops, hnoStop, hfirst⟩ := hlate
    exact ⟨tick, htick, read, hread, hpops, hnoStop,
      fun hnext => hfirst (hnext.firstStep (by decide +kernel))⟩
  · obtain ⟨tick, htick, read, hread, hpops, hfirst⟩ := hstop
    exact ⟨tick, htick, read, hread, hpops,
      fun hnext => hfirst (hnext.firstStep (by decide +kernel))⟩
  · obtain ⟨tick, htick, hskips, read, hread, hpops, hstops, hfirst⟩ := hboth
    exact ⟨tick, htick, hskips, read, hread, hpops, hstops,
      fun hnext => hfirst (hnext.firstStep (by decide +kernel))⟩

theorem promptSuccess_exec :
    (keyboardExec (promptCommands [.manualReward])).isSome := by
  decide +kernel

theorem operator_commands_take_effect_prompt :
    ∃ events final, Run (serialEnv 1 ℤ ℕ ⟨false⟩) .initial events final ∧
      ∃ tick ∈ sessionTicks events, ∃ read ∈ tick.reads,
        read.Pops .manualReward 0 ∧
        NextStep 0 (Marked (∃ other ∈ tick.reads, other.Pops .stopEpisode 0))
          read.env.calls final := by
  have hpopped : ∃ tick ∈ sessionTicks
      ((keyboardExec (promptCommands [.manualReward])).get
        promptSuccess_exec).1, ¬tick.Skips 0 ∧ ∃ read ∈ tick.reads,
      read.Pops .manualReward 0 := by
    decide +kernel
  obtain ⟨tick, htick, hskips, read, hread, hpops⟩ := hpopped
  have hrun := keyboardExec_run promptSuccess_exec
  exact ⟨_, _, hrun, tick, htick, read, hread, hpops,
    (operator_commands_take_effect ⟨false⟩).2 hrun tick htick 0 hskips read
      hread (.inl hpops)⟩

end BaseEnv
end VerlVla
