import VerlVla.ResetSafety
import VerlVla.TransitionRun

/-!
# Resets and steps over whole runs

A serial environment answers one call after another.  An asynchronous one works
on ticks in its control thread while the caller takes snapshots and resets.  In
both, an ended environment is not stepped before its reset, provided that every
reset of the wrapper resets what is flagged and no snapshot overlaps a tick.
-/

namespace VerlVla
namespace BaseEnv

open Transition

variable {n : ℕ} {A O : Type}

/-! ## Serial runs -/

inductive CallOutcome
  | returned
  | raised (error : EnvError)
  deriving DecidableEq

/-- The wrapper of a serial environment; a run ends when a call raises. -/
structure Session (n : ℕ) (A O : Type) where
  env : EnvState n A O
  raised : Bool

def Session.initial : Session n A O where
  env := .initial
  raised := false

inductive SerialLabel (n : ℕ) (A O : Type)
  | step (inputs : List (TickInput n A O))
      (fresh : Option (Fin n → EnvObs O)) (resetObs : Fin n → EnvObs O)
  | reset (options : ResetOptions n) (resetObs : Fin n → EnvObs O)

def settle (env : EnvState n A O) :
    Except (Raised n A O) (EnvState n A O) → CallOutcome × Session n A O
  | .ok next => (.returned, ⟨next, false⟩)
  | .error raised =>
    (.raised raised.error, ⟨{ env with calls := raised.calls }, true⟩)

def serialEnv (n : ℕ) (A O : Type) (config : EnvConfig) :
    Machine (Session n A O) (SerialLabel n A O) CallOutcome where
  step session
    | .step inputs fresh resetObs =>
      if session.raised then none
      else some (settle session.env
        ((serialStep config session.env inputs fresh resetObs).map Prod.fst))
    | .reset options resetObs =>
      if session.raised then none
      else some (.returned, ⟨reset config session.env options resetObs, false⟩)

def SerialGuard (config : EnvConfig) (session : Session n A O) :
    SerialLabel n A O → Prop
  | .step _ _ _ => True
  | .reset options _ => ResetsEnded config session.env options

instance (config : EnvConfig) (env : EnvState n A O)
    (options : ResetOptions n) : Decidable (ResetsEnded config env options) :=
  inferInstanceAs (Decidable (∀ _, _))

instance (config : EnvConfig) (session : Session n A O)
    (label : SerialLabel n A O) :
    Decidable (SerialGuard config session label) :=
  match label with
  | .step _ _ _ => .isTrue trivial
  | .reset options _ =>
    inferInstanceAs (Decidable (ResetsEnded config session.env options))

structure SerialSafe (config : EnvConfig) (session : Session n A O) :
    Prop where
  safe : NeverStepsEnded session.env.calls
  quiet : session.raised = false → Quiet config session.env

section Runs

theorem initial_flagged : Flagged (.initial : EnvState n A O) :=
  ⟨neverStepsEnded_nil, fun _ hpending => absurd hpending not_pending_nil⟩

theorem SerialSafe.initial : SerialSafe config (.initial : Session n A O) :=
  ⟨neverStepsEnded_nil, fun _ => ⟨initial_flagged, fun _ _ => not_pending_nil⟩⟩

theorem SerialSafe.step (hsafe : SerialSafe config session)
    (hguard : SerialGuard config session label)
    (hstep : (serialEnv n A O config).step session label =
      some (output, next)) : SerialSafe config next := by
  cases label with
  | step inputs fresh resetObs =>
    simp only [serialEnv, Option.ite_none_left_eq_some,
      Bool.not_eq_true, Option.some.injEq] at hstep
    obtain ⟨hraised, hsettle⟩ := hstep
    have hquiet := hsafe.quiet hraised
    cases hserial : serialStep config session.env inputs fresh resetObs with
    | ok stepped =>
      rw [hserial] at hsettle
      cases hsettle
      have hnext := serialStep_quiet hquiet hserial
      exact ⟨hnext.flagged.safe, fun _ => hnext⟩
    | error raised =>
      rw [hserial] at hsettle
      cases hsettle
      exact ⟨serialStep_raised hquiet hserial, fun hfalse => by
        cases hfalse⟩
  | reset options resetObs =>
    simp only [serialEnv, Option.ite_none_left_eq_some,
      Bool.not_eq_true, Option.some.injEq] at hstep
    obtain ⟨hraised, hreset⟩ := hstep
    cases hreset
    have hnext := reset_quiet (hsafe.quiet hraised).flagged hguard resetObs
    exact ⟨hnext.flagged.safe, fun _ => hnext⟩

/-! ## Asynchronous runs -/

/-- The caller and the control thread of an asynchronous environment. -/
structure AsyncSession (n : ℕ) (A O : Type) where
  env : EnvState n A O
  tick : Option (TickState n A)
  snapshot : Bool
  failed : Bool

def AsyncSession.initial : AsyncSession n A O where
  env := .initial
  tick := none
  snapshot := false
  failed := false

inductive AsyncLabel (n : ℕ) (A O : Type)
  | beginTick (action : Fin n → A) (chunkStarted : Bool)
  | poll (poll : Poll n A O)
  | beginSnapshot (resetObs : Fin n → EnvObs O)
  | endSnapshot
  | reset (options : ResetOptions n) (resetObs : Fin n → EnvObs O)

/-- The control thread works on a tick without the executor's lock; a snapshot
holds the lock, and a reset waits for the tick. -/
def asyncEnv (n : ℕ) (A O : Type) (config : EnvConfig) :
    Machine (AsyncSession n A O) (AsyncLabel n A O) CallOutcome where
  step session
    | .beginTick action chunkStarted =>
      if session.tick.isNone ∧ session.snapshot = false ∧
          session.failed = false then
        some (.returned, { session with
            env := (beginTick session.env action chunkStarted).1
            tick := some (beginTick session.env action chunkStarted).2 })
      else none
    | .poll poll =>
      match session.tick with
      | none => none
      | some tick =>
        match pollTeleops session.env tick poll with
        | .error raised => some (.raised raised.error, { session with
              env := { session.env with calls := raised.calls }
              tick := none
              failed := true })
        | .ok (.polling env tick) =>
          some (.returned, { session with env := env, tick := tick })
        | .ok (.finished env _) =>
          some (.returned, { session with env := env, tick := none })
    | .beginSnapshot resetObs =>
      if session.snapshot then none
      else
        match beginSnapshot config session.env resetObs with
        | .error raised => some (.raised raised.error, session)
        | .ok env =>
          some (.returned, { session with env := env, snapshot := true })
    | .endSnapshot =>
      if session.snapshot then
        some (.returned, { session with
            env := clearFlags config session.env
            snapshot := false })
      else none
    | .reset options resetObs =>
      if session.tick.isNone ∧ session.snapshot = false ∧
          session.failed = false then
        some (.returned, { session with
            env := reset config session.env options resetObs })
      else none

/-- No snapshot is taken during a tick, and resets reset what is flagged. -/
def AsyncGuard (config : EnvConfig) (session : AsyncSession n A O) :
    AsyncLabel n A O → Prop
  | .beginSnapshot _ => session.tick = none
  | .reset options _ => ResetsEnded config session.env options
  | _ => True

instance (config : EnvConfig) (session : AsyncSession n A O)
    (label : AsyncLabel n A O) : Decidable (AsyncGuard config session label) :=
  match label with
  | .beginTick _ _ | .poll _ | .endSnapshot => .isTrue trivial
  | .beginSnapshot _ =>
    decidable_of_iff (session.tick.isNone) Option.isNone_iff_eq_none
  | .reset options _ =>
    inferInstanceAs (Decidable (ResetsEnded config session.env options))

structure AsyncSafe (config : EnvConfig) (session : AsyncSession n A O) :
    Prop where
  safe : NeverStepsEnded session.env.calls
  idle : session.failed = true → session.tick = none
  ticking : ∀ tick, session.tick = some tick → session.snapshot = false ∧
      ∃ start, TickTracked start session.env tick
  resting : session.failed = false → session.tick = none →
    ∀ e, Pending e session.env.calls → session.env.done e ∧
      (session.snapshot = true → config.autoReset = false)

theorem AsyncSafe.initial :
    AsyncSafe config (.initial : AsyncSession n A O) where
  safe := neverStepsEnded_nil
  idle _ := rfl
  ticking _ htick := by cases htick
  resting _ _ _ hpending := absurd hpending not_pending_nil

theorem AsyncSafe.flagged (hsafe : AsyncSafe config session)
    (hfailed : session.failed = false) (htick : session.tick = none) :
    Flagged session.env :=
  ⟨hsafe.safe, fun e hpending => (hsafe.resting hfailed htick e hpending).1⟩

theorem AsyncSafe.poll {poll : Poll n A O} (hsafe : AsyncSafe config session)
    (hstep : (asyncEnv n A O config).step session (.poll poll) =
      some (output, next)) : AsyncSafe config next := by
  simp only [asyncEnv] at hstep
  split at hstep
  · cases hstep
  next tick htick =>
    obtain ⟨hsnapshot, start, htracked⟩ := hsafe.ticking tick htick
    have hfailed : session.failed = false := by
      cases hcase : session.failed with
      | false => rfl
      | true =>
        rw [hsafe.idle hcase] at htick
        cases htick
    cases hpoll : pollTeleops session.env tick poll with
    | error raised =>
      rw [hpoll] at hstep
      cases hstep
      constructor
      case safe =>
        exact safe_of_raises
          ((tickTracked_invariant start).pollTeleops_error htracked hpoll)
      case idle => exact fun _ => rfl
      case ticking => exact fun _ hfalse => by cases hfalse
      case resting => exact fun hfalse => by cases hfalse
    | ok outcome =>
      have houtcome :=
        (tickTracked_invariant start).pollTeleops_ok htracked hpoll
      rw [hpoll] at hstep
      cases outcome with
      | polling env ticked =>
        cases hstep
        constructor
        case safe => exact TickTracked.safe houtcome
        case idle => exact fun hfalse => by simp [hfailed] at hfalse
        case ticking =>
          intro other hother
          cases hother
          exact ⟨hsnapshot, start, houtcome⟩
        case resting => exact fun _ hfalse => by cases hfalse
      | finished env feedback =>
        cases hstep
        have hdone := tickDone_of_finishes houtcome
        constructor
        case safe => exact hdone.safe
        case idle => exact fun _ => rfl
        case ticking => exact fun _ hfalse => by cases hfalse
        case resting =>
          intro _ _ e hpending
          refine ⟨hdone.flagged e hpending, ?_⟩
          intro hfalse
          simp [hsnapshot] at hfalse

theorem AsyncSafe.step (hsafe : AsyncSafe config session)
    (hguard : AsyncGuard config session label)
    (hstep : (asyncEnv n A O config).step session label =
      some (output, next)) : AsyncSafe config next := by
  cases label with
  | beginTick action chunkStarted =>
    simp only [asyncEnv, Option.ite_none_right_eq_some] at hstep
    obtain ⟨⟨hnone, hsnapshot, hfailed⟩, hnext⟩ := hstep
    cases hnext
    have htracked := beginTick_tracked
      (hsafe.flagged hfailed (Option.isNone_iff_eq_none.mp hnone)) action
      chunkStarted
    constructor
    case safe => exact htracked.safe
    case idle => exact fun hfalse => by simp [hfailed] at hfalse
    case ticking =>
      intro tick htick
      cases htick
      exact ⟨hsnapshot, _, htracked⟩
    case resting => exact fun _ hfalse => by cases hfalse
  | poll poll => exact hsafe.poll hstep
  | beginSnapshot resetObs =>
    simp only [asyncEnv, Option.ite_none_left_eq_some] at hstep
    obtain ⟨_, hstep⟩ := hstep
    cases hbegin : beginSnapshot config session.env resetObs with
    | error raised =>
      rw [hbegin] at hstep
      cases hstep
      exact hsafe
    | ok env =>
      rw [hbegin] at hstep
      cases hstep
      unfold beginSnapshot at hbegin
      split at hbegin
      · cases hbegin
      next rows hrows =>
        cases hbegin
        obtain ⟨hcalls, hpending⟩ := resetDoneEnvs_calls hsafe.safe rows
          (fun e => session.env.done e || session.env.restartEpisode e)
          resetObs
        constructor
        case safe => exact hcalls
        case idle => exact hsafe.idle
        case ticking =>
          intro tick htick
          rw [show session.tick = none from hguard] at htick
          cases htick
        case resting =>
          intro hfailed htick e hstill
          obtain ⟨hold, hmask⟩ := hpending e hstill
          have hdone := (hsafe.resting hfailed htick e hold).1
          refine ⟨?_, ?_⟩
          · show (resetDoneEnvs config session.env _ _ _).done e = true
            rw [resetDoneEnvs_done]
            exact hdone
          · intro _
            by_contra hauto
            rw [Bool.not_eq_false] at hauto
            have hskipped := hmask hauto
            simp [hdone] at hskipped
  | endSnapshot =>
    simp only [asyncEnv, Option.ite_none_right_eq_some] at hstep
    obtain ⟨hsnapshot, hnext⟩ := hstep
    cases hnext
    constructor
    case safe => exact hsafe.safe
    case idle => exact hsafe.idle
    case ticking =>
      intro tick htick
      have hfalse := (hsafe.ticking tick htick).1
      simp [hsnapshot] at hfalse
    case resting =>
      intro hfailed htick e hpending
      obtain ⟨hdone, hauto⟩ := hsafe.resting hfailed htick e hpending
      have hauto := hauto hsnapshot
      refine ⟨?_, fun _ => hauto⟩
      show (if config.autoReset = true then noEnvs else
        session.env.done) e = true
      rw [hauto]
      exact hdone
  | reset options resetObs =>
    simp only [asyncEnv, Option.ite_none_right_eq_some] at hstep
    obtain ⟨⟨hnone, _, hfailed⟩, hnext⟩ := hstep
    cases hnext
    have htick := Option.isNone_iff_eq_none.mp hnone
    obtain ⟨hcalls, hclean⟩ :=
      reset_clean (hsafe.flagged hfailed htick) hguard resetObs
    constructor
    case safe => exact hcalls
    case idle => exact hsafe.idle
    case ticking =>
      intro tick hsome
      rw [show session.tick = none from htick] at hsome
      cases hsome
    case resting => exact fun _ _ e hpending => absurd hpending (hclean e)

/-- If every reset of the wrapper resets the environments whose end is flagged
and no snapshot is taken during a tick, no ended environment is stepped. -/
theorem ended_environments_are_reset (config : EnvConfig) :
    (∀ {events : List (Event (Session n A O) (SerialLabel n A O) CallOutcome)}
      {final : Session n A O},
      Run (serialEnv n A O config) .initial events final →
      (∀ event ∈ events, SerialGuard config event.before event.label) →
      NeverStepsEnded final.env.calls) ∧
    (∀ {events : List (Event (AsyncSession n A O) (AsyncLabel n A O)
        CallOutcome)} {final : AsyncSession n A O},
      Run (asyncEnv n A O config) .initial events final →
      (∀ event ∈ events, AsyncGuard config event.before event.label) →
      NeverStepsEnded final.env.calls) := by
  constructor
  · intro events final hrun hguard
    have hsafe : SerialSafe config final :=
      hrun.guarded_invariant (SerialGuard config) (SerialSafe config)
        (fun _ _ _ _ hstate hlabel hstep => hstate.step hlabel hstep) hguard
        .initial
    exact hsafe.safe
  · intro events final hrun hguard
    have hsafe : AsyncSafe config final :=
      hrun.guarded_invariant (AsyncGuard config) (AsyncSafe config)
        (fun _ _ _ _ hstate hlabel hstep => hstate.step hlabel hstep) hguard
        .initial
    exact hsafe.safe

end Runs

/-! ## Concrete runs -/

def quietCommand : TeleopCommand ℤ where
  intervention := none
  manualReward := false
  restartEpisode := false
  stopEpisode := false

def sampleObs (observation : ℕ) : EnvObs ℕ where
  observation := observation
  identity := ∅

/-- A row that reports the end of the episode where `ended` says so. -/
def sampleRow (ended : Bool) : StepRow ℕ where
  obs := sampleObs 1
  reward := 0
  terminated := ended
  truncated := false
  success := ended
  score := none

def quietTick (ended : Mask n) : TickInput n ℤ ℕ where
  action _ := 0
  polls := []
  reply e := sampleRow (ended e)

def quietPoll (ended : Mask n) : Poll n ℤ ℕ where
  commands _ := quietCommand
  reply e := sampleRow (ended e)

def fullReset : ResetOptions n where
  envIdx := none
  resetEval := false

def partialReset (e : Fin n) : ResetOptions n where
  envIdx := some [e]
  resetEval := false

def serialExec (labels : List (SerialLabel 2 ℤ ℕ)) :=
  (serialEnv 2 ℤ ℕ ⟨false⟩).exec .initial labels

def asyncExec (labels : List (AsyncLabel 1 ℤ ℕ)) :=
  (asyncEnv 1 ℤ ℕ ⟨true⟩).exec .initial labels

/-- Environment 1 ends; the next reset names one environment only. -/
def resetThenStep (reset : Fin 2) : List (SerialLabel 2 ℤ ℕ) :=
  [.reset fullReset fun _ => sampleObs 0,
    .step [quietTick fun e => e == 1] none fun _ => sampleObs 0,
    .reset (partialReset reset) fun _ => sampleObs 0,
    .step [quietTick noEnvs] none fun _ => sampleObs 0]

def endBehindSnapshot (resetEval : Bool) : List (AsyncLabel 1 ℤ ℕ) :=
  [.reset fullReset fun _ => sampleObs 0,
    .beginTick (fun _ => 0) true, .poll (quietPoll noEnvs),
    .beginSnapshot fun _ => sampleObs 0, .endSnapshot,
    .beginTick (fun _ => 0) false, .poll (quietPoll fun _ => true),
    .reset { fullReset with resetEval := resetEval } fun _ => sampleObs 0,
    .beginTick (fun _ => 0) true, .poll (quietPoll noEnvs)]

def snapshotDuringTick (event : Event (AsyncSession n A O)
    (AsyncLabel n A O) CallOutcome) : Bool :=
  match event.label with
  | .beginSnapshot _ => event.before.tick.isSome
  | _ => false

theorem serialExec_run (hexec : (serialExec labels).isSome) :
    Run (serialEnv 2 ℤ ℕ ⟨false⟩) .initial ((serialExec labels).get hexec).1
      ((serialExec labels).get hexec).2 :=
  Machine.run_of_exec (Option.some_get hexec).symm

theorem asyncExec_run (hexec : (asyncExec labels).isSome) :
    Run (asyncEnv 1 ℤ ℕ ⟨true⟩) .initial ((asyncExec labels).get hexec).1
      ((asyncExec labels).get hexec).2 :=
  Machine.run_of_exec (Option.some_get hexec).symm

theorem partialReset_exec : (serialExec (resetThenStep 0)).isSome := by
  decide +kernel

theorem cachedReset_exec : (asyncExec (endBehindSnapshot false)).isSome := by
  decide +kernel

/-- A partial reset of another environment, and a training reset answered from
the cache, both let an ended environment be stepped. -/
theorem ended_environment_is_stepped :
    (∃ events final, Run (serialEnv 2 ℤ ℕ ⟨false⟩) .initial events final ∧
      ¬NeverStepsEnded final.env.calls) ∧
    (∃ events final, Run (asyncEnv 1 ℤ ℕ ⟨true⟩) .initial events final ∧
      (∀ event ∈ events, snapshotDuringTick event = false) ∧
      ¬NeverStepsEnded final.env.calls) := by
  constructor
  · exact ⟨_, _, serialExec_run partialReset_exec, by decide +kernel⟩
  · exact ⟨_, _, asyncExec_run cachedReset_exec, by decide +kernel,
      by decide +kernel⟩

theorem endedReset_exec : (serialExec (resetThenStep 1)).isSome := by
  decide +kernel

theorem evaluationReset_exec :
    (asyncExec (endBehindSnapshot true)).isSome := by
  decide +kernel

theorem ended_environments_are_reset_in_runs : NeverStepsEnded
      ((serialExec (resetThenStep 1)).get endedReset_exec).2.env.calls ∧
    NeverStepsEnded ((asyncExec (endBehindSnapshot true)).get
      evaluationReset_exec).2.env.calls := by
  constructor
  · apply (ended_environments_are_reset ⟨false⟩).1
      (serialExec_run endedReset_exec)
    decide +kernel
  · apply (ended_environments_are_reset ⟨true⟩).2
      (asyncExec_run evaluationReset_exec)
    decide +kernel

end BaseEnv
end VerlVla
