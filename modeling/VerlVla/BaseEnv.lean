import Mathlib.Data.Rat.Defs
import Mathlib.Data.List.FinRange
import VerlVla.Tensor

/-!
# The vectorised environment

A policy chunk is executed tick by tick.  Within one tick the teleop devices
are polled until none intervenes, and the simulator is called for the selected
environments only.  Every call to the simulator is recorded; its results and
the reports of the devices are inputs of the model.
-/

namespace VerlVla
namespace BaseEnv

variable {n : ℕ} {A O : Type}

abbrev Mask (n : ℕ) : Type := Fin n → Bool

def Mask.any (mask : Mask n) : Bool := (List.finRange n).any mask

/-- The ids of the selected environments. -/
def Mask.ids (mask : Mask n) : List (Fin n) := (List.finRange n).filter mask

def noEnvs : Mask n := fun _ => false

/-! ## Data -/

structure EnvObs (O : Type) where
  observation : O
  identity : Dict ℤ

/-- A new observation; identity fields it does not report are kept. -/
def EnvObs.over (new old : EnvObs O) : EnvObs O where
  observation := new.observation
  identity := new.identity ∪ old.identity

/-- A new observation; only identity fields already present are replaced. -/
def EnvObs.refresh (old new : EnvObs O) : EnvObs O where
  observation := new.observation
  identity := old.identity.map fun field value =>
    (new.identity.lookup field).getD value

structure StepRow (O : Type) where
  obs : EnvObs O
  reward : ℚ
  terminated : Bool
  truncated : Bool
  success : Bool
  score : Option ℚ

def StepRow.done (row : StepRow O) : Bool := row.terminated || row.truncated

/-- What the device of one environment reports when it is polled. -/
structure TeleopCommand (A : Type) where
  intervention : Option A
  manualReward : Bool
  restartEpisode : Bool
  stopEpisode : Bool

/-- A poll of all devices, and the simulator's reply if it is called next. -/
structure Poll (n : ℕ) (A O : Type) where
  commands : Fin n → TeleopCommand A
  reply : Fin n → StepRow O

/-- A call to the simulator: its reply, and the rows after the operator's
commands were written into them. -/
inductive BackendCall (n : ℕ) (A O : Type)
  | step (envIds : Mask n) (action : Fin n → A) (isIntervention : Mask n)
      (reply result : Fin n → StepRow O)
  | reset (envIds : List (Fin n))

structure EnvConfig where
  autoReset : Bool

structure EnvState (n : ℕ) (A O : Type) where
  latestObs : Option (List (EnvObs O))
  mergedStepResult : Option (Fin n → StepRow O)
  chunkIntervened : Mask n
  restartEpisode : Mask n
  done : Mask n
  calls : List (BackendCall n A O)

def EnvState.initial : EnvState n A O where
  latestObs := none
  mergedStepResult := none
  chunkIntervened := noEnvs
  restartEpisode := noEnvs
  done := noEnvs
  calls := []

structure TickState (n : ℕ) (A : Type) where
  doneBeforeStep : Mask n
  intervenedBeforeStep : Mask n
  action : Fin n → A
  isIntervened : Mask n
  done : Mask n
  manualReward : Mask n
  forceTruncated : Mask n
  restartEpisode : Mask n
  chunkIntervened : Mask n

structure StepFeedback (n : ℕ) where
  reward : Fin n → ℚ
  terminated : Mask n
  truncated : Mask n
  success : Mask n
  score : Fin n → Option ℚ

inductive EnvError
  | latestObsMissing
  | stepResultMissing
  deriving DecidableEq

/-- An error together with the simulator calls made before it. -/
structure Raised (n : ℕ) (A O : Type) where
  error : EnvError
  calls : List (BackendCall n A O)

/-! ## Stepping selected environments -/

def applyManualReward (manualReward : Bool) (row : StepRow O) : StepRow O :=
  if manualReward then
    { row with reward := 1, success := true, terminated := true,
               truncated := false }
  else row

def applyForceTruncated (forceTruncated : Bool) (row : StepRow O) :
    StepRow O :=
  if forceTruncated then
    { row with reward := 0, success := false, terminated := false,
               truncated := true }
  else row

def applyManualStepOverrides (tick : TickState n A)
    (result : Fin n → StepRow O) (e : Fin n) : StepRow O :=
  applyForceTruncated (tick.forceTruncated e)
    (applyManualReward (tick.manualReward e) (result e))

def updateStepResult (merged : Option (Fin n → StepRow O))
    (envIds : Mask n) (rows : Fin n → StepRow O) : Fin n → StepRow O :=
  match merged with
  | none => rows
  | some old => fun e =>
    if envIds e then
      { rows e with
        obs := (rows e).obs.over (old e).obs
        score := (rows e).score <|> (old e).score }
    else old e

def updateLatestObs (latest : List (EnvObs O)) (envIds : Mask n)
    (rows : Fin n → StepRow O) : List (EnvObs O) :=
  latest.mapIdx fun i old =>
    if h : i < n then
      if envIds ⟨i, h⟩ then old.refresh (rows ⟨i, h⟩).obs else old
    else old

def maskStep (env : EnvState n A O) (tick : TickState n A)
    (executeMask isIntervention : Mask n) (reply : Fin n → StepRow O) :
    Except (Raised n A O) (EnvState n A O × TickState n A) := do
  let rows := applyManualStepOverrides tick reply
  let latest := env.latestObs.getD []
  let calls :=
    env.calls ++ [.step executeMask tick.action isIntervention reply rows]
  require (∀ e, executeMask e → e < latest.length) ⟨.latestObsMissing, calls⟩
  pure ({ env with
        latestObs := some (updateLatestObs latest executeMask rows)
        mergedStepResult :=
          some (updateStepResult env.mergedStepResult executeMask rows)
        calls := calls },
      { tick with
        done := fun e => tick.done e || (executeMask e && (rows e).done) })

def stepSelected (env : EnvState n A O) (tick : TickState n A)
    (executeMask isIntervention : Mask n) (reply : Fin n → StepRow O) :
    Except (Raised n A O) (EnvState n A O × TickState n A) :=
  if executeMask.any then
    maskStep env tick executeMask isIntervention reply
  else .ok (env, tick)

/-! ## One control tick -/

def beginTick (env : EnvState n A O) (action : Fin n → A)
    (chunkStarted : Bool) : EnvState n A O × TickState n A :=
  let intervened := if chunkStarted then noEnvs else env.chunkIntervened
  ({ env with chunkIntervened := intervened },
    { doneBeforeStep := env.done
      intervenedBeforeStep := intervened
      action := action
      isIntervened := noEnvs
      done := env.done
      manualReward := noEnvs
      forceTruncated := noEnvs
      restartEpisode := noEnvs
      chunkIntervened := intervened })

namespace TickState

/-- Operator commands count for environments that are not done. -/
def readCommands (tick : TickState n A) (poll : Poll n A O) : TickState n A :=
  { tick with
    manualReward := fun e => tick.manualReward e ||
      ((poll.commands e).manualReward && !tick.done e)
    restartEpisode := fun e => tick.restartEpisode e ||
      ((poll.commands e).restartEpisode && !tick.done e)
    forceTruncated := fun e => tick.forceTruncated e ||
      ((poll.commands e).stopEpisode && !tick.done e) }

def interventionMask (tick : TickState n A) (poll : Poll n A O) : Mask n :=
  fun e => (poll.commands e).intervention.isSome && !tick.done e

/-- The action of an intervening device replaces the one to be executed. -/
def takeOver (tick : TickState n A) (poll : Poll n A O)
    (interventionMask : Mask n) : TickState n A :=
  let active : Mask n := fun e => interventionMask e && !tick.done e
  { tick with
    action := fun e =>
      if active e then (poll.commands e).intervention.getD (tick.action e)
      else tick.action e
    isIntervened := fun e => tick.isIntervened e || active e
    chunkIntervened := fun e => tick.chunkIntervened e || active e }

/-- Policy actions are skipped where the chunk was intervened earlier. -/
def executeMask (tick : TickState n A) : Mask n := fun e => !tick.done e &&
    (!tick.intervenedBeforeStep e || tick.isIntervened e)

end TickState

/-- One iteration of the teleop loop with an intervening device. -/
def intervene (env : EnvState n A O) (tick : TickState n A)
    (poll : Poll n A O) :
    Except (Raised n A O) (EnvState n A O × TickState n A) := do
  let mask := tick.interventionMask poll
  let next ← stepSelected env tick
    (fun e => tick.isIntervened e && mask e) mask poll.reply
  pure (next.1, next.2.takeOver poll mask)

/-- The feedback of a tick; environments done before it report nothing. -/
def stepFeedback (rows : Fin n → StepRow O) (doneBeforeStep : Mask n) :
    StepFeedback n where
  reward e := if doneBeforeStep e then 0 else (rows e).reward
  terminated e := !doneBeforeStep e && (rows e).terminated
  truncated e := !doneBeforeStep e && (rows e).truncated
  success e := !doneBeforeStep e && (rows e).success
  score e := (rows e).score.map fun score =>
    if doneBeforeStep e then 0 else score

def publishStep (env : EnvState n A O) (tick : TickState n A) :
    Except (Raised n A O) (EnvState n A O × StepFeedback n) :=
  match env.mergedStepResult with
  | none => .error ⟨.stepResultMissing, env.calls⟩
  | some rows => .ok
      ({ env with
          chunkIntervened := tick.chunkIntervened
          restartEpisode := fun e =>
            env.restartEpisode e || tick.restartEpisode e
          done := fun e => env.done e || (rows e).done },
        stepFeedback rows tick.doneBeforeStep)

def finishTick (env : EnvState n A O) (tick : TickState n A)
    (reply : Fin n → StepRow O) :
    Except (Raised n A O) (EnvState n A O × StepFeedback n) := do
  let next ← stepSelected env tick tick.executeMask tick.isIntervened reply
  publishStep next.1 next.2

inductive TickOutcome (n : ℕ) (A O : Type)
  | polling (env : EnvState n A O) (tick : TickState n A)
  | finished (env : EnvState n A O) (feedback : StepFeedback n)

/-- Poll the devices once; the tick ends when none intervenes. -/
def pollTeleops (env : EnvState n A O) (tick : TickState n A)
    (poll : Poll n A O) : Except (Raised n A O) (TickOutcome n A O) :=
  let tick := tick.readCommands poll
  if (tick.interventionMask poll).any then
    (intervene env tick poll).map fun next => .polling next.1 next.2
  else
    (finishTick env tick poll.reply).map fun next =>
      .finished next.1 next.2

/-- The teleop loop; after the listed polls the devices are quiet. -/
def stepWithTeleop (env : EnvState n A O) (tick : TickState n A)
    (reply : Fin n → StepRow O) : List (Poll n A O) →
    Except (Raised n A O) (EnvState n A O × StepFeedback n)
  | [] => finishTick env tick reply
  | poll :: polls =>
    match pollTeleops env tick poll with
    | .error raised => .error raised
    | .ok (.polling env tick) => stepWithTeleop env tick reply polls
    | .ok (.finished env feedback) => .ok (env, feedback)

/-- What a control tick is given: the policy action and the outside world. -/
structure TickInput (n : ℕ) (A O : Type) where
  action : Fin n → A
  polls : List (Poll n A O)
  reply : Fin n → StepRow O

def executeActionStep (env : EnvState n A O) (input : TickInput n A O)
    (chunkStarted : Bool) :
    Except (Raised n A O) (EnvState n A O × StepFeedback n) :=
  let started := beginTick env input.action chunkStarted
  stepWithTeleop started.1 started.2 input.reply input.polls

/-! ## Chunk boundaries -/

/-- Auto-reset calls the simulator for the environments that ended. -/
def resetDoneEnvs (config : EnvConfig) (env : EnvState n A O)
    (rows : Fin n → StepRow O) (resetMask : Mask n)
    (resetObs : Fin n → EnvObs O) : EnvState n A O :=
  if config.autoReset && resetMask.any then
    { env with
      mergedStepResult := some fun e =>
        if resetMask e then
          { rows e with obs := (rows e).obs.refresh (resetObs e) }
        else rows e
      calls := env.calls ++ [.reset resetMask.ids] }
  else { env with mergedStepResult := some rows }

def EnvState.observed (env : EnvState n A O) : Option (List (EnvObs O)) :=
  env.mergedStepResult.map fun rows => List.ofFn fun e => (rows e).obs

def finalizeExecutionObservation (fresh : Option (Fin n → EnvObs O))
    (rows : Fin n → StepRow O) : Fin n → StepRow O :=
  match fresh with
  | none => rows
  | some obs => fun e => { rows e with obs := (rows e).obs.refresh (obs e) }

def clearFlags (config : EnvConfig) (env : EnvState n A O) : EnvState n A O :=
  { env with
    restartEpisode := noEnvs
    done := if config.autoReset then noEnvs else env.done }

def doneInSlice (steps : List (StepFeedback n)) : Mask n :=
  fun e => steps.any fun step => step.terminated e || step.truncated e

/-- The end of a serial chunk. -/
def finishExecutionSlice (config : EnvConfig) (env : EnvState n A O)
    (steps : List (StepFeedback n)) (fresh : Option (Fin n → EnvObs O))
    (resetObs : Fin n → EnvObs O) :
    Except (Raised n A O) (EnvState n A O) :=
  match env.mergedStepResult with
  | none => .error ⟨.stepResultMissing, env.calls⟩
  | some rows =>
    let resetMask : Mask n := fun e =>
      doneInSlice steps e || env.restartEpisode e
    let env := resetDoneEnvs config env
      (finalizeExecutionObservation fresh rows) resetMask resetObs
    .ok (clearFlags config { env with latestObs := env.observed })

/-- The first half of an asynchronous snapshot, up to the simulator call. -/
def beginSnapshot (config : EnvConfig) (env : EnvState n A O)
    (resetObs : Fin n → EnvObs O) :
    Except (Raised n A O) (EnvState n A O) :=
  match env.mergedStepResult with
  | none => .error ⟨.stepResultMissing, env.calls⟩
  | some rows =>
    let env := resetDoneEnvs config env rows
      (fun e => env.done e || env.restartEpisode e) resetObs
    .ok { env with latestObs := env.observed }

def executeSteps (env : EnvState n A O) (chunkStarted : Bool) :
    List (TickInput n A O) →
    Except (Raised n A O) (EnvState n A O × List (StepFeedback n))
  | [] => .ok (env, [])
  | input :: inputs => do
    let next ← executeActionStep env input chunkStarted
    let rest ← executeSteps next.1 false inputs
    pure (rest.1, next.2 :: rest.2)

/-- `step` with the serial executor. -/
def serialStep (config : EnvConfig) (env : EnvState n A O)
    (inputs : List (TickInput n A O)) (fresh : Option (Fin n → EnvObs O))
    (resetObs : Fin n → EnvObs O) :
    Except (Raised n A O) (EnvState n A O × List (StepFeedback n)) := do
  let executed ← executeSteps env true inputs
  let finished ← finishExecutionSlice config executed.1 executed.2 fresh
    resetObs
  pure (finished, executed.2)

structure ResetOptions (n : ℕ) where
  envIdx : Option (List (Fin n))
  resetEval : Bool

def ResetOptions.envIds (options : ResetOptions n) : List (Fin n) :=
  match options.envIdx with
  | none => List.finRange n
  | some ids => if options.resetEval then List.finRange n else ids

def servesCached (config : EnvConfig) (env : EnvState n A O)
    (options : ResetOptions n) : Bool :=
  config.autoReset && env.latestObs.isSome && !options.resetEval

def resetIds (config : EnvConfig) (env : EnvState n A O)
    (options : ResetOptions n) : List (Fin n) :=
  if servesCached config env options then [] else options.envIds

def reset (config : EnvConfig) (env : EnvState n A O)
    (options : ResetOptions n) (resetObs : Fin n → EnvObs O) :
    EnvState n A O :=
  let cleared : EnvState n A O := { env with
      mergedStepResult := none
      restartEpisode := noEnvs
      done := noEnvs }
  if servesCached config env options then cleared
  else
    { cleared with
      latestObs := some (options.envIds.map resetObs)
      calls := env.calls ++ [.reset options.envIds] }

/-! ## What a call to the simulator changes -/

theorem done_updateStepResult {e : Fin n} (he : envIds e) :
    (updateStepResult merged envIds rows e).done = (rows e).done := by
  unfold updateStepResult
  cases merged with
  | none => rfl
  | some old =>
    simp only [he, if_true]
    rfl

theorem updateStepResult_of_not_mem {e : Fin n} (he : envIds e = false) :
    updateStepResult (some old) envIds rows e = old e := by
  simp [updateStepResult, he]

theorem maskStep_eq_ok
    (hstep : maskStep env tick executeMask isIntervention reply =
      .ok (next, nextTick)) :
    next = { env with
      latestObs := some (updateLatestObs (env.latestObs.getD []) executeMask
        (applyManualStepOverrides tick reply))
      mergedStepResult := some (updateStepResult env.mergedStepResult
        executeMask (applyManualStepOverrides tick reply))
      calls := env.calls ++ [.step executeMask tick.action isIntervention reply
          (applyManualStepOverrides tick reply)] } ∧
    nextTick = { tick with
      done := fun e => tick.done e ||
        (executeMask e && (applyManualStepOverrides tick reply e).done) } := by
  simp only [maskStep, bind_eq_ok, require_eq_ok] at hstep
  obtain ⟨_, _, hpure⟩ := hstep
  obtain ⟨rfl, rfl⟩ := Prod.mk.inj (Except.ok.inj hpure)
  exact ⟨rfl, rfl⟩

theorem maskStep_eq_error
    (hstep : maskStep env tick executeMask isIntervention reply =
      .error raised) :
    raised.calls = env.calls ++
      [.step executeMask tick.action isIntervention reply
        (applyManualStepOverrides tick reply)] := by
  simp only [maskStep, bind_eq_error, require_eq_error] at hstep
  rcases hstep with ⟨_, rfl⟩ | ⟨_, _, hpure⟩
  · rfl
  · cases hpure

/-! ## The rule for one tick -/

theorem TickState.interventionMask_live {tick : TickState n A} {e : Fin n}
    (hmask : (tick.isIntervened e && tick.interventionMask poll e) = true) :
    tick.done e = false := by
  simp only [TickState.interventionMask, Bool.and_eq_true,
    Bool.not_eq_true'] at hmask
  exact hmask.2.2

theorem TickState.executeMask_live {tick : TickState n A} {e : Fin n}
    (hmask : tick.executeMask e) : tick.done e = false := by
  simp only [TickState.executeMask, Bool.and_eq_true,
    Bool.not_eq_true'] at hmask
  exact hmask.1

structure TickInvariant (P : EnvState n A O → TickState n A → Prop) :
    Prop where
  step : ∀ {env tick executeMask isIntervention reply next}, P env tick →
    (∀ e, executeMask e → tick.done e = false) →
    maskStep env tick executeMask isIntervention reply = .ok next →
    P next.1 next.2
  readCommands : ∀ {env tick} (poll : Poll n A O), P env tick →
    P env (tick.readCommands poll)
  takeOver : ∀ {env tick} (poll : Poll n A O) (mask : Mask n), P env tick →
    P env (tick.takeOver poll mask)

def FinishesTick (P : EnvState n A O → TickState n A → Prop)
    (next : EnvState n A O × StepFeedback n) : Prop :=
  ∃ env tick reply stepped, P env tick ∧
    stepSelected env tick tick.executeMask tick.isIntervened reply =
      .ok stepped ∧
    P stepped.1 stepped.2 ∧ publishStep stepped.1 stepped.2 = .ok next

def RaisesInTick (P : EnvState n A O → TickState n A → Prop)
    (raised : Raised n A O) : Prop :=
  ∃ env tick, P env tick ∧ (raised.calls = env.calls ∨
      ∃ executeMask isIntervention reply result,
        (∀ e, executeMask e → tick.done e = false) ∧
        raised.calls = env.calls ++
          [.step executeMask tick.action isIntervention reply result])

def TickOutcome.Satisfies (P : EnvState n A O → TickState n A → Prop) :
    TickOutcome n A O → Prop
  | .polling env tick => P env tick
  | .finished env feedback => FinishesTick P (env, feedback)

namespace TickInvariant

variable {P : EnvState n A O → TickState n A → Prop}
  {env : EnvState n A O} {tick : TickState n A} {poll : Poll n A O}
  {executeMask isIntervention : Mask n} {reply : Fin n → StepRow O}
  {raised : Raised n A O}

theorem stepSelected_ok (hP : TickInvariant P) (htick : P env tick)
    (hmask : ∀ e, executeMask e → tick.done e = false)
    (hstep : stepSelected env tick executeMask isIntervention reply =
      .ok next) : P next.1 next.2 := by
  unfold stepSelected at hstep
  split_ifs at hstep
  · exact hP.step htick hmask hstep
  · cases hstep
    exact htick

theorem stepSelected_error (htick : P env tick)
    (hmask : ∀ e, executeMask e → tick.done e = false)
    (hstep : stepSelected env tick executeMask isIntervention reply =
      .error raised) : RaisesInTick P raised := by
  unfold stepSelected at hstep
  split_ifs at hstep
  exact ⟨env, tick, htick, .inr ⟨executeMask, isIntervention, reply, _,
    hmask, maskStep_eq_error hstep⟩⟩

section

variable (hP : TickInvariant P) (htick : P env tick)

include hP htick

theorem finishTick_ok (hfinish : finishTick env tick reply = .ok next) :
    FinishesTick P next := by
  obtain ⟨stepped, hstep, hpublish⟩ := bind_eq_ok.mp hfinish
  have hstepped := hP.stepSelected_ok htick
    (fun e hmask => TickState.executeMask_live hmask) hstep
  exact ⟨env, tick, reply, stepped, htick, hstep, hstepped, hpublish⟩

theorem finishTick_error
    (hfinish : finishTick env tick reply = .error raised) :
    RaisesInTick P raised := by
  have hlive : ∀ e, tick.executeMask e → tick.done e = false :=
    fun e hmask => TickState.executeMask_live hmask
  rcases bind_eq_error.mp hfinish with hstep | ⟨stepped, hstep, hpublish⟩
  · exact stepSelected_error htick hlive hstep
  · have hstepped := hP.stepSelected_ok htick hlive hstep
    unfold publishStep at hpublish
    split at hpublish
    · cases hpublish
      exact ⟨_, _, hstepped, .inl rfl⟩
    · cases hpublish

theorem pollTeleops_ok (hpoll : pollTeleops env tick poll = .ok outcome) :
    outcome.Satisfies P := by
  have hread := hP.readCommands poll htick
  unfold pollTeleops at hpoll
  dsimp only at hpoll
  split_ifs at hpoll
  · obtain ⟨next, hnext, rfl⟩ := map_eq_ok.mp hpoll
    obtain ⟨stepped, hstep, hpure⟩ := bind_eq_ok.mp hnext
    cases hpure
    exact hP.takeOver poll _ (hP.stepSelected_ok hread
      (fun e hmask => TickState.interventionMask_live hmask) hstep)
  · obtain ⟨next, hnext, rfl⟩ := map_eq_ok.mp hpoll
    exact hP.finishTick_ok hread hnext

theorem pollTeleops_error (hpoll : pollTeleops env tick poll = .error raised) :
    RaisesInTick P raised := by
  have hread := hP.readCommands poll htick
  unfold pollTeleops at hpoll
  dsimp only at hpoll
  split_ifs at hpoll
  · rcases bind_eq_error.mp (map_eq_error.mp hpoll) with
      hstep | ⟨stepped, _, hpure⟩
    · exact stepSelected_error hread
        (fun e hmask => TickState.interventionMask_live hmask) hstep
    · cases hpure
  · exact hP.finishTick_error hread (map_eq_error.mp hpoll)

end

theorem stepWithTeleop_ok (hP : TickInvariant P) (htick : P env tick)
    (hloop : stepWithTeleop env tick reply polls = .ok next) :
    FinishesTick P next := by
  induction polls generalizing env tick with
  | nil => exact hP.finishTick_ok htick hloop
  | cons poll polls ih =>
    unfold stepWithTeleop at hloop
    split at hloop
    · cases hloop
    next polled ticked hpoll =>
      exact ih (hP.pollTeleops_ok htick hpoll) hloop
    next finished feedback hpoll =>
      cases hloop
      exact hP.pollTeleops_ok htick hpoll

theorem stepWithTeleop_error (hP : TickInvariant P) (htick : P env tick)
    (hloop : stepWithTeleop env tick reply polls = .error raised) :
    RaisesInTick P raised := by
  induction polls generalizing env tick with
  | nil => exact hP.finishTick_error htick hloop
  | cons poll polls ih =>
    unfold stepWithTeleop at hloop
    split at hloop
    next hpoll =>
      cases hloop
      exact hP.pollTeleops_error htick hpoll
    next polled ticked hpoll =>
      exact ih (hP.pollTeleops_ok htick hpoll) hloop
    · cases hloop

end TickInvariant

end BaseEnv
end VerlVla
