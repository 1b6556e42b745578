import VerlVla.EvaluatedCases

/-!
# The outcomes of a vector

One tick moves exactly the robots that have not ended.  A wave that shares one
policy therefore gives each of its cases the outcome of the case alone.
-/

namespace VerlVla
namespace NativeEval

open BaseEnv

/-! ## A tick without operator devices -/

section Tick

variable {n : ℕ} {A O : Type} {env : EnvState n A O} (action : Fin n → A)
  (reply : Fin n → StepRow O) (chunkStarted : Bool)

/-- A row of the merged result after a robot was stepped. -/
structure StepRow.Reports (row reply : StepRow O) : Prop where
  observation : row.obs.observation = reply.obs.observation
  identity : ∀ field value, reply.obs.identity.lookup field = some value →
    row.obs.identity.lookup field = some value
  terminated : row.terminated = reply.terminated
  truncated : row.truncated = reply.truncated
  success : row.success = reply.success
  score : reply.score.isSome → row.score = reply.score

theorem updateStepResult_reports {e : Fin n} (he : envIds e = true) :
    StepRow.Reports (updateStepResult merged envIds reply e) (reply e) := by
  cases merged with
  | none => constructor <;> simp [updateStepResult]
  | some old =>
    constructor
    · simp [updateStepResult, he, EnvObs.over]
    · intro field value hvalue
      have hfield : field ∈ (reply e).obs.identity := by
        rw [← AList.lookup_isSome, hvalue]
        rfl
      simp only [updateStepResult, he, if_true, EnvObs.over]
      rw [AList.lookup_union_left hfield]
      exact hvalue
    · simp [updateStepResult, he]
    · simp [updateStepResult, he]
    · simp [updateStepResult, he]
    · intro hscore
      cases hreply : (reply e).score with
      | none =>
        simp [hreply] at hscore
      | some score => simp [updateStepResult, he, hreply]

structure QuietTick (env : EnvState n A O) (reply : Fin n → StepRow O)
    (base : EnvState n A O) (rows : Fin n → StepRow O) : Prop where
  merged : base.mergedStepResult = some rows
  intervened : base.chunkIntervened = noEnvs
  latest : (base.latestObs.getD []).length = n
  done : base.done = fun e => env.done e || (rows e).done
  stepped : ∀ e, env.done e = false → StepRow.Reports (rows e) (reply e)
  unscored : ∀ e, env.done e = false → (reply e).score = none →
    (∀ old, env.mergedStepResult = some old → (old e).score = none) →
    (rows e).score = none
  rested : ∀ e, env.done e = true →
    ∃ old, env.mergedStepResult = some old ∧ rows e = old e

theorem executeMask_quiet (hintervened : env.chunkIntervened = noEnvs) :
    (beginTick env action chunkStarted).2.executeMask =
      fun e => !env.done e := by
  funext e
  cases chunkStarted <;>
    simp [beginTick, TickState.executeMask, hintervened, noEnvs]

theorem overrides_quiet :
    applyManualStepOverrides (beginTick env action chunkStarted).2 reply =
      reply := by
  funext e
  simp [applyManualStepOverrides, applyManualReward, applyForceTruncated,
    beginTick, noEnvs]

theorem length_updateLatestObs (latest : List (EnvObs O)) (envIds : Mask n)
    (rows : Fin n → StepRow O) :
    (updateLatestObs latest envIds rows).length = latest.length := by
  simp [updateLatestObs]

theorem maskStep_returns (tick : TickState n A)
    (executeMask isIntervention : Mask n)
    (hlatest : (env.latestObs.getD []).length = n) :
    ∃ next, maskStep env tick executeMask isIntervention reply = .ok next := by
  have hcheck : ∀ e : Fin n, executeMask e = true →
      e < (env.latestObs.getD []).length := by
    intro e _
    rw [hlatest]
    exact e.isLt
  simp only [maskStep]
  rw [require_of hcheck]
  exact ⟨_, rfl⟩

theorem stepSelected_quiet (hn : 0 < n)
    (hlatest : (env.latestObs.getD []).length = n)
    (hunstepped : env.mergedStepResult = none → env.done = noEnvs) :
    ∃ stepped rows, stepSelected (beginTick env action chunkStarted).1
        (beginTick env action chunkStarted).2 (fun e => !env.done e)
        (beginTick env action chunkStarted).2.isIntervened reply =
          .ok stepped ∧
      stepped.1.mergedStepResult = some rows ∧
      stepped.1.done = env.done ∧
      (stepped.1.latestObs.getD []).length = n ∧
      stepped.2.chunkIntervened =
        (beginTick env action chunkStarted).2.chunkIntervened ∧
      stepped.2.doneBeforeStep = env.done ∧
      (∀ e, env.done e = false → rows e =
        updateStepResult env.mergedStepResult (fun e => !env.done e) reply e) ∧
      (∀ e, env.done e = true →
        ∃ old, env.mergedStepResult = some old ∧ rows e = old e) := by
  unfold stepSelected
  by_cases hany : Mask.any (fun e => !env.done e) = true
  · rw [if_pos hany]
    have hbegin : ((beginTick env action chunkStarted).1.latestObs.getD
        []).length = n := hlatest
    obtain ⟨stepped, hstep⟩ := maskStep_returns reply
      (beginTick env action chunkStarted).2 (fun e => !env.done e)
      (beginTick env action chunkStarted).2.isIntervened hbegin
    obtain ⟨henv, htick⟩ := maskStep_eq_ok hstep
    rw [overrides_quiet] at henv htick
    have hobs : stepped.1.latestObs = some (updateLatestObs
        (env.latestObs.getD []) (fun e => !env.done e) reply) := by
      rw [henv]
      rfl
    have hmerged : stepped.1.mergedStepResult = some (updateStepResult
        env.mergedStepResult (fun e => !env.done e) reply) := by
      rw [henv]
      rfl
    have hdone : stepped.1.done = env.done := by
      rw [henv]
      rfl
    have hbefore : stepped.2.doneBeforeStep = env.done := by
      rw [htick]
      rfl
    refine ⟨stepped, _, hstep, hmerged, hdone, ?_, by rw [htick], hbefore,
      fun e _ => rfl, ?_⟩
    · rw [hobs, Option.getD_some, length_updateLatestObs]
      exact hlatest
    · intro e hrests
      cases hold : env.mergedStepResult with
      | none =>
        rw [hunstepped hold] at hrests
        cases hrests
      | some old =>
        refine ⟨old, rfl, ?_⟩
        simp [updateStepResult, hrests]
  · rw [if_neg hany]
    have hall : ∀ e, env.done e = true := by
      intro e
      by_contra hdone
      apply hany
      rw [Mask.any, List.any_eq_true]
      exact ⟨e, List.mem_finRange e, by simpa using hdone⟩
    cases hmerged : env.mergedStepResult with
    | none =>
      have hrest := hall ⟨0, hn⟩
      rw [hunstepped hmerged] at hrest
      cases hrest
    | some old =>
      refine ⟨_, old, rfl, hmerged, rfl, hlatest, rfl, rfl, ?_,
        fun e _ => ⟨old, rfl, rfl⟩⟩
      intro e hdone
      rw [hall e] at hdone
      cases hdone

theorem executeActionStep_quiet (hn : 0 < n)
    (hintervened : env.chunkIntervened = noEnvs)
    (hlatest : (env.latestObs.getD []).length = n)
    (hunstepped : env.mergedStepResult = none → env.done = noEnvs) :
    ∃ base rows, executeActionStep env ⟨action, [], reply⟩ chunkStarted =
        .ok (base, stepFeedback rows env.done) ∧
      QuietTick env reply base rows := by
  obtain ⟨stepped, rows, hstep, hmerged, hdone, hlength, hchunk, hbefore,
    hmoved, hrested⟩ := stepSelected_quiet action reply chunkStarted hn
      hlatest hunstepped
  have hstarted : (beginTick env action chunkStarted).2.chunkIntervened =
      noEnvs := by
    simp only [beginTick]
    rw [hintervened, ite_self]
  simp only [executeActionStep, stepWithTeleop, finishTick]
  rw [executeMask_quiet action chunkStarted hintervened, hstep]
  simp only [bind, Except.bind, publishStep, hmerged, hbefore]
  refine ⟨_, rows, rfl, ?_⟩
  constructor
  · rfl
  · exact hchunk.trans hstarted
  · exact hlength
  · rw [hdone]
  · intro e he
    rw [hmoved e he]
    exact updateStepResult_reports reply (by simp [he])
  · intro e he hscore hold
    rw [hmoved e he]
    unfold updateStepResult
    cases hmergedBefore : env.mergedStepResult with
    | none => exact hscore
    | some old => simp [he, hscore, hold old hmergedBefore]
  · exact hrested

end Tick

section Vector

variable {S A O : Type} (simulator : RobotSimulator S A O)
  {setup : VectorSetup} {env next : VectorEnv setup S A O}

def robotFeedback {n : ℕ} (feedback : StepFeedback n) (e : Fin n) :
    RobotFeedback where
  terminated := feedback.terminated e
  truncated := feedback.truncated e
  success := feedback.success e
  score := feedback.score e

structure ShowsRobot (env : VectorEnv setup S A O) (e : Fin setup.size)
    (obs : EnvObs O) : Prop where
  observation : obs.observation = simulator.observe (env.robots e)
  policySeed : obs.identity.lookup "policy_seed" =
    some (env.cases e).policySeed

structure MergedRow (env : VectorEnv setup S A O) (e : Fin setup.size)
    (row : StepRow O) : Prop where
  obs : ShowsRobot simulator env e row.obs
  score : row.score.isSome = simulator.processScore.isSome
  done : row.done = env.base.done e

structure BetweenTicks (env : VectorEnv setup S A O) : Prop where
  intervened : env.base.chunkIntervened = noEnvs
  latest : env.obs.length = setup.size
  unstepped : env.base.mergedStepResult = none → env.base.done = noEnvs
  rows : ∀ rows, env.base.mergedStepResult = some rows →
    ∀ e, MergedRow simulator env e (rows e)

structure BetweenCalls (env : VectorEnv setup S A O) : Prop
    extends BetweenTicks simulator env where
  shows : ∀ e : Fin setup.size, ∀ obs, env.obs[e.val]? = some obs →
    ShowsRobot simulator env e obs

theorem caseIdentity_policySeed (seed : ℤ) (case : SelectedCase) :
    (caseIdentity seed case).lookup "policy_seed" = some case.policySeed := by
  simp [caseIdentity, AList.singleton, AList.lookup]

theorem showsRobot_robotObs (env : VectorEnv setup S A O)
    (e : Fin setup.size) :
    ShowsRobot simulator env e (env.robotObs simulator e) where
  observation := rfl
  policySeed := caseIdentity_policySeed _ _

/-! ## One tick of the vector -/

def TickMoves (env next : VectorEnv setup S A O)
    (feedback : StepFeedback setup.size) (action : Fin setup.size → A)
    (e : Fin setup.size) : Prop :=
  ((next.robots e, next.base.done e), [robotFeedback feedback e]) =
    runRobot simulator (env.robots e) (env.base.done e) [action e]

theorem merged_of_reports {e : Fin setup.size} (hreports : StepRow.Reports row
      (stepRow simulator setup.robodojo.seed (next.cases e) (next.robots e)))
    (hscore : (stepRow simulator setup.robodojo.seed (next.cases e)
        (next.robots e)).score = none → row.score = none)
    (hdone : next.base.done e = row.done) :
    MergedRow simulator next e row := by
  constructor
  · constructor
    · exact hreports.observation
    · exact hreports.identity _ _ (caseIdentity_policySeed _ _)
  · cases hprocess : simulator.processScore with
    | none =>
      rw [hscore (by simp [stepRow, hprocess])]
      rfl
    | some score =>
      rw [hreports.score (by simp [stepRow, hprocess])]
      simp [stepRow, hprocess]
  · exact hdone.symm

theorem map_const_of_isSome {α β : Type} {first : Option α}
    {second : Option β} (hsome : first.isSome = second.isSome) :
    (first.map fun _ => (0 : ℚ)) = second.map fun _ => 0 := by
  cases first <;> cases second <;> simp_all

theorem succeeded_or_truncated (robot : S) : (succeeded simulator robot ||
      (simulator.endFlag robot && !succeeded simulator robot)) =
        simulator.endFlag robot := by
  simpa [RobotFeedback.done, actFeedback] using
    done_actFeedback simulator robot

section Stepped

variable {env next : VectorEnv setup S A O} {rows : Fin setup.size → StepRow O}
  {action : Fin setup.size → A} {e : Fin setup.size}

structure Answered (env next : VectorEnv setup S A O)
    (action : Fin setup.size → A) (rows : Fin setup.size → StepRow O) :
    Prop where
  cases : next.cases = env.cases
  robots : ∀ e, next.robots e = if env.base.done e then env.robots e
    else simulator.takeAction (env.robots e) (action e)
  quiet : QuietTick env.base (fun e => stepRow simulator
    setup.robodojo.seed (next.cases e) (next.robots e)) next.base rows

variable {simulator}

section

variable (hanswered : Answered simulator env next action rows)
  (henv : BetweenTicks simulator env)

include hanswered henv

theorem Answered.row (e : Fin setup.size) :
    MergedRow simulator next e (rows e) := by
  have hdone := congrFun hanswered.quiet.done e
  cases hrests : env.base.done e with
  | true =>
    obtain ⟨old, hold, hrow⟩ := hanswered.quiet.rested e hrests
    have hrobot := hanswered.robots e
    have hmerged := henv.rows old hold e
    rw [hrests, if_pos rfl] at hrobot
    rw [hrests, Bool.true_or] at hdone
    rw [hrow]
    constructor
    · constructor
      · rw [hrobot]
        exact hmerged.obs.observation
      · rw [hanswered.cases]
        exact hmerged.obs.policySeed
    · exact hmerged.score
    · rw [hmerged.done, hdone, hrests]
  | false =>
    rw [hrests, Bool.false_or] at hdone
    apply merged_of_reports simulator (hanswered.quiet.stepped e hrests)
    · intro hscore
      apply hanswered.quiet.unscored e hrests hscore
      intro old hold
      have hmerged := (henv.rows old hold e).score
      cases hprocess : simulator.processScore with
      | none =>
        rw [hprocess] at hmerged
        simpa using hmerged
      | some score => simp [stepRow, hprocess] at hscore
    · exact hdone

theorem Answered.betweenTicks : BetweenTicks simulator next := by
  constructor
  · exact hanswered.quiet.intervened
  · exact hanswered.quiet.latest
  · intro hnone
    rw [hanswered.quiet.merged] at hnone
    cases hnone
  · intro merged hmerged e
    rw [hanswered.quiet.merged] at hmerged
    cases hmerged
    exact hanswered.row henv e

theorem Answered.moves (e : Fin setup.size) :
    TickMoves simulator env next (stepFeedback rows env.base.done)
      action e := by
  have hrow := hanswered.row henv e
  have hrobot := hanswered.robots e
  have hdone := congrFun hanswered.quiet.done e
  unfold TickMoves
  cases hrests : env.base.done e with
  | true =>
    rw [hrests, if_pos rfl] at hrobot
    rw [hrests, Bool.true_or] at hdone
    rw [hrobot, hdone, runRobot_done]
    have hscore := map_const_of_isSome hrow.score
    simp [robotFeedback, stepFeedback, hrests, restFeedback, hscore]
  | false =>
    have hreports := hanswered.quiet.stepped e hrests
    rw [hrests, Bool.false_or] at hdone
    rw [hrests] at hrobot
    simp only [Bool.false_eq_true, if_false] at hrobot
    have hended : (rows e).done = simulator.endFlag (next.robots e) := by
      rw [StepRow.done, hreports.terminated, hreports.truncated]
      exact succeeded_or_truncated simulator _
    have hscore : (rows e).score = (stepRow simulator setup.robodojo.seed
        (next.cases e) (next.robots e)).score := by
      cases hprocess : simulator.processScore with
      | none =>
        have hsome := hrow.score
        rw [hprocess] at hsome
        simpa [stepRow, hprocess] using hsome
      | some score =>
        apply hreports.score
        simp [stepRow, hprocess]
    have hfeedback : robotFeedback (stepFeedback rows env.base.done) e =
        actFeedback simulator (next.robots e) := by
      simp [robotFeedback, stepFeedback, hrests, hreports.terminated,
        hreports.truncated, hreports.success, hscore, stepRow, actFeedback,
        Function.comp_def]
    rw [hfeedback, hdone, hended, hrobot]
    simp [runRobot]

end

end Stepped

theorem controlTick_moves (henv : BetweenTicks simulator env)
    (action : Fin setup.size → A) (chunkStarted : Bool) :
    ∃ next feedback, controlTick simulator env action chunkStarted =
        .ok (next, feedback) ∧
      BetweenTicks simulator next ∧
      next.base.mergedStepResult.isSome ∧
      next.cases = env.cases ∧
      ∀ e, TickMoves simulator env next feedback action e := by
  obtain ⟨base, rows, hstep, hquiet⟩ := executeActionStep_quiet action
    (fun e => stepRow simulator setup.robodojo.seed (env.cases e)
      (if (!env.base.done e) = true then
        simulator.takeAction (env.robots e) (action e)
      else env.robots e))
    chunkStarted setup.topology.numEnvs_pos henv.intervened henv.latest henv.unstepped
  unfold controlTick
  simp only
  rw [executeMask_quiet action chunkStarted henv.intervened, hstep]
  have hanswered : Answered simulator env
      { env with
        base := base
        robots := fun e => if (!env.base.done e) = true then
            simulator.takeAction (env.robots e) (action e)
          else env.robots e } action rows := by
    constructor
    · rfl
    · intro e
      cases hdone : env.base.done e <;> simp [hdone]
    · exact hquiet
  refine ⟨_, _, rfl, hanswered.betweenTicks henv, ?_, rfl,
    hanswered.moves henv⟩
  simp [hquiet.merged]

/-! ## A chunk of the vector -/

theorem runRobot_cons (robot : S) (done : Bool) (action : A)
    (actions : List A) :
    runRobot simulator robot done (action :: actions) = ((runRobot simulator
          (runRobot simulator robot done [action]).1.1
          (runRobot simulator robot done [action]).1.2 actions).1,
        (runRobot simulator robot done [action]).2 ++ (runRobot simulator
            (runRobot simulator robot done [action]).1.1
            (runRobot simulator robot done [action]).1.2 actions).2) := by
  cases done <;> simp [runRobot]

def ChunkMoves (env next : VectorEnv setup S A O)
    (steps : List (StepFeedback setup.size))
    (actions : List (Fin setup.size → A)) (e : Fin setup.size) : Prop :=
  ((next.robots e, next.base.done e),
      steps.map fun feedback => robotFeedback feedback e) =
    runRobot simulator (env.robots e) (env.base.done e)
      (actions.map fun action => action e)

theorem executeActions_moves (henv : BetweenTicks simulator env)
    (chunkStarted : Bool) (actions : List (Fin setup.size → A)) :
    ∃ next steps, executeActions simulator env chunkStarted actions =
        .ok (next, steps) ∧
      BetweenTicks simulator next ∧
      (actions ≠ [] → next.base.mergedStepResult.isSome) ∧
      next.cases = env.cases ∧
      ∀ e, ChunkMoves simulator env next steps actions e := by
  induction actions generalizing env chunkStarted with
  | nil => exact ⟨env, [], rfl, henv, fun hne => absurd rfl hne, rfl,
      fun e => rfl⟩
  | cons action actions ih =>
    obtain ⟨middle, feedback, htick, hmiddle, hmerged, hcases, hmoves⟩ :=
      controlTick_moves simulator henv action chunkStarted
    obtain ⟨next, steps, hrest, hnext, hlater, hnextCases, hchunk⟩ :=
      ih hmiddle false
    refine ⟨next, feedback :: steps, ?_, hnext, ?_,
      hnextCases.trans hcases, ?_⟩
    · rw [executeActions, htick]
      simp only [bind, Except.bind, hrest]
    · intro _
      cases actions with
      | nil =>
        cases hrest
        exact hmerged
      | cons other rest => exact hlater (List.cons_ne_nil _ _)
    · intro e
      have hfirst := hmoves e
      have hothers := hchunk e
      unfold TickMoves at hfirst
      unfold ChunkMoves at hothers ⊢
      rw [List.map_cons, List.map_cons, runRobot_cons, ← hfirst, ← hothers]
      rfl

theorem finishExecutionSlice_kept {n : ℕ} {A O : Type}
    {base : EnvState n A O} {rows : Fin n → StepRow O}
    (hmerged : base.mergedStepResult = some rows)
    (steps : List (StepFeedback n)) (resetObs : Fin n → EnvObs O) :
    finishExecutionSlice evalEnvConfig base steps none resetObs =
      .ok { base with
        latestObs := some (List.ofFn fun e => (rows e).obs)
        restartEpisode := noEnvs } := by
  unfold finishExecutionSlice
  simp [hmerged, resetDoneEnvs, evalEnvConfig, clearFlags,
    finalizeExecutionObservation, EnvState.observed]

theorem stepEnv_moves (henv : BetweenTicks simulator env)
    (chunks : Fin setup.size → Chunk A) :
    ∃ next steps, stepEnv simulator env chunks = .ok (next, steps) ∧
      BetweenCalls simulator next ∧ next.cases = env.cases ∧
      ∀ e, ((next.robots e, next.base.done e),
          steps.map fun feedback => robotFeedback feedback e) =
        runRobot simulator (env.robots e) (env.base.done e)
          (List.ofFn (chunks e)) := by
  obtain ⟨middle, steps, hactions, hmiddle, hmerged, hcases, hmoves⟩ :=
    executeActions_moves simulator henv true
      (List.ofFn fun tick e => chunks e tick)
  obtain ⟨rows, hrows⟩ := Option.isSome_iff_exists.mp (hmerged (by simp))
  unfold stepEnv
  rw [hactions]
  simp only [bind, Except.bind]
  rw [finishExecutionSlice_kept hrows]
  refine ⟨_, steps, rfl, ?_, hcases, ?_⟩
  · constructor
    · constructor
      · exact hmiddle.intervened
      · simp [VectorEnv.obs]
      · intro hnone
        simp [hrows] at hnone
      · intro merged hsome e
        have hrow := hmiddle.rows merged hsome e
        exact ⟨⟨hrow.obs.observation, hrow.obs.policySeed⟩, hrow.score,
          hrow.done⟩
    · intro e obs hobs
      have hrow := hmiddle.rows rows hrows e
      simp [VectorEnv.obs] at hobs
      rw [← hobs]
      exact ⟨hrow.obs.observation, hrow.obs.policySeed⟩
  · intro e
    have hmove := hmoves e
    unfold ChunkMoves at hmove
    rw [List.map_ofFn] at hmove
    exact hmove

end Vector

end NativeEval
end VerlVla
