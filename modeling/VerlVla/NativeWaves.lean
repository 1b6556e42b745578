import VerlVla.VectorOutcomes

/-!
# One wave of the native evaluation

The policy answers every row by itself, so the micro-batches do not matter.
The loop of a wave leaves each case with the outcome of the case alone.
-/

namespace VerlVla

open List hiding cons nil
namespace NativeEval

open BaseEnv

/-! ## Inference -/

section Inference

variable {O A : Type} {model : FastWam O A} {act : O → Option ℤ → Chunk A}

/-- The policy answers a row from its observation and its seed. -/
def RowWise (model : FastWam O A) (act : O → Option ℤ → Chunk A) : Prop :=
  ∀ rows seeds, rows.length = seeds.length →
    model.inferBatch rows seeds = List.zipWith act rows seeds

def rowAction (act : O → Option ℤ → Chunk A) (row : EnvObs O) : Chunk A :=
  act row.observation (row.identity.lookup "policy_seed")

def Seeded (obs : List (EnvObs O)) : Prop :=
  ∀ row ∈ obs, (row.identity.lookup "policy_seed").isSome

theorem policySeeds_of_seeded {obs : List (EnvObs O)} (hobs : Seeded obs) :
    ∃ seeds, policySeeds obs = some seeds ∧ seeds.map some = obs.map fun row =>
        row.identity.lookup "policy_seed" := by
  induction obs with
  | nil => exact ⟨[], rfl, rfl⟩
  | cons row obs ih =>
    obtain ⟨seeds, hseeds, hrest⟩ := ih fun other hother =>
      hobs other (mem_cons_of_mem _ hother)
    obtain ⟨seed, hseed⟩ := Option.isSome_iff_exists.mp
      (hobs row mem_cons_self)
    refine ⟨seed :: seeds, ?_, ?_⟩
    · unfold policySeeds at hseeds ⊢
      rw [mapM_cons, hseed, hseeds]
      rfl
    · rw [map_cons, map_cons, hseed, hrest]

theorem sacSampleActions_rowWise (hmodel : RowWise model act)
    {obs : List (EnvObs O)} (hobs : Seeded obs) :
    sacSampleActions model obs = obs.map (rowAction act) := by
  obtain ⟨seeds, hseeds, hmap⟩ := policySeeds_of_seeded hobs
  unfold sacSampleActions
  rw [hseeds]
  simp only
  rw [hmap, hmodel _ _ (by simp), zipWith_map, zipWith_self]
  rfl

theorem inferShared_rowWise (hmodel : RowWise model act) (hobs : Seeded obs)
    (hne : obs ≠ []) (hsize : 0 < microbatchSize) :
    inferSharedModelInMicrobatches model obs microbatchSize =
      .ok (obs.map (rowAction act)) := by
  have hparts : (splitRows microbatchSize obs).map (sacSampleActions model) =
      (splitRows microbatchSize obs).map (List.map (rowAction act)) := by
    apply map_congr_left
    intro part hpart
    apply sacSampleActions_rowWise hmodel
    intro row hrow
    apply hobs
    rw [← flatten_splitRows hsize obs]
    exact mem_flatten_of_mem hpart hrow
  have hflat : ((splitRows microbatchSize obs).map
      (List.map (rowAction act))).flatten = obs.map (rowAction act) := by
    rw [← map_flatten, flatten_splitRows hsize]
  have hchunks : (splitRows microbatchSize obs).map
      (List.map (rowAction act)) ≠ [] := by
    intro hnil
    rw [hnil] at hflat
    exact hne (map_eq_nil_iff.mp hflat.symm)
  unfold inferSharedModelInMicrobatches
  simp only [hparts, hflat]
  rw [require_of hchunks, require_of (by simp)]
  rfl

end Inference

/-! ## The loop of a wave -/

section Loop

variable {S A O : Type} (simulator : RobotSimulator S A O)
  (act : O → Option ℤ → Chunk A) (reduction : ScoreReduction)
  {setup : VectorSetup}

def caseOf (env : VectorEnv setup S A O) (e : Fin setup.size) : ℤ × ℤ :=
  ((env.cases e).layout, (env.cases e).policySeed)

def loopOf {n : ℕ} (runs : Fin n → RobotRun S) : EvalLoop n where
  success e := (runs e).success
  done e := (runs e).done
  score e := (runs e).score
  calls e := (runs e).calls

/-- Every case of the wave stands where it stands alone after some calls. -/
structure CallsMade (wave : Wave setup S A O) (made : ℕ) : Prop where
  between : BetweenCalls simulator wave.env
  robot : ∀ e, wave.env.robots e =
    (evaluateCase simulator act reduction made (caseOf wave.env e)).robot
  ended : ∀ e, wave.env.base.done e =
    (evaluateCase simulator act reduction made (caseOf wave.env e)).done
  loop : wave.loop = loopOf fun e =>
    evaluateCase simulator act reduction made (caseOf wave.env e)

theorem runRobot_scored (robot : S) (done : Bool) (actions : List A)
    (hfeedback : feedback ∈ (runRobot simulator robot done actions).2) :
    feedback.score.isSome = simulator.processScore.isSome := by
  induction actions generalizing robot done with
  | nil => cases hfeedback
  | cons action actions ih =>
    cases done with
    | true =>
      rw [runRobot_done] at hfeedback
      rw [eq_of_mem_replicate hfeedback]
      simp [restFeedback]
    | false =>
      simp only [runRobot, Bool.false_eq_true, if_false, mem_cons] at hfeedback
      rcases hfeedback with rfl | hrest
      · simp [actFeedback]
      · exact ih _ _ hrest

theorem length_runRobot (robot : S) (done : Bool) (actions : List A) :
    (runRobot simulator robot done actions).2.length = actions.length := by
  induction actions generalizing robot done with
  | nil => rfl
  | cons action actions ih => cases done <;> simp [runRobot, ih]

theorem hasScores_of_robots {n : ℕ} (hn : 0 < n)
    {steps : List (StepFeedback n)} (hsteps : steps ≠ [])
    (hscored : ∀ e, ∀ feedback ∈ steps.map fun step => robotFeedback step e,
      feedback.score.isSome = simulator.processScore.isSome) :
    hasScores steps = simulator.processScore.isSome := by
  cases steps with
  | nil => exact absurd rfl hsteps
  | cons step steps =>
    have hstep : ∀ e, (step.score e).isSome =
        simulator.processScore.isSome := by
      intro e
      exact hscored e (robotFeedback step e) (by simp)
    simp only [hasScores, hstep]
    cases simulator.processScore.isSome with
    | true => simp
    | false =>
      rw [all_eq_false]
      exact ⟨⟨0, hn⟩, mem_finRange _, by simp⟩

theorem observeSteps_robot {n : ℕ} (hn : 0 < n)
    {steps : List (StepFeedback n)} (hsteps : steps ≠ [])
    (runs : Fin n → RobotRun S) (seeds : Fin n → ℤ)
    (hreported : ∀ e, (steps.map fun step => robotFeedback step e) =
      (runRobot simulator (runs e).robot (runs e).done (ofFn
        (act (simulator.observe (runs e).robot) (some (seeds e))))).2) :
    (loopOf runs).countCalls.observeSteps reduction steps =
      loopOf fun e => policyCall simulator act reduction (seeds e)
        (runs e) := by
  have hscores := hasScores_of_robots simulator hn hsteps (by
    intro e feedback hfeedback
    rw [hreported e] at hfeedback
    exact runRobot_scored simulator _ _ _ hfeedback)
  have hrow : ∀ e, scoreRow steps e =
      (steps.map fun step => robotFeedback step e).map fun step =>
        step.score.getD 0 := by
    intro e
    simp [scoreRow, robotFeedback, Function.comp_def]
  have hdones : ∀ e, doneRow steps e =
      (steps.map fun step => robotFeedback step e).map
        RobotFeedback.done := by
    intro e
    simp [doneRow, robotFeedback, RobotFeedback.done, Function.comp_def]
  unfold EvalLoop.observeSteps
  simp only [loopOf, EvalLoop.countCalls, policyCall, EvalLoop.mk.injEq]
  refine ⟨?_, ?_, ?_, rfl⟩
  · funext e
    rw [← hreported e, any_map]
    rfl
  · funext e
    rw [← hreported e, any_map, any_map]
    rfl
  · funext e
    rw [← hreported e]
    simp only [hscores, nextScore, hrow, terminalOrLatestScores, hdones]
    cases simulator.processScore.isSome with
    | false => rfl
    | true =>
      cases reduction with
      | trajectoryMax => rfl
      | terminal => cases (runs e).done <;> rfl

variable {simulator act reduction}
  {wave : Wave setup S A O} {made : ℕ}

section

variable {env : VectorEnv setup S A O} (henv : BetweenCalls simulator env)

include henv

theorem BetweenCalls.seeded : Seeded env.obs := by
  intro row hrow
  obtain ⟨index, hindex, hrow⟩ := getElem_of_mem hrow
  have hlt : index < setup.size := henv.latest ▸ hindex
  have hshows := henv.shows ⟨index, hlt⟩ row
    (by rw [getElem?_eq_getElem hindex, hrow])
  rw [hshows.policySeed]
  rfl

theorem BetweenCalls.obs_ne_nil : env.obs ≠ [] := by
  apply ne_nil_of_length_pos
  rw [henv.latest]
  exact setup.topology.numEnvs_pos

theorem BetweenCalls.rowAction_get (e : Fin setup.size)
    (hlength : (env.obs.map (rowAction act)).length = setup.size) :
    (env.obs.map (rowAction act)).get (e.cast hlength.symm) =
      act (simulator.observe (env.robots e))
        (some (env.cases e).policySeed) := by
  have hlt : e.val < env.obs.length := by
    rw [henv.latest]
    exact e.isLt
  have hshows := henv.shows e _ (getElem?_eq_getElem hlt)
  simp only [get_eq_getElem, Fin.val_cast, getElem_map, rowAction]
  rw [hshows.observation, hshows.policySeed]

end

theorem caseOf_congr {env next : VectorEnv setup S A O}
    (hcases : next.cases = env.cases) : caseOf next = caseOf env := by
  unfold caseOf
  rw [hcases]

theorem CallsMade.execute (hwave : CallsMade simulator act reduction
      wave made) :
    ∃ next, wave.countCalls.execute simulator reduction
        (wave.env.obs.map (rowAction act)) = .ok next ∧
      CallsMade simulator act reduction next (made + 1) ∧
      next.env.cases = wave.env.cases ∧ next.identity = wave.identity := by
  have hlength : (wave.env.obs.map (rowAction act)).length = setup.size := by
    rw [length_map]
    exact hwave.between.latest
  obtain ⟨next, steps, hstep, hnext, hcases, hmoves⟩ := stepEnv_moves
    simulator hwave.between.toBetweenTicks fun e =>
      (wave.env.obs.map (rowAction act)).get (e.cast hlength.symm)
  have hcase := caseOf_congr hcases
  have hsteps : steps ≠ [] := by
    have hreported := congrArg (fun moved => moved.2.length)
      (hmoves ⟨0, setup.topology.numEnvs_pos⟩)
    simp only [length_map, length_runRobot, length_ofFn] at hreported
    apply ne_nil_of_length_pos
    omega
  have hmove : ∀ e, ((next.robots e, next.base.done e),
      steps.map fun feedback => robotFeedback feedback e) =
    runRobot simulator
      (evaluateCase simulator act reduction made (caseOf wave.env e)).robot
      (evaluateCase simulator act reduction made (caseOf wave.env e)).done
      (ofFn (act (simulator.observe (evaluateCase simulator act
        reduction made (caseOf wave.env e)).robot)
        (some (caseOf wave.env e).2))) := by
    intro e
    rw [hmoves e, hwave.between.rowAction_get e hlength, hwave.robot e,
      hwave.ended e]
    rfl
  refine ⟨⟨next, wave.identity, wave.loop.countCalls.observeSteps reduction
    steps⟩, ?_, ?_, hcases, rfl⟩
  · unfold Wave.execute
    rw [dif_pos hlength]
    simp only [Wave.countCalls, bind, Except.bind, hstep]
  · constructor
    · exact hnext
    · intro e
      simp only [hcase]
      rw [evaluateCase_succ, policyCall, ← hmove e]
    · intro e
      simp only [hcase]
      have hended := runRobot_ended simulator
        (evaluateCase simulator act reduction made (caseOf wave.env e)).robot
        (evaluateCase simulator act reduction made (caseOf wave.env e)).done
        (ofFn (act (simulator.observe (evaluateCase simulator act
          reduction made (caseOf wave.env e)).robot)
          (some (caseOf wave.env e).2)))
      rw [evaluateCase_succ, policyCall]
      simp only
      rw [← hended, ← hmove e]
    · simp only [hcase, hwave.loop, evaluateCase_succ]
      apply observeSteps_robot simulator act reduction
        setup.topology.numEnvs_pos hsteps
      intro e
      exact congrArg Prod.snd (hmove e)

theorem allDone_iff {n : ℕ} {loop : EvalLoop n} :
    loop.allDone = true ↔ ∀ e, loop.done e = true := by
  simp [EvalLoop.allDone]

theorem CallsMade.of_allDone
    (hwave : CallsMade simulator act reduction wave made)
    (hdone : wave.loop.allDone = true) (hlimit : made ≤ limit) :
    CallsMade simulator act reduction wave limit := by
  have hended := allDone_iff.mp hdone
  rw [hwave.loop] at hended
  have hsame : ∀ e, evaluateCase simulator act reduction limit
      (caseOf wave.env e) = evaluateCase simulator act reduction made
        (caseOf wave.env e) := fun e =>
    evaluateCase_of_done simulator (hended e) hlimit
  constructor
  · exact hwave.between
  · intro e
    rw [hsame e]
    exact hwave.robot e
  · intro e
    rw [hsame e]
    exact hwave.ended e
  · simp only [hsame]
    exact hwave.loop

theorem policyLoop_callsMade (hmodel : RowWise model act)
    (hsize : 0 < config.policyMicrobatchSize) (calls : ℕ)
    (hwave : CallsMade simulator act config.processScoreReduction wave made) :
    ∃ final, policyLoop simulator model config wave calls = .ok final ∧
      CallsMade simulator act config.processScoreReduction final
        (made + calls) ∧
      final.env.cases = wave.env.cases ∧
      final.identity = wave.identity := by
  induction calls generalizing wave made with
  | zero => exact ⟨wave, rfl, hwave, rfl, rfl⟩
  | succ calls ih =>
    have hinfer := inferShared_rowWise hmodel hwave.between.seeded
      hwave.between.obs_ne_nil hsize
    obtain ⟨next, hexecute, hnext, hcase, hidentity⟩ := hwave.execute
    have hasked : wave.countCalls.env.obs = wave.env.obs := rfl
    simp only [policyLoop, hasked, hinfer, bind, Except.bind, hexecute]
    by_cases hdone : next.loop.allDone = true
    · rw [if_pos hdone]
      exact ⟨next, rfl, hnext.of_allDone hdone (by omega), hcase, hidentity⟩
    · rw [if_neg hdone]
      obtain ⟨final, hloop, hfinal, hfinalCase, hfinalIdentity⟩ := ih hnext
      rw [Nat.add_right_comm, Nat.add_assoc] at hfinal
      exact ⟨final, hloop, hfinal, hfinalCase.trans hcase,
        hfinalIdentity.trans hidentity⟩

end Loop

/-! ## Outcomes -/

structure CaseOutcome where
  layoutId : ℤ
  policySeed : ℤ
  success : Bool
  score : ℚ
  policyCalls : ℕ
  done : Bool
  deriving DecidableEq

def CaseRecord.outcome (record : CaseRecord) : CaseOutcome where
  layoutId := record.identity.layoutId
  policySeed := record.identity.policySeed
  success := record.success
  score := record.score
  policyCalls := record.policyCalls
  done := record.done

def caseOutcome {S A O : Type} (simulator : RobotSimulator S A O)
    (act : O → Option ℤ → Chunk A) (reduction : ScoreReduction)
    (calls : ℕ) (case : ℤ × ℤ) : CaseOutcome :=
  let run := evaluateCase simulator act reduction calls case
  { layoutId := case.1
    policySeed := case.2
    success := run.success
    score := run.score
    policyCalls := run.calls
    done := run.done }

section Start

variable {S A O : Type} (simulator : RobotSimulator S A O)
  (act : O → Option ℤ → Chunk A) (reduction : ScoreReduction)
  {setup : VectorSetup}

def SelectedCase.identity (case : SelectedCase) : CaseIdentity where
  evalEpisodeId := case.caseId
  layoutId := case.layout
  environmentSeed := case.layout
  policySeed := case.policySeed

theorem identityOf_robotObs (seed : ℤ) (case : SelectedCase) (robot : S) :
    identityOf (robotObs simulator seed case robot) =
      .ok (SelectedCase.identity case) := by
  simp [identityOf, readField, robotObs, caseIdentity, AList.singleton,
    AList.lookup, SelectedCase.identity, bind, Except.bind]

theorem resetEnv_obs (schedule : CaseState setup.topology)
    (base : EnvState setup.size A O) (resetEval : Bool) :
    (resetEnv simulator schedule base resetEval).obs =
      ofFn fun e => (resetEnv simulator schedule base resetEval).robotObs
        simulator e := by
  simp [VectorEnv.obs, resetEnv, BaseEnv.reset, servesCached, evalEnvConfig,
    ResetOptions.envIds, ofFn_eq_map, VectorEnv.robotObs]

section

variable (schedule : CaseState setup.topology)
  (base : EnvState setup.size A O) (resetEval : Bool)
  (hbase : base.chunkIntervened = noEnvs)

include hbase

theorem resetEnv_betweenCalls :
    BetweenCalls simulator (resetEnv simulator schedule base resetEval) := by
  constructor
  · constructor
    · exact hbase
    · rw [resetEnv_obs, length_ofFn]
    · intro _
      rfl
    · intro rows hrows
      simp [resetEnv, BaseEnv.reset, servesCached, evalEnvConfig] at hrows
  · intro e obs hobs
    rw [resetEnv_obs] at hobs
    simp only [List.getElem?_ofFn, Fin.is_lt, dif_pos, Fin.eta,
      Option.some.injEq] at hobs
    rw [← hobs]
    exact showsRobot_robotObs simulator _ e

theorem startWave_callsMade :
    ∃ wave, startWave simulator schedule base resetEval = .ok wave ∧
      CallsMade simulator act reduction wave 0 ∧
      wave.env = resetEnv simulator schedule base resetEval ∧
      wave.identity = ofFn fun e =>
        SelectedCase.identity (wave.env.cases e) := by
  have hidentity : (finRange setup.size).mapM (fun e : Fin setup.size =>
      identityAt (resetEnv simulator schedule base resetEval).obs e.val) =
        .ok ((finRange setup.size).map fun e => SelectedCase.identity
          ((resetEnv simulator schedule base resetEval).cases e)) := by
    rw [mapM_eq_ok_map_iff]
    intro e _
    rw [resetEnv_obs]
    simp only [identityAt, List.getElem?_ofFn, Fin.is_lt, dif_pos, Fin.eta]
    exact identityOf_robotObs simulator _ _ _
  rw [← ofFn_eq_map] at hidentity
  refine ⟨⟨resetEnv simulator schedule base resetEval, ofFn fun e =>
    SelectedCase.identity ((resetEnv simulator schedule base
      resetEval).cases e), .start⟩, ?_, ?_, rfl, rfl⟩
  · unfold startWave
    simp only [hidentity, bind, Except.bind]
  · constructor
    · exact resetEnv_betweenCalls simulator schedule base resetEval hbase
    · intro e
      rfl
    · intro e
      rfl
    · rfl

end

theorem records_outcome (hwave : CallsMade simulator act reduction wave made)
    (hidentity : wave.identity = ofFn fun e =>
      SelectedCase.identity (wave.env.cases e)) (shard : Option ℕ) :
    (wave.records shard).map CaseRecord.outcome = (ofFn (caseOf wave.env)).map
        (caseOutcome simulator act reduction made) := by
  have hloop := hwave.loop
  unfold Wave.records
  rw [hidentity, ofFn_eq_map, ← map_prod_right_eq_zip,
    ofFn_eq_map, map_map, map_map, map_map]
  apply map_congr_left
  intro e _
  simp only [Function.comp_apply, CaseRecord.outcome, hloop, loopOf,
    caseOutcome, SelectedCase.identity, caseOf]

theorem evalCases_of_seeds {robodojo : RoboDojoConfig}
    (hseeds : robodojo.evalPolicySeedSchedule ≠ []) :
    robodojo.evalCases =
      { layouts := robodojo.layoutIds
        seeds := robodojo.evalPolicySeedSchedule
        nonempty := robodojo.layoutIds_ne
        aligned := robodojo.evalSeeds_aligned hseeds } := by
  unfold RoboDojoConfig.evalCases
  rw [dif_neg hseeds]

theorem resetEnv_cases (base : EnvState setup.size A O)
    {schedule : CaseState setup.topology}
    (hruntime : schedule.runtimeEval = none)
    (hlayouts : setup.robodojo.layoutIds.length = setup.size)
    (hseeds : setup.robodojo.evalPolicySeedSchedule.length = setup.size)
    (hoffset : setup.size ∣ setup.topology.localOffset setup.slot) :
    ofFn (caseOf (resetEnv simulator schedule base true)) =
      setup.robodojo.layoutIds.zip
        setup.robodojo.evalPolicySeedSchedule := by
  have hne : setup.robodojo.evalPolicySeedSchedule ≠ [] := by
    apply ne_nil_of_length_pos
    rw [hseeds]
    exact setup.topology.numEnvs_pos
  have hcases := evalCases_of_seeds hne
  apply ext_getElem
  · simp [hlayouts, hseeds]
  · intro index hleft hright
    have hindex : index < setup.size := by simpa using hleft
    have hmod : (0 / setup.size * setup.topology.parallelWidth +
        setup.topology.localOffset setup.slot + index) %
          setup.robodojo.layoutIds.length = index := by
      rw [Nat.zero_div, Nat.zero_mul, Nat.zero_add, hlayouts, Nat.add_mod,
        Nat.mod_eq_zero_of_dvd hoffset, Nat.zero_add, Nat.mod_mod,
        Nat.mod_eq_of_lt hindex]
    simp only [List.getElem_ofFn, getElem_zip, caseOf, resetEnv,
      CaseState.envReset, CaseState.nextCases, if_true,
      CaseState.activeEvalCases, hruntime, hcases, get_eq_getElem,
      getElem_map, EnvTopology.absoluteIndices, CaseList.caseAt,
      CaseList.layoutAt, CaseList.seedAt, CaseList.size,
      getElem_range]
    exact Prod.ext (getElem_congr_idx hmod) (getElem_congr_idx hmod)

end Start

/-! ## The single process -/

section SingleProcess

variable {S A O : Type} {simulator : RobotSimulator S A O}
  {model : FastWam O A} {act : O → Option ℤ → Chunk A} {config : EvalConfig}

def EvalConfig.cases (config : EvalConfig) : List (ℤ × ℤ) :=
  config.layoutIds.zip config.policySeeds

theorem oneWave_outcomes (simulator : RobotSimulator S A O)
    (hmodel : RowWise model act)
    (hsize : 0 < config.policyMicrobatchSize) {setup : VectorSetup}
    {schedule : CaseState setup.topology}
    (hruntime : schedule.runtimeEval = none)
    (hlayouts : setup.robodojo.layoutIds.length = setup.size)
    (hseeds : setup.robodojo.evalPolicySeedSchedule.length = setup.size)
    (hoffset : setup.size ∣ setup.topology.localOffset setup.slot) :
    ∃ records, runWaves simulator model config schedule .initial true 1 =
        .ok records ∧
      records.map CaseRecord.outcome = (setup.robodojo.layoutIds.zip
          setup.robodojo.evalPolicySeedSchedule).map
          (caseOutcome simulator act config.processScoreReduction
            config.maxPolicyCalls) := by
  obtain ⟨wave, hstart, hwave, henv, hidentity⟩ := startWave_callsMade
    simulator act config.processScoreReduction schedule
    (EnvState.initial : EnvState setup.size A O) true rfl
  obtain ⟨final, hloop, hfinal, hcase, hfinalIdentity⟩ :=
    policyLoop_callsMade hmodel hsize config.maxPolicyCalls hwave
  rw [Nat.zero_add] at hfinal
  have hcases : caseOf final.env =
      caseOf (resetEnv simulator schedule EnvState.initial true) := by
    rw [caseOf_congr hcase, henv]
  have hrecords : final.identity = ofFn fun e =>
      SelectedCase.identity (final.env.cases e) := by
    rw [hfinalIdentity, hidentity, hcase]
  refine ⟨final.records none, ?_, ?_⟩
  · simp only [runWaves, hstart, hloop, bind, Except.bind, append_nil]
  · rw [records_outcome simulator act config.processScoreReduction hfinal
      hrecords, hcases, resetEnv_cases simulator _ hruntime hlayouts hseeds
      hoffset]

theorem robodojoConfig_eq_ok {robodojo : RoboDojoConfig}
    (hconfig : robodojoConfig config layouts seeds = .ok robodojo) :
    robodojo.layoutIds = layouts ∧
      robodojo.evalPolicySeedSchedule = seeds := by
  unfold robodojoConfig at hconfig
  split_ifs at hconfig
  cases hconfig
  exact ⟨rfl, rfl⟩

theorem robodojoConfig_returns {layouts seeds : List ℤ}
    (hlayouts : layouts ≠ []) (haligned : seeds.length = layouts.length)
    (hheld : config.allowHeldOutEvalLayouts = true ∨
      ∀ layout ∈ layouts, layout ∉ heldOutLayouts) :
    ∃ robodojo, robodojoConfig config layouts seeds = .ok robodojo := by
  unfold robodojoConfig
  rw [dif_neg hlayouts]
  have hallowed : ¬((layouts.any fun layout => layout ∈ heldOutLayouts) ∧
      config.allowHeldOutEvalLayouts = false) := by
    rintro ⟨hany, hforbidden⟩
    rcases hheld with hallow | hnone
    · simp [hforbidden] at hallow
    · obtain ⟨layout, hlayout, hmember⟩ := any_eq_true.mp hany
      exact hnone layout hlayout (by simpa using hmember)
  rw [if_neg hallowed, dif_pos fun _ => haligned]
  exact ⟨_, rfl⟩

structure OneWave (config : EvalConfig) : Prop where
  checked : checkEval config = .ok ()
  held : config.allowHeldOutEvalLayouts = true ∨
    ∀ layout ∈ config.layoutIds, layout ∉ heldOutLayouts
  wave : config.layoutIds.length = config.numEnvs

namespace OneWave

theorem microbatch (hwave : OneWave config) : 0 < config.policyMicrobatchSize ∧
      config.policyMicrobatchSize ≤ config.numEnvs := by
  have hchecked := hwave.checked
  simp only [checkEval, require_bind_eq_ok] at hchecked
  omega

theorem numEnvs_pos (hwave : OneWave config) : 0 < config.numEnvs := by
  have hmicrobatch := hwave.microbatch
  omega

theorem seeds_length (hwave : OneWave config) :
    config.policySeeds.length = config.numEnvs := by
  have hchecked := hwave.checked
  simp only [checkEval, require_bind_eq_ok] at hchecked
  rw [← hwave.wave, hchecked.1]

end OneWave

theorem runSingleProcessEval_outcomes (simulator : RobotSimulator S A O)
    (hmodel : RowWise model act)
    (hwave : OneWave config) :
    ∃ records, runSingleProcessEval simulator model config = .ok records ∧
      records.map CaseRecord.outcome =
        config.cases.map (caseOutcome simulator act
          config.processScoreReduction config.maxPolicyCalls) := by
  have hpos := hwave.numEnvs_pos
  have hlayouts : config.layoutIds ≠ [] := by
    apply ne_nil_of_length_pos
    rw [hwave.wave]
    exact hpos
  obtain ⟨robodojo, hconfig⟩ := robodojoConfig_returns hlayouts
    (hwave.seeds_length.trans hwave.wave.symm) hwave.held
  obtain ⟨hids, hschedule⟩ := robodojoConfig_eq_ok hconfig
  have hruntime : (CaseState.initial robodojo : CaseState
      (singleSetup config robodojo hpos).topology).runtimeEval = none := rfl
  have hdrawn : (singleSetup config robodojo hpos).robodojo.layoutIds.length =
      (singleSetup config robodojo hpos).size := by
    change robodojo.layoutIds.length = config.numEnvs
    rw [hids, hwave.wave]
  have hseeds : (singleSetup config robodojo
      hpos).robodojo.evalPolicySeedSchedule.length =
        (singleSetup config robodojo hpos).size := by
    change robodojo.evalPolicySeedSchedule.length = config.numEnvs
    rw [hschedule, hwave.seeds_length]
  have hoffset : (singleSetup config robodojo hpos).size ∣
      (singleSetup config robodojo hpos).topology.localOffset
        (singleSetup config robodojo hpos).slot := by
    simp [singleSetup, EnvTopology.localOffset]
  obtain ⟨records, hrun, houtcomes⟩ := oneWave_outcomes simulator hmodel
    hwave.microbatch.1 hruntime hdrawn hseeds hoffset
  refine ⟨records, ?_, ?_⟩
  · unfold runSingleProcessEval
    rw [hwave.checked]
    simp only [bind, Except.bind, hconfig]
    rw [dif_pos hpos, hwave.wave, Nat.div_self hpos]
    exact hrun
  · rw [houtcomes]
    simp only [singleSetup, hids, hschedule]
    rfl

end SingleProcess

end NativeEval
end VerlVla
