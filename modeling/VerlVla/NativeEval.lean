import Mathlib.Algebra.Order.Ring.Rat
import VerlVla.BaseEnv
import VerlVla.BatchSlices
import VerlVla.CaseStream

/-!
# The native evaluation of fixed cases

A vector of simulated robots is reset to the next cases of a list and asks one
policy model for action chunks until every case has ended.  The robots do not
influence one another, and the policy model is an input.
-/

namespace VerlVla
namespace NativeEval

open BaseEnv

/-! ## Configuration -/

inductive ScoreReduction
  | terminal
  | trajectoryMax
  deriving DecidableEq

structure EvalConfig where
  layoutIds : List ℤ
  policySeeds : List ℤ
  numEnvs : ℕ
  policyMicrobatchSize : ℕ
  simulatorShards : ℕ
  processScoreReduction : ScoreReduction
  maxPolicyCalls : ℕ
  seed : ℤ
  allowHeldOutEvalLayouts : Bool

inductive NativeError
  | caseCount
  | waveSize
  | microbatchSize
  | shardCount
  | shardSize
  | oneWave
  | layoutIds
  | heldOutLayouts
  | policySeeds
  | missingField (field : String)
  | index
  | concat
  | actionShape
  | env (error : EnvError)
  | shardFailed (shard : ℕ) (error : NativeError)
  | evaluatorStopped
  deriving DecidableEq

def checkEval (config : EvalConfig) : Except NativeError Unit := do
  require (config.layoutIds.length = config.policySeeds.length) .caseCount
  require (config.layoutIds ≠ [] ∧
    config.layoutIds.length % config.numEnvs = 0) .waveSize
  require (1 ≤ config.policyMicrobatchSize ∧
    config.policyMicrobatchSize ≤ config.numEnvs) .microbatchSize
  require (1 ≤ config.simulatorShards) .shardCount

def heldOutLayouts : List ℤ := [6, 7, 8, 9]

def robodojoConfig (config : EvalConfig) (layouts seeds : List ℤ) :
    Except NativeError RoboDojoConfig :=
  if hlayouts : layouts = [] then .error .layoutIds
  else if (layouts.any fun layout => layout ∈ heldOutLayouts) ∧
      config.allowHeldOutEvalLayouts = false then .error .heldOutLayouts
  else if hseeds : seeds ≠ [] → seeds.length = layouts.length then
    .ok
      { layoutIds := layouts
        trainLayoutSchedule := []
        trainPolicySeedSchedule := []
        trainLayoutRepeat := 1
        trainPolicySeedStart := none
        trainCaseCursorStart := 0
        evalPolicySeedSchedule := seeds
        seed := config.seed
        layoutIds_ne := hlayouts
        trainSeeds_aligned := fun hne => absurd rfl hne
        repeat_pos := Nat.one_pos
        repeat_generated := fun _ => rfl
        start_generated := fun _ => rfl
        evalSeeds_aligned := hseeds }
  else .error .policySeeds

/-! ## The simulated robots -/

/-- A robot of the vector.  Its state depends on its own case and actions
only; `processScore` is absent where the backend has no process score. -/
structure RobotSimulator (S A O : Type) where
  load : ℤ → ℤ → S
  takeAction : S → A → S
  observe : S → O
  endFlag : S → Bool
  success : S → Bool
  processScore : Option (S → ℚ)

/-- The simulator process of a vector: its place and its cases. -/
structure VectorSetup where
  topology : EnvTopology
  slot : EnvSlot
  robodojo : RoboDojoConfig

abbrev VectorSetup.size (setup : VectorSetup) : ℕ := setup.topology.numEnvs

section Robots

variable {S A O : Type} (simulator : RobotSimulator S A O)

def caseIdentity (seed : ℤ) (case : SelectedCase) : Dict ℤ :=
  AList.insert "suite_id" seed
    (AList.insert "eval_episode_id" (case.caseId : ℤ)
      (AList.insert "layout_id" case.layout
        (AList.insert "environment_seed" case.layout
          (AList.insert "policy_seed" case.policySeed ∅))))

def robotObs (seed : ℤ) (case : SelectedCase) (robot : S) : EnvObs O where
  observation := simulator.observe robot
  identity := caseIdentity seed case

def succeeded (robot : S) : Bool :=
  simulator.endFlag robot && simulator.success robot

def stepRow (seed : ℤ) (case : SelectedCase) (robot : S) : StepRow O where
  obs := robotObs simulator seed case robot
  reward := if succeeded simulator robot then 1 else 0
  terminated := succeeded simulator robot
  truncated := simulator.endFlag robot && !succeeded simulator robot
  success := succeeded simulator robot
  score := simulator.processScore.map fun score =>
    if succeeded simulator robot then 1 else score robot

end Robots

/-! ## The vector environment -/

structure VectorEnv (setup : VectorSetup) (S A O : Type) where
  schedule : CaseState setup.topology
  base : EnvState setup.size A O
  cases : Fin setup.size → SelectedCase
  robots : Fin setup.size → S

abbrev Chunk (A : Type) : Type := Fin 24 → A

def evalEnvConfig : EnvConfig where
  autoReset := false

theorem length_drawnCases (config : RoboDojoConfig) (slot : EnvSlot)
    (state : CaseState topology) (resetEval : Bool) :
    (state.envReset config slot .eval resetEval).1.length =
      topology.numEnvs := by
  simp [CaseState.envReset, CaseState.nextCases, EnvTopology.absoluteIndices]

section Vector

variable {S A O : Type} (simulator : RobotSimulator S A O)
  {setup : VectorSetup}

def VectorEnv.obs (env : VectorEnv setup S A O) : List (EnvObs O) :=
  env.base.latestObs.getD []

def VectorEnv.robotObs (env : VectorEnv setup S A O) (e : Fin setup.size) :
    EnvObs O :=
  NativeEval.robotObs simulator setup.robodojo.seed (env.cases e)
    (env.robots e)

def resetEnv (schedule : CaseState setup.topology)
    (base : EnvState setup.size A O) (resetEval : Bool) :
    VectorEnv setup S A O :=
  let drawn := schedule.envReset setup.robodojo setup.slot .eval resetEval
  let cases : Fin setup.size → SelectedCase := fun e =>
    drawn.1.get (e.cast (length_drawnCases _ _ _ _).symm)
  let robots : Fin setup.size → S := fun e =>
    simulator.load (cases e).layout (cases e).policySeed
  { schedule := drawn.2
    base := BaseEnv.reset evalEnvConfig base ⟨none, resetEval⟩ fun e =>
      robotObs simulator setup.robodojo.seed (cases e) (robots e)
    cases := cases
    robots := robots }

def controlTick (env : VectorEnv setup S A O) (action : Fin setup.size → A)
    (chunkStarted : Bool) :
    Except NativeError (VectorEnv setup S A O × StepFeedback setup.size) :=
  let executeMask := (beginTick env.base action chunkStarted).2.executeMask
  let robots : Fin setup.size → S := fun e =>
    if executeMask e then simulator.takeAction (env.robots e) (action e)
    else env.robots e
  let reply : Fin setup.size → StepRow O := fun e =>
    stepRow simulator setup.robodojo.seed (env.cases e) (robots e)
  match executeActionStep env.base ⟨action, [], reply⟩ chunkStarted with
  | .error raised => .error (.env raised.error)
  | .ok next => .ok ({ env with base := next.1, robots := robots }, next.2)

def executeActions (env : VectorEnv setup S A O) (chunkStarted : Bool) :
    List (Fin setup.size → A) → Except NativeError
      (VectorEnv setup S A O × List (StepFeedback setup.size))
  | [] => .ok (env, [])
  | action :: actions => do
    let next ← controlTick simulator env action chunkStarted
    let rest ← executeActions next.1 false actions
    .ok (rest.1, next.2 :: rest.2)

/-- `step` of the vector with an action chunk for every robot. -/
def stepEnv (env : VectorEnv setup S A O)
    (chunks : Fin setup.size → Chunk A) : Except NativeError
      (VectorEnv setup S A O × List (StepFeedback setup.size)) := do
  let executed ← executeActions simulator env true
    (List.ofFn fun tick e => chunks e tick)
  match finishExecutionSlice evalEnvConfig executed.1.base executed.2 none
      (executed.1.robotObs simulator) with
  | .error raised => .error (.env raised.error)
  | .ok base => .ok ({ executed.1 with base := base }, executed.2)

end Vector

/-- The loaded policy.  `inferBatch` is the batched inference and
`inferActionChunk` that of a single observation. -/
structure FastWam (O A : Type) where
  seed : Option ℤ
  latentScaleOne : Bool
  inferActionChunk : O → Chunk A
  inferBatch : List O → List (Option ℤ) → List (Chunk A)

section Policy

variable {O A : Type} (model : FastWam O A)

def policySeeds (obs : List (EnvObs O)) : Option (List ℤ) :=
  obs.mapM fun row => row.identity.lookup "policy_seed"

def sacSampleActions (obs : List (EnvObs O)) : List (Chunk A) :=
  let rows := obs.map EnvObs.observation
  match policySeeds obs, rows with
  | some seeds, rows => model.inferBatch rows (seeds.map some)
  | none, [row] =>
    if model.latentScaleOne then [model.inferActionChunk row]
    else model.inferBatch [row] [model.seed]
  | none, rows =>
    model.inferBatch rows (List.replicate rows.length model.seed)

def inferSharedModelInMicrobatches (obs : List (EnvObs O))
    (microbatchSize : ℕ) : Except NativeError (List (Chunk A)) := do
  let chunks := (splitRows microbatchSize obs).map (sacSampleActions model)
  require (chunks ≠ []) .concat
  require (chunks.flatten.length = obs.length) .actionShape
  .ok chunks.flatten

end Policy

section Scores

variable {n : ℕ}

def scoreRow (steps : List (StepFeedback n)) (e : Fin n) : List ℚ :=
  steps.map fun step => (step.score e).getD 0

def doneRow (steps : List (StepFeedback n)) (e : Fin n) : List Bool :=
  steps.map fun step => step.terminated e || step.truncated e

/-- The scores of a chunk, present if its first tick has them. -/
def hasScores : List (StepFeedback n) → Bool
  | [] => false
  | step :: _ => (List.finRange n).all fun e => (step.score e).isSome

def rowMax : List ℚ → ℚ
  | [] => 0
  | score :: scores => scores.foldl max score

def terminalOrLatestScore (scores : List ℚ) (dones : List Bool) : ℚ :=
  match dones.findIdx? id with
  | some position => scores.getD position 0
  | none => scores.getLastD 0

def terminalOrLatestScores (steps : List (StepFeedback n))
    (alreadyDone : Mask n) (e : Fin n) : ℚ :=
  if alreadyDone e then 0
  else terminalOrLatestScore (scoreRow steps e) (doneRow steps e)

end Scores

/-! ## One wave -/

structure EvalLoop (n : ℕ) where
  success : Mask n
  done : Mask n
  score : Fin n → ℚ
  calls : Fin n → ℕ

namespace EvalLoop

variable {n : ℕ}

def start : EvalLoop n where
  success := noEnvs
  done := noEnvs
  score _ := 0
  calls _ := 0

def countCalls (loop : EvalLoop n) : EvalLoop n := { loop with
    calls := fun e => if loop.done e then loop.calls e
      else loop.calls e + 1 }

def observeSteps (reduction : ScoreReduction) (loop : EvalLoop n)
    (steps : List (StepFeedback n)) : EvalLoop n where
  success e := loop.success e || steps.any fun step => step.success e
  done e := loop.done e || (steps.any fun step => step.terminated e) ||
    steps.any fun step => step.truncated e
  score e := if hasScores steps then
      match reduction with
      | .trajectoryMax => max (loop.score e) (rowMax (scoreRow steps e))
      | .terminal =>
        if loop.done e then loop.score e
        else terminalOrLatestScores steps loop.done e
    else loop.score e
  calls := loop.calls

def allDone (loop : EvalLoop n) : Bool := (List.finRange n).all loop.done

end EvalLoop

structure CaseIdentity where
  evalEpisodeId : ℤ
  layoutId : ℤ
  environmentSeed : ℤ
  policySeed : ℤ
  deriving DecidableEq

structure CaseRecord where
  identity : CaseIdentity
  success : Bool
  score : ℚ
  policyCalls : ℕ
  done : Bool
  simulatorShard : Option ℕ
  deriving DecidableEq

section Wave

variable {S A O : Type} (simulator : RobotSimulator S A O)
  {setup : VectorSetup}

def readField (obs : EnvObs O) (field : String) : Except NativeError ℤ :=
  match obs.identity.lookup field with
  | some value => .ok value
  | none => .error (.missingField field)

def identityOf (obs : EnvObs O) : Except NativeError CaseIdentity := do
  let evalEpisodeId ← readField obs "eval_episode_id"
  let layoutId ← readField obs "layout_id"
  let environmentSeed ← readField obs "environment_seed"
  let policySeed ← readField obs "policy_seed"
  .ok ⟨evalEpisodeId, layoutId, environmentSeed, policySeed⟩

def identityAt (obs : List (EnvObs O)) (index : ℕ) :
    Except NativeError CaseIdentity :=
  match obs[index]? with
  | some row => identityOf row
  | none => .error .index

structure Wave (setup : VectorSetup) (S A O : Type) where
  env : VectorEnv setup S A O
  identity : List CaseIdentity
  loop : EvalLoop setup.size

def startWave (schedule : CaseState setup.topology)
    (base : EnvState setup.size A O) (resetEval : Bool) :
    Except NativeError (Wave setup S A O) := do
  let env := resetEnv simulator schedule base resetEval
  let identity ← (List.finRange setup.size).mapM fun e : Fin setup.size =>
    identityAt env.obs e.val
  .ok ⟨env, identity, .start⟩

/-- The actions of a policy call are executed and their feedback counted. -/
def Wave.execute (reduction : ScoreReduction) (wave : Wave setup S A O)
    (actions : List (Chunk A)) : Except NativeError (Wave setup S A O) :=
  if hrows : actions.length = setup.size then do
    let stepped ← stepEnv simulator wave.env fun e =>
      actions.get (e.cast hrows.symm)
    .ok
      { wave with
        env := stepped.1
        loop := wave.loop.observeSteps reduction stepped.2 }
  else .error .actionShape

def Wave.countCalls (wave : Wave setup S A O) : Wave setup S A O :=
  { wave with loop := wave.loop.countCalls }

def Wave.records (wave : Wave setup S A O) (shard : Option ℕ) :
    List CaseRecord :=
  (wave.identity.zip (List.finRange setup.size)).map fun case =>
    { identity := case.1
      success := wave.loop.success case.2
      score := wave.loop.score case.2
      policyCalls := wave.loop.calls case.2
      done := wave.loop.done case.2
      simulatorShard := shard }

end Wave

/-! ## The single process -/

section SingleProcess

variable {S A O : Type} (simulator : RobotSimulator S A O)
  (model : FastWam O A) (config : EvalConfig) {setup : VectorSetup}

def policyLoop (wave : Wave setup S A O) :
    ℕ → Except NativeError (Wave setup S A O)
  | 0 => .ok wave
  | calls + 1 => do
    let asked := wave.countCalls
    let actions ← inferSharedModelInMicrobatches model asked.env.obs
      config.policyMicrobatchSize
    let next ← asked.execute simulator config.processScoreReduction actions
    if next.loop.allDone then .ok next else policyLoop next calls

def runWaves (schedule : CaseState setup.topology)
    (base : EnvState setup.size A O) (resetEval : Bool) :
    ℕ → Except NativeError (List CaseRecord)
  | 0 => .ok []
  | waves + 1 => do
    let wave ← startWave simulator schedule base resetEval
    let finished ← policyLoop simulator model config wave config.maxPolicyCalls
    let rest ← runWaves finished.env.schedule finished.env.base false waves
    .ok (finished.records none ++ rest)

def singleSetup (robodojo : RoboDojoConfig) (hpos : 0 < config.numEnvs) :
    VectorSetup where
  topology := ⟨1, 1, config.numEnvs, hpos⟩
  slot := ⟨0, 0⟩
  robodojo := robodojo

def runSingleProcessEval : Except NativeError (List CaseRecord) := do
  checkEval config
  let robodojo ← robodojoConfig config config.layoutIds config.policySeeds
  if hpos : 0 < config.numEnvs then
    let schedule : CaseState (singleSetup config robodojo hpos).topology :=
      .initial robodojo
    runWaves simulator model config schedule .initial true
      (config.layoutIds.length / config.numEnvs)
  else .error .waveSize

end SingleProcess

end NativeEval
end VerlVla
