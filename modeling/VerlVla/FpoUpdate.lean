import VerlVla.Collectives
import VerlVla.LossNormalization

/-!
# The update of a policy on several ranks

Every rank goes over its shard in epochs, minibatches and micro-batches.  The
network, its optimizers and the gradients are parameters.  What the ranks share
is reduced by collective operations, and the divergence that stops the epochs
early is averaged over the ranks only where it can skip a step.
-/

namespace VerlVla

open EpochLayout (selectRows)

/-! ## The configuration -/

inductive KlEarlyStopMode
  | postEpoch
  | preOptimizer
  deriving DecidableEq

structure FpoActorConfig (K : Type) [Field K] [LinearOrder K] where
  policy : PolicyConfig K
  criticEnabled : Bool
  miniBatchSize : ℕ
  microBatchSize : ℕ
  updateEpochs : ℕ
  vfCoef : K
  normalizeAdvantages : Bool
  valueOnlyUpdates : ℤ
  targetKl : Option K
  klEarlyStopMode : KlEarlyStopMode
  fullLogicalBatchGradientAccumulation : Bool

namespace FpoActorConfig

variable {K : Type} [Field K] [LinearOrder K]

def postInit [ToString K] (config : FpoActorConfig K) :
    Except String Unit := do
  require (0 < config.miniBatchSize)
    s!"fpo mini_batch_size must be positive, got {config.miniBatchSize}"
  require (0 < config.microBatchSize)
    s!"fpo micro_batch_size must be positive, got {config.microBatchSize}"
  require (0 < config.updateEpochs)
    s!"fpo update_epochs must be positive, got {config.updateEpochs}"
  require (0 ≤ config.vfCoef)
    s!"fpo vf_coef must be non-negative, got {config.vfCoef}"
  require (0 ≤ config.valueOnlyUpdates)
    s!"fpo value_only_updates must be non-negative, got {config.valueOnlyUpdates}"
  require (config.criticEnabled = true ∨ config.vfCoef = 0)
    "critic-free FPO requires vf_coef=0."
  require (config.criticEnabled = true ∨ config.valueOnlyUpdates = 0)
    "critic-free FPO requires value_only_updates=0."
  require (config.criticEnabled = true ∨ config.normalizeAdvantages = false)
    "critic-free group-relative FPO requires normalize_advantages=false."
  config.targetKl.forM fun target => require (0 < target)
    s!"fpo target_kl must be positive when provided, got {target}"
  require (config.klEarlyStopMode = .postEpoch ∨ config.criticEnabled = false)
    "pre_optimizer KL stopping is currently defined only for critic-free FPO."
  require (config.klEarlyStopMode = .postEpoch ∨
      config.fullLogicalBatchGradientAccumulation = true)
    "pre_optimizer KL stopping requires full_logical_batch_gradient_accumulation=true."
  require (config.klEarlyStopMode = .postEpoch ∨ config.targetKl.isSome)
    "pre_optimizer KL stopping requires a finite target_kl."

theorem accepted [ToString K] {config : FpoActorConfig K}
    (haccepted : config.postInit = .ok ()) :
    0 < config.microBatchSize ∧ 0 < config.updateEpochs ∧
      (config.normalizeAdvantages = true → config.criticEnabled = true) ∧
      ∀ target ∈ config.targetKl, 0 < target := by
  simp only [postInit, require_bind_eq_ok] at haccepted
  obtain ⟨_, hmicro, hepochs, _, _, _, _, hnormalize, htarget⟩ := haccepted
  refine ⟨hmicro, hepochs, ?_, ?_⟩
  · intro hon
    rcases hnormalize with hcritic | hoff
    · exact hcritic
    · exact absurd (hon.symm.trans hoff) Bool.noConfusion
  · intro target hvalue
    rw [Option.mem_def.mp hvalue] at htarget
    exact (require_bind_eq_ok.mp htarget).1

end FpoActorConfig

/-! ## What a rank works on -/

structure FpoChunk (K X : Type) extends ChunkSlot K where
  advantage : K
  contents : X

structure RankShard (K X : Type) (size : ℕ) where
  rows : List (FpoChunk K X)
  permutation : ℕ → List ℕ
  length_rows : rows.length = size
  permuted : ∀ epoch, (permutation epoch).Perm (List.range size)

structure ActorState (Θ Ω S : Type) where
  parameters : Θ
  optimizer : Ω
  scheduler : S

structure ActorStep (Θ Ω S : Type) where
  epoch : ℕ
  skipped : Bool
  before : ActorState Θ Ω S
  after : ActorState Θ Ω S

structure FpoState (Θ Ω S Φ : Type) where
  actor : ActorState Θ Ω S
  value : Φ
  identityGateHasPassed : Bool
  identityGateChecked : Bool
  klEarlyStopTriggered : Bool
  epochsRun : ℕ
  optimizerStepsApplied : ℕ
  actorSteps : List (ActorStep Θ Ω S)

structure RankState (K Θ Ω S Φ : Type) extends FpoState Θ Ω S Φ where
  epochKls : List K

/-- The sums over the micro-batches of a minibatch. -/
structure MicroState (K Θ Ω S Φ G : Type) extends RankState K Θ Ω S Φ where
  gradient : G
  hierarchicalApproxKl : K

/-- The network and its optimizers.  Log ratios and score differences compare
the parameters before the update with those of now. -/
structure FpoEngine (K L Θ Ω S Φ G X : Type) where
  logRatio : Θ → Θ → X → L
  scoreDelta : Θ → Θ → X → K
  gradient : Θ → Θ → Φ → List (FpoChunk K X) → Option K → G
  noGradient : G
  addGradient : G → G → G
  averageGradients : List G → G
  optimizerStep : ActorState Θ Ω S → G → Θ × Ω
  lrSchedulerStep : S → S
  valueStep : Φ → G → Φ
  sqrt : K → K

inductive UpdateError (K : Type)
  | indivisibleMiniBatch (miniBatchSize worldSize : ℕ)
  | tooFewSlots (needed got : ℕ)
  | divisionByZero
  | normalizedAgain
  | noPositiveWeight
  | identityGateFailed (maxAbsLogRatio maxAbsScoreDelta : K)
  | noValidSlots
  | policyLoss (text : String)

inductive FpoCollective
  | advantageStats
  | normalizeAdvantages
  | lossDenominator
  | forward
  | identityGate
  | syncGradients
  | preStepKl
  | valueStep
  | actorStep
  | metrics
  deriving DecidableEq

/-- What an operation takes and gives: sums of values, squares and counts,
largest differences with the number of valid chunks, or gradients. -/
abbrev FpoCollective.Payload (K G : Type) : FpoCollective → Type
  | .normalizeAdvantages | .identityGate => K × K × K
  | .lossDenominator | .preStepKl => K
  | .syncGradients => G
  | _ => Unit

/-! ## The program of a rank -/

section Update

variable {K Θ Ω S Φ G X : Type} [Field K] [LinearOrder K]

abbrev FpoProgram (K G α : Type) : Type :=
  RankProgram FpoCollective (FpoCollective.Payload K G)
    (FpoCollective.Payload K G) (UpdateError K) α

structure FpoSchedule (K : Type) [Field K] [LinearOrder K] where
  config : FpoActorConfig K
  worldSize : ℕ
  globalSteps : ℤ

namespace FpoSchedule

def valueOnly (schedule : FpoSchedule K) : Bool :=
  schedule.config.criticEnabled &&
    schedule.globalSteps ≤ schedule.config.valueOnlyUpdates

def localMiniBatchSize (schedule : FpoSchedule K) (rows : ℕ) : ℕ :=
  if schedule.config.fullLogicalBatchGradientAccumulation then rows
  else schedule.config.miniBatchSize / schedule.worldSize

end FpoSchedule

/-- What all ranks have in an update. -/
structure FpoSetting (K Θ Ω S Φ G X : Type) [Field K] [LinearOrder K]
    extends FpoSchedule K where
  exp : K → K
  engine : FpoEngine K
    (config.policy.variant.LogRatio K config.policy.samples) Θ Ω S Φ G X
  oldParameters : Θ

namespace PolicyVariant

def maxAbsLogRatio {samples : ℕ} : (variant : PolicyVariant) →
    variant.LogRatio K samples → K
  | .vanilla, logRatio => |logRatio|
  | .fpoPlusPlus _, logRatio =>
    (List.ofFn logRatio).foldl (fun bound value => max bound |value|) 0
  | .flowGrpo, logRatio =>
    (List.ofFn logRatio).foldl (fun bound value => max bound |value|) 0

end PolicyVariant

namespace FpoSetting

variable (setting : FpoSetting K Θ Ω S Φ G X)

def identityAtol : K := 1 / 100000

def globalNormalize (stats : K × K × K) (value : K) : K :=
  let count := max stats.2.2 1
  let mean := stats.1 / count
  let variance := stats.2.1 / count - mean ^ 2
  (value - mean) / setting.engine.sqrt (max variance (1 / 100000000))

def normalizationStats (rows : List (FpoChunk K X)) : K × K × K :=
  ((rows.map fun row => row.advantage * row.validity).sum,
    (rows.map fun row => (row.advantage * row.validity) ^ 2).sum,
    (rows.map fun row => row.validity).sum)

def normalizeRows (rows : List (FpoChunk K X)) :
    FpoProgram K G (List (FpoChunk K X)) :=
  if setting.config.normalizeAdvantages then
    if setting.config.criticEnabled then do
      let stats ← RankProgram.collective FpoCollective.normalizeAdvantages
        (normalizationStats rows)
      return rows.map fun row =>
        { row with advantage := setting.globalNormalize stats row.advantage }
    else .fail .normalizedAgain
  else return rows

def hierarchicalNormalization (rows : List (FpoChunk K X)) :
    FpoProgram K G (Option K) :=
  if setting.config.criticEnabled then return none
  else do
    let total : K ← RankProgram.collective FpoCollective.lossDenominator
      (rows.map fun row => row.weight).sum
    RankProgram.check (0 < total / setting.worldSize) .noPositiveWeight
    return some (total / setting.worldSize)

def surrogateRow (parameters : Θ) (chunk : FpoChunk K X) :
    setting.config.policy.Row :=
  { toChunkSlot := chunk.toChunkSlot
    advantage := chunk.advantage
    logRatio := setting.engine.logRatio setting.oldParameters parameters
      chunk.contents }

def identityGateRequired (state : FpoState Θ Ω S Φ) : Bool :=
  setting.config.criticEnabled || !state.identityGateHasPassed

def identityDifferences (parameters : Θ) (rows : List (FpoChunk K X)) :
    K × K × K :=
  let valid := rows.filter fun row => row.valid
  (valid.foldl (fun bound row => max bound
      (setting.config.policy.variant.maxAbsLogRatio
        (setting.surrogateRow parameters row).logRatio)) 0,
    valid.foldl (fun bound row => max bound
      (setting.engine.scoreDelta setting.oldParameters parameters
        row.contents)) 0,
    valid.length)

/-- The first valid micro-batch must still have the ratios of the policy that
acted. -/
def identityGate (rows : List (FpoChunk K X))
    (state : MicroState K Θ Ω S Φ G) :
    FpoProgram K G (MicroState K Θ Ω S Φ G) :=
  if !state.identityGateChecked &&
      setting.identityGateRequired state.toFpoState then do
    let (logRatio, scoreDelta, count) ←
      RankProgram.collective FpoCollective.identityGate
        (setting.identityDifferences state.actor.parameters rows)
    if 0 < count then do
      RankProgram.check (logRatio ≤ identityAtol ∧ scoreDelta ≤ identityAtol)
        (.identityGateFailed logRatio scoreDelta)
      return { state with
        identityGateChecked := true
        identityGateHasPassed := true }
    else return state
  else return state

/-- The divergence of a micro-batch. -/
def policyKl (normalization : Option K) (parameters : Θ)
    (rows : List (FpoChunk K X)) : FpoProgram K G K :=
  match computeClippedPolicyLoss setting.exp setting.config.policy
      (rows.map (setting.surrogateRow parameters))
      (if setting.config.criticEnabled then none
        else some fun row => row.weight) normalization with
  | .ok result => return result.approxKl
  | .error text => .fail (.policyLoss text)

/-- The gradients are accumulated, and averaged over the ranks at the last
micro-batch. -/
def backward (normalization : Option K) (last : Bool)
    (rows : List (FpoChunk K X)) (state : MicroState K Θ Ω S Φ G) :
    FpoProgram K G (MicroState K Θ Ω S Φ G) := do
  let gradient := setting.engine.addGradient state.gradient
    (setting.engine.gradient setting.oldParameters state.actor.parameters
      state.value rows normalization)
  if last then do
    let averaged : G ← RankProgram.collective FpoCollective.syncGradients
      gradient
    return { state with gradient := averaged }
  else return { state with gradient := gradient }

def recordKl (kl : K) (state : MicroState K Θ Ω S Φ G) :
    MicroState K Θ Ω S Φ G :=
  if setting.config.criticEnabled then
    { state with epochKls := state.epochKls ++ [kl] }
  else
    { state with hierarchicalApproxKl := state.hierarchicalApproxKl + kl }

def microBatchStep (normalization : Option K) (last : Bool)
    (state : MicroState K Θ Ω S Φ G) (rows : List (FpoChunk K X)) :
    FpoProgram K G (MicroState K Θ Ω S Φ G) := do
  let () ← RankProgram.collective FpoCollective.forward ()
  if setting.valueOnly then do
    let state ← setting.backward normalization last rows state
    return setting.recordKl 0 state
  else do
    let state ← setting.identityGate rows state
    let kl ← setting.policyKl normalization state.actor.parameters rows
    let state ← setting.backward normalization last rows state
    return setting.recordKl kl state

/-- The mean divergence over the ranks, where there is no critic. -/
def reduceKl (state : MicroState K Θ Ω S Φ G) :
    FpoProgram K G (K × MicroState K Θ Ω S Φ G) :=
  if setting.config.criticEnabled then
    return (state.hierarchicalApproxKl, state)
  else do
    let total : K ← RankProgram.collective FpoCollective.preStepKl
      state.hierarchicalApproxKl
    return (total / setting.worldSize, { state with
      epochKls := state.epochKls ++ [state.hierarchicalApproxKl] })

def skipsActorStep (epoch : ℕ) (preStepKl : K) : Bool := !setting.valueOnly &&
    setting.config.klEarlyStopMode = .preOptimizer && 0 < epoch &&
    setting.config.targetKl.any (· < preStepKl)

def stepValue (gradient : G) (state : RankState K Θ Ω S Φ) :
    FpoProgram K G (RankState K Θ Ω S Φ) :=
  if setting.config.criticEnabled then do
    let () ← RankProgram.collective FpoCollective.valueStep ()
    return { state with value := setting.engine.valueStep state.value gradient }
  else return state

def actorAfter (gradient : G) (actor : ActorState Θ Ω S) : ActorState Θ Ω S :=
  let stepped := setting.engine.optimizerStep actor gradient
  { parameters := stepped.1
    optimizer := stepped.2
    scheduler := setting.engine.lrSchedulerStep actor.scheduler }

def stepActor (epoch : ℕ) (skip : Bool) (gradient : G)
    (state : RankState K Θ Ω S Φ) : FpoProgram K G (RankState K Θ Ω S Φ) :=
  if skip then
    return { state with
      klEarlyStopTriggered := true
      actorSteps := state.actorSteps ++
        [⟨epoch, true, state.actor, state.actor⟩] }
  else if setting.valueOnly then return state
  else do
    let () ← RankProgram.collective FpoCollective.actorStep ()
    return { state with
      actor := setting.actorAfter gradient state.actor
      optimizerStepsApplied := state.optimizerStepsApplied + 1
      actorSteps := state.actorSteps ++
        [⟨epoch, false, state.actor, setting.actorAfter gradient state.actor⟩] }

def minibatchStep (epoch : ℕ) (state : RankState K Θ Ω S Φ)
    (rows : List (FpoChunk K X)) :
    FpoProgram K G (RankState K Θ Ω S Φ) := do
  let rows ← setting.normalizeRows rows
  let normalization ← setting.hierarchicalNormalization rows
  let sums ← RankProgram.forEach (setting.microBatchStep normalization)
    (splitRows setting.config.microBatchSize rows)
    { state with gradient := setting.engine.noGradient
                 hierarchicalApproxKl := 0 }
  RankProgram.check (setting.valueOnly = true ∨ sums.identityGateChecked = true ∨
    setting.identityGateRequired sums.toFpoState = false) .noValidSlots
  let (preStepKl, sums) ← setting.reduceKl sums
  let state ← setting.stepValue sums.gradient sums.toRankState
  setting.stepActor epoch (setting.skipsActorStep epoch preStepKl)
    sums.gradient state

def meanEpochKl (epochKls : List K) : K := epochKls.sum / max epochKls.length 1

def stopsAfterEpoch (epochKls : List K) : Bool :=
  setting.config.klEarlyStopMode = .postEpoch &&
    setting.config.targetKl.any (· < meanEpochKl epochKls)

def minibatches (localSize : ℕ) (rows : List (FpoChunk K X))
    (permutation : List ℕ) : List (List (FpoChunk K X)) :=
  (chunkStarts rows.length localSize).map fun start =>
    selectRows (sliceRows (start, start + localSize) permutation) rows

def runEpochs {size : ℕ} (localSize : ℕ) (shard : RankShard K X size) :
    ℕ → ℕ → RankState K Θ Ω S Φ → FpoProgram K G (RankState K Θ Ω S Φ)
  | 0, _, state => return state
  | remaining + 1, epoch, state => do
    let state ← RankProgram.forEach (fun _ => setting.minibatchStep epoch)
      (minibatches localSize shard.rows (shard.permutation epoch))
      { state with epochKls := [] }
    let state := { state with epochsRun := state.epochsRun + 1 }
    if state.klEarlyStopTriggered || setting.stopsAfterEpoch state.epochKls
    then return state
    else runEpochs localSize shard remaining (epoch + 1) state

def updateFpoPolicy {size : ℕ} (start : FpoState Θ Ω S Φ)
    (shard : RankShard K X size) : FpoProgram K G (FpoState Θ Ω S Φ) := do
  let localSize := setting.localMiniBatchSize shard.rows.length
  RankProgram.check (setting.worldSize ∣ setting.config.miniBatchSize)
    (.indivisibleMiniBatch setting.config.miniBatchSize setting.worldSize)
  RankProgram.check (localSize ≤ shard.rows.length)
    (.tooFewSlots localSize shard.rows.length)
  let () ← RankProgram.collective FpoCollective.advantageStats ()
  RankProgram.check (0 < localSize) .divisionByZero
  let state ← setting.runEpochs localSize shard setting.config.updateEpochs 0
    { start with
      identityGateChecked := false
      klEarlyStopTriggered := false
      epochsRun := 0
      optimizerStepsApplied := 0
      actorSteps := []
      epochKls := [] }
  let () ← RankProgram.collective FpoCollective.metrics ()
  return state.toFpoState

/-- Sums, maxima and averages over the ranks. -/
def reduce {world : ℕ} : (op : FpoCollective) →
    (Fin world → op.Payload K G) → op.Payload K G
  | .normalizeAdvantages, stats =>
    (∑ rank, (stats rank).1, ∑ rank, (stats rank).2.1,
      ∑ rank, (stats rank).2.2)
  | .identityGate, differences =>
    ((List.ofFn fun rank => (differences rank).1).foldl max 0,
      (List.ofFn fun rank => (differences rank).2.1).foldl max 0,
      ∑ rank, (differences rank).2.2)
  | .lossDenominator, totals => ∑ rank, totals rank
  | .preStepKl, totals => ∑ rank, totals rank
  | .syncGradients, gradients =>
    setting.engine.averageGradients (List.ofFn gradients)
  | .advantageStats, _ | .forward, _ | .valueStep, _ | .actorStep, _
  | .metrics, _ => ()

end FpoSetting

end Update

end VerlVla
