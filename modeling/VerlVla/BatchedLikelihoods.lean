import Mathlib.Algebra.Order.Field.Rat
import Mathlib.Tactic.Ring
import VerlVla.BatchSlices
import VerlVla.Tensor

/-!
# Likelihoods of batched transitions

The action expert sees the transitions of a block, or the action samples of a
batch, as rows of one batch, beside the repeated conditions of their
observations.  A row of a likelihood is what the same functions give on the row
alone, whatever the size of the blocks is.
-/

namespace VerlVla

open List hiding and cons count nil or range tail zipWith

variable {α K φ Ω : Type}

namespace Tensor

/-! ## Axes -/

def sliceSteps (start stop : ℕ) (tensor : Tensor α) : Tensor α where
  shape := tensor.rows :: (stop - start) :: tensor.shape.drop 2
  entry
    | i :: j :: rest => tensor.entry (i :: (start + j) :: rest)
    | index => tensor.entry index

def splitRows (rows size : ℕ) (tensor : Tensor α) : Tensor α where
  shape := rows :: size :: tensor.shape.tail
  entry
    | i :: j :: rest => tensor.entry ((i * size + j) :: rest)
    | index => tensor.entry index

def zipWith (f : α → α → α) (first second : Tensor α) : Tensor α where
  shape := first.shape
  entry index := f (first.entry index) (second.entry index)

/-- Trailing axes are added, as wide as those of another tensor. -/
def expandLike (tensor like : Tensor α) : Tensor α where
  shape := like.shape
  entry index := tensor.entry (index.take tensor.shape.length)

def meanLast [Field K] (tensor : Tensor K) : Tensor K where
  shape := tensor.shape.dropLast
  entry index := ((List.range (tensor.shape.getLastD 0)).map fun k =>
    tensor.entry (index ++ [k])).sum / (tensor.shape.getLastD 0 : ℕ)

/-- `torch.cat(tensors, dim=1)`. -/
def catAllSteps [Zero α] : List (Tensor α) → Tensor α
  | [] => ⟨[], fun _ => 0⟩
  | [tensor] => tensor
  | tensor :: tensors => tensor.catSteps (catAllSteps tensors)

/-- `permute(0, 2, 1)`. -/
def swapLast (tensor : Tensor α) : Tensor α where
  shape := [tensor.rows, tensor.shape.getD 2 0, tensor.steps]
  entry
    | [i, j, k] => tensor.entry [i, k, j]
    | index => tensor.entry index

/-- Every row is followed by its copies. -/
def repeatSamples (samples : ℕ) (tensor : Tensor α) : Tensor α :=
  (tensor.repeatStep samples).mergeLeading

section Axes

variable {tensor other : Tensor α} {samples j : ℕ}

theorem row_repeatSamples (hj : j < samples) (i : ℕ) :
    (tensor.repeatSamples samples).row (i * samples + j) = tensor.row i := by
  have hsteps : j < (tensor.repeatStep samples).steps := hj
  exact row_mergeLeading hsteps i

theorem row_sliceSteps (start stop i j : ℕ) :
    ((tensor.sliceSteps start stop).row i).row j =
      (tensor.row i).row (start + j) := by
  simp [row, sliceSteps, drop_two_shape]

theorem row_mergeSlice (hj : j < stop - start) (i : ℕ) :
    (tensor.sliceSteps start stop).mergeLeading.row
        (i * (stop - start) + j) = (tensor.row i).row (start + j) := by
  have hsteps : j < (tensor.sliceSteps start stop).steps := hj
  exact (row_mergeLeading hsteps i).trans (row_sliceSteps start stop i j)

theorem rows_mergeSlice (start stop : ℕ) :
    (tensor.sliceSteps start stop).mergeLeading.rows =
      tensor.rows * (stop - start) := rfl

theorem row_expandLike (hshape : tensor.shape ≠ []) (i : ℕ) :
    (tensor.expandLike like).row i =
      (tensor.row i).expandLike (like.row i) := by
  obtain ⟨size, rest, hcons⟩ := exists_cons_of_ne_nil hshape
  simp [row, expandLike, hcons]

theorem row_meanLast [Field K] {tensor : Tensor K}
    (hshape : tensor.shape.tail ≠ []) (i : ℕ) :
    tensor.meanLast.row i = (tensor.row i).meanLast := by
  cases hdims : tensor.shape with
  | nil => simp [hdims] at hshape
  | cons size tail =>
    obtain ⟨next, rest, hcons⟩ : ∃ next rest, tail = next :: rest := by
      apply exists_cons_of_ne_nil
      simpa [hdims] using hshape
    simp [row, meanLast, hdims, hcons]

def stepsOf (tensor : Tensor α) (i : ℕ) : List (Tensor α) :=
  (List.range tensor.steps).map (tensor.row i).row

theorem stepsOf_catSteps (hshape : tensor.shape.drop 2 = other.shape.drop 2)
    (i : ℕ) :
    (tensor.catSteps other).stepsOf i =
      tensor.stepsOf i ++ other.stepsOf i := by
  have hsteps : (tensor.catSteps other).steps =
      tensor.steps + other.steps := rfl
  unfold stepsOf
  rw [hsteps, range_add, map_append, map_map]
  congr 1
  · apply map_congr_left
    intro j hj
    exact step_catSteps_lt (mem_range.mp hj) i
  · apply map_congr_left
    intro j _
    rw [Function.comp_apply, step_catSteps_ge (Nat.le_add_right _ _) hshape,
      Nat.add_sub_cancel_left]

theorem catAllSteps_spec [Zero α] {tensors : List (Tensor α)}
    (hne : tensors ≠ []) (hshape : ∀ tensor ∈ tensors,
      tensor.shape = count :: tensor.steps :: tail) :
    (catAllSteps tensors).shape = count :: (tensors.map steps).sum :: tail ∧
      ∀ i, (catAllSteps tensors).stepsOf i =
        tensors.flatMap fun tensor => tensor.stepsOf i := by
  induction tensors with
  | nil => exact absurd rfl hne
  | cons tensor tensors ih =>
    have hfirst := hshape tensor mem_cons_self
    cases tensors with
    | nil =>
      constructor
      · simpa [catAllSteps] using hfirst
      · simp [catAllSteps]
    | cons next tensors =>
      obtain ⟨hdims, hsteps⟩ := ih (cons_ne_nil _ _) fun other hother =>
          hshape other (mem_cons_of_mem _ hother)
      have htail : tensor.shape.drop 2 =
          (catAllSteps (next :: tensors)).shape.drop 2 := by
        rw [hfirst, hdims]
        rfl
      have hlater : (catAllSteps (next :: tensors)).steps =
          ((next :: tensors).map steps).sum := by
        rw [steps, hdims]
        rfl
      constructor
      · change tensor.rows :: (tensor.steps +
          (catAllSteps (next :: tensors)).steps) :: tensor.shape.drop 2 = _
        rw [hlater, map_cons, sum_cons, rows, hfirst]
        rfl
      · intro i
        rw [flatMap_cons, ← hsteps i]
        exact stepsOf_catSteps htail i

end Axes

end Tensor

/-! ## The policy -/

def actionDim : ℕ := 14

abbrev VideoCache (K : Type) : Type := List (Dict (Tensor K))

structure ActionPre (K φ : Type) where
  tokens : Tensor K
  freqs : φ
  tMod : Tensor K
  context : Tensor K
  contextMask : Tensor K

/-- What an observation contributes. -/
structure Conditioning (K : Type) where
  context : Tensor K
  contextMask : Tensor K
  videoKvCache : VideoCache K
  attentionMask : Tensor K
  videoSeqLen : ℕ

/-- The networks and the scheduler, with or without a batch axis. -/
structure ActionModel (K φ : Type) where
  normalize : Tensor K → Tensor K
  preDit : Tensor K → Tensor K → Tensor K → Tensor K → ActionPre K φ
  forwardAction : ActionPre K φ → VideoCache K → Tensor K → ℕ → Tensor K
  postDit : Tensor K → ActionPre K φ → Tensor K
  sdeLogProb :
    Tensor K → Tensor K → Tensor K → Tensor K → K → Tensor K → Tensor K
  inferTimesteps : K
  trainTimesteps : K

structure FastWamPolicy (Ω K φ : Type) extends ActionModel K φ where
  observationConditioning : Ω → Tensor K × Tensor K × Tensor K
  videoCache : Tensor K → Tensor K → Tensor K → VideoCache K × Tensor K × ℕ

def FastWamPolicy.conditioning (policy : FastWamPolicy Ω K φ) (obs : Ω) :
    Conditioning K :=
  let (images, context, contextMask) := policy.observationConditioning obs
  let (videoKvCache, attentionMask, videoSeqLen) :=
    policy.videoCache images context contextMask
  ⟨context, contextMask, videoKvCache, attentionMask, videoSeqLen⟩

namespace Conditioning

/-- The batched parts are mapped. -/
def mapRows (f : Tensor K → Tensor K) (cond : Conditioning K) :
    Conditioning K :=
  { cond with
    context := f cond.context
    contextMask := f cond.contextMask
    videoKvCache := cond.videoKvCache.map (Dict.map fun _ => f) }

def repeatSamples (samples : ℕ) (cond : Conditioning K) : Conditioning K :=
  cond.mapRows (Tensor.repeatSamples samples)

def row (cond : Conditioning K) (i : ℕ) : Conditioning K :=
  cond.mapRows fun tensor => tensor.row i

structure HasRows (cond : Conditioning K) (n : ℕ) : Prop where
  context : cond.context.rows = n
  contextMask : cond.contextMask.rows = n
  videoKvCache : ∀ layer ∈ cond.videoKvCache, ∀ key tensor,
    layer.lookup key = some tensor → tensor.rows = n

variable {cond : Conditioning K} {n samples j : ℕ}

theorem HasRows.repeatSamples (hrows : cond.HasRows n) (samples : ℕ) :
    (cond.repeatSamples samples).HasRows (n * samples) := by
  constructor
  · exact congrArg (· * samples) hrows.context
  · exact congrArg (· * samples) hrows.contextMask
  · intro layer hlayer key tensor htensor
    obtain ⟨before, hbefore, rfl⟩ := mem_map.mp hlayer
    rw [Dict.lookup_map, Option.map_eq_some_iff] at htensor
    obtain ⟨value, hvalue, rfl⟩ := htensor
    exact congrArg (· * samples)
      (hrows.videoKvCache before hbefore key value hvalue)

theorem row_repeatSamples (hj : j < samples) (i : ℕ) :
    (cond.repeatSamples samples).row (i * samples + j) = cond.row i := by
  have hvalue : ∀ tensor : Tensor K,
      (tensor.repeatSamples samples).row (i * samples + j) =
        tensor.row i := fun _ => Tensor.row_repeatSamples hj i
  simp only [row, repeatSamples, mapRows, hvalue, map_map, mk.injEq,
    true_and, and_true]
  apply map_congr_left
  intro layer _
  apply AList.ext
  simp only [Function.comp_apply, Dict.map, map_map]
  apply map_congr_left
  intro entry _
  rw [Function.comp_apply, hvalue]

end Conditioning

namespace ActionPre

def row (pre : ActionPre K φ) (i : ℕ) : ActionPre K φ :=
  ⟨pre.tokens.row i, pre.freqs, pre.tMod.row i, pre.context.row i,
    pre.contextMask.row i⟩

structure HasRows (pre : ActionPre K φ) (n : ℕ) : Prop where
  tokens : pre.tokens.rows = n
  tMod : pre.tMod.rows = n
  context : pre.context.rows = n
  contextMask : pre.contextMask.rows = n

end ActionPre

namespace ActionModel

def predictVelocity (model : ActionModel K φ) (tokens timestep : Tensor K)
    (cond : Conditioning K) : Tensor K :=
  let actionPre := model.preDit tokens timestep cond.context cond.contextMask
  let actionTokens := model.forwardAction actionPre cond.videoKvCache
    cond.attentionMask cond.videoSeqLen
  model.postDit actionTokens actionPre

/-- What is assumed of the networks and the scheduler: a row of a result is
what the same function without the batch axis gives on the rows. -/
structure RowWise (batched single : ActionModel K φ) : Prop where
  inferTimesteps : single.inferTimesteps = batched.inferTimesteps
  trainTimesteps : single.trainTimesteps = batched.trainTimesteps
  normalize : ∀ actions, (batched.normalize actions).shape = actions.shape ∧
    ∀ i < actions.rows,
      (batched.normalize actions).row i = single.normalize (actions.row i)
  preDit : ∀ n tokens timestep context contextMask, tokens.rows = n →
    timestep.rows = n → context.rows = n → contextMask.rows = n →
    (batched.preDit tokens timestep context contextMask).HasRows n ∧
      ∀ i < n, (batched.preDit tokens timestep context contextMask).row i =
        single.preDit (tokens.row i) (timestep.row i) (context.row i)
          (contextMask.row i)
  forwardAction : ∀ n pre (cond : Conditioning K), pre.HasRows n →
    cond.HasRows n →
    (batched.forwardAction pre cond.videoKvCache cond.attentionMask
      cond.videoSeqLen).rows = n ∧
      ∀ i < n, (batched.forwardAction pre cond.videoKvCache
          cond.attentionMask cond.videoSeqLen).row i =
        single.forwardAction (pre.row i) (cond.row i).videoKvCache
          cond.attentionMask cond.videoSeqLen
  postDit : ∀ n tokens pre, tokens.rows = n → pre.HasRows n → ∀ i < n,
    (batched.postDit tokens pre).row i =
      single.postDit (tokens.row i) (pre.row i)
  velocity : ∀ n tokens timestep cond, tokens.rows = n → timestep.rows = n →
    cond.HasRows n →
    (batched.predictVelocity tokens timestep cond).shape = tokens.shape
  sdeLogProb : ∀ output sigma sigmaNext sample noiseLevel next,
    output.shape = sample.shape → sigma.rows = sample.rows →
    sigmaNext.rows = sample.rows → next.shape = sample.shape →
    (batched.sdeLogProb output sigma sigmaNext sample noiseLevel
      next).shape = sample.shape ∧
      ∀ i < sample.rows, (batched.sdeLogProb output sigma sigmaNext sample
          noiseLevel next).row i =
        single.sdeLogProb (output.row i) (sigma.row i) (sigmaNext.row i)
          (sample.row i) noiseLevel (next.row i)

theorem RowWise.row_predictVelocity (hmodel : RowWise batched single) {n : ℕ}
    {cond : Conditioning K} (htokens : tokens.rows = n)
    (htimestep : timestep.rows = n) (hcond : cond.HasRows n) (hi : i < n) :
    (batched.predictVelocity tokens timestep cond).row i =
      single.predictVelocity (tokens.row i) (timestep.row i) (cond.row i) := by
  obtain ⟨hpre, hpreRow⟩ := hmodel.preDit n tokens timestep cond.context
    cond.contextMask htokens htimestep hcond.context hcond.contextMask
  obtain ⟨hforward, hforwardRow⟩ := hmodel.forwardAction n _ cond hpre hcond
  unfold predictVelocity
  simp only
  rw [hmodel.postDit n _ _ hforward hpre i hi, hforwardRow i hi, hpreRow i hi]
  rfl

/-! ## Transitions and samples -/

section Rows

variable [Field K]

def transitionLogProbs (model : ActionModel K φ) (noiseLevel : K)
    (sample nextSample sigma delta : Tensor K) (cond : Conditioning K) :
    Tensor K :=
  let sigmaNext := sigma.zipWith (· + ·) delta
  let nativeTimestep := sigma.map (· * model.inferTimesteps)
  let velocity := model.predictVelocity sample nativeTimestep cond
  (model.sdeLogProb velocity sigma sigmaNext sample noiseLevel
    nextSample).meanLast

def noisyAction (actions noise sigmas : Tensor K) : Tensor K :=
  ((sigmas.expandLike actions).zipWith (fun sigma action =>
    (1 - sigma) * action) actions).zipWith (· + ·)
      ((sigmas.expandLike actions).zipWith (· * ·) noise)

def cfmVelocity (model : ActionModel K φ) (actions noise sigmas : Tensor K)
    (cond : Conditioning K) : Tensor K :=
  model.predictVelocity (noisyAction actions noise sigmas)
    (sigmas.map (· * model.trainTimesteps)) cond

local instance two_atLeast : Nat.AtLeastTwo 2 := ⟨le_rfl⟩

def cfmElementLoss [LinearOrder K] (lossKernel : String) (huberDelta : K)
    (prediction target : K) : K :=
  let error := prediction - target
  if lossKernel = "huber" then
    if |error| ≤ huberDelta then error ^ 2
    else 2 * huberDelta * |error| - huberDelta ^ 2
  else error ^ 2

def cfmTokenLoss [LinearOrder K] (model : ActionModel K φ)
    (lossKernel : String) (huberDelta : K) (actions noise sigmas : Tensor K)
    (cond : Conditioning K) : Tensor K :=
  ((model.cfmVelocity actions noise sigmas cond).zipWith
    (cfmElementLoss lossKernel huberDelta)
      (noise.zipWith (· - ·) actions)).meanLast

variable {batched single : ActionModel K φ} {n i : ℕ}
  {cond : Conditioning K}

theorem RowWise.transitionLogProbs (hmodel : RowWise batched single)
    (noiseLevel : K) (delta : Tensor K) {sample nextSample sigma : Tensor K}
    (hsample : sample.rows = n) (htail : sample.shape.tail ≠ [])
    (hnext : nextSample.shape = sample.shape) (hsigma : sigma.rows = n)
    (hcond : cond.HasRows n) :
    (batched.transitionLogProbs noiseLevel sample nextSample sigma delta
      cond).shape = sample.shape.dropLast ∧
    ∀ i < n, (batched.transitionLogProbs noiseLevel sample nextSample sigma
        delta cond).row i =
      single.transitionLogProbs noiseLevel (sample.row i) (nextSample.row i)
        (sigma.row i) (delta.row i) (cond.row i) := by
  have hscaled : (sigma.map (· * batched.inferTimesteps)).rows = n := hsigma
  have hvelocity := hmodel.velocity n sample _ cond hsample hscaled hcond
  obtain ⟨hshape, hrows⟩ := hmodel.sdeLogProb _ sigma
    (sigma.zipWith (· + ·) delta) sample noiseLevel nextSample hvelocity
    (hsigma.trans hsample.symm) (hsigma.trans hsample.symm) hnext
  constructor
  · exact congrArg dropLast hshape
  · intro i hi
    have hnot : (batched.sdeLogProb (batched.predictVelocity sample
        (sigma.map (· * batched.inferTimesteps)) cond) sigma
          (sigma.zipWith (· + ·) delta) sample noiseLevel
            nextSample).shape.tail ≠ [] := by
      rw [hshape]
      exact htail
    unfold ActionModel.transitionLogProbs
    simp only
    rw [Tensor.row_meanLast hnot, hrows i (hsample ▸ hi),
      hmodel.row_predictVelocity hsample hscaled hcond hi,
      hmodel.inferTimesteps]
    rfl

theorem row_noisyAction {actions noise sigmas : Tensor K}
    (hsigmas : sigmas.shape ≠ []) (i : ℕ) :
    (noisyAction actions noise sigmas).row i =
      noisyAction (actions.row i) (noise.row i) (sigmas.row i) := by
  unfold noisyAction
  rw [← Tensor.row_expandLike hsigmas]
  rfl

theorem RowWise.cfmTokenLoss [LinearOrder K]
    (hmodel : RowWise batched single) (lossKernel : String) (huberDelta : K)
    (noise : Tensor K) {actions sigmas : Tensor K} (hactions : actions.rows = n)
    (htail : actions.shape.tail ≠ []) (hsigmas : sigmas.shape = [n])
    (hcond : cond.HasRows n) :
    (batched.cfmVelocity actions noise sigmas cond).shape = actions.shape ∧
    ∀ i < n, (batched.cfmTokenLoss lossKernel huberDelta actions noise sigmas
        cond).row i =
      single.cfmTokenLoss lossKernel huberDelta (actions.row i) (noise.row i)
        (sigmas.row i) (cond.row i) := by
  have hrows : sigmas.rows = n := by
    rw [Tensor.rows, hsigmas]
    rfl
  have hne : sigmas.shape ≠ [] := by
    rw [hsigmas]
    exact cons_ne_nil _ _
  have hnoisy : (noisyAction actions noise sigmas).rows = n := hactions
  have hscaled : (sigmas.map (· * batched.trainTimesteps)).rows = n := hrows
  have hshape := hmodel.velocity n _ _ cond hnoisy hscaled hcond
  refine ⟨hshape, ?_⟩
  intro i hi
  have hnot : ((batched.cfmVelocity actions noise sigmas cond).zipWith
      (cfmElementLoss lossKernel huberDelta)
        (noise.zipWith (· - ·) actions)).shape.tail ≠ [] := by
    change (batched.cfmVelocity actions noise sigmas cond).shape.tail ≠ []
    rw [cfmVelocity, hshape]
    exact htail
  have hvelocity : (batched.cfmVelocity actions noise sigmas cond).row i =
      single.cfmVelocity (actions.row i) (noise.row i) (sigmas.row i)
        (cond.row i) := by
    unfold cfmVelocity
    rw [hmodel.row_predictVelocity hnoisy hscaled hcond hi,
      row_noisyAction hne, hmodel.trainTimesteps]
    rfl
  unfold ActionModel.cfmTokenLoss
  rw [Tensor.row_meanLast hnot, ← hvelocity]
  rfl

end Rows

end ActionModel

/-! ## Batched evaluation -/

structure FastWamConfig (K : Type) where
  flowEnabled : Bool
  fpoEnabled : Bool
  actionHorizon : ℕ
  noiseLevel : K
  transitionBatchSize : ℕ

inductive FastWamError
  | flowDisabled
  | latentAxes
  | latentAction
  | schedule
  | rangeStep
  | fpoDisabled
  | timestepAxes (shape : List ℕ)
  | noiseAxes (shape : List ℕ)
  | actions (expected shape : List ℕ)
  | noise (expected shape : List ℕ)
  | timestepRange
  | lossKernel
  | huberDelta
  | cfmShapes
  deriving DecidableEq

namespace FastWamPolicy

variable [Field K]

/-- The transitions from one start to the next are one batch. -/
def logProbBlock (policy : FastWamPolicy Ω K φ) (noiseLevel : K)
    (cond : Conditioning K) (latents sigmas deltas : Tensor K)
    (transitionCount size start : ℕ) : Tensor K :=
  let stop := min (start + size) transitionCount
  let blockSize := stop - start
  let sample := (latents.sliceSteps start stop).mergeLeading
  let nextSample := (latents.sliceSteps (start + 1) (stop + 1)).mergeLeading
  let sigma := (sigmas.sliceSteps start stop).mergeLeading
  let delta := (deltas.sliceSteps start stop).mergeLeading
  (policy.transitionLogProbs noiseLevel sample nextSample sigma delta
    (cond.repeatSamples blockSize)).splitRows latents.rows blockSize

def logProbBlocks (policy : FastWamPolicy Ω K φ) (noiseLevel : K)
    (cond : Conditioning K) (latents sigmas deltas : Tensor K)
    (transitionCount size : ℕ) : List (Tensor K) :=
  (chunkStarts transitionCount size).map
    (policy.logProbBlock noiseLevel cond latents sigmas deltas
      transitionCount size)

def flowGrpoLogProbs (policy : FastWamPolicy Ω K φ)
    (config : FastWamConfig K) (obs : Ω) (latents sigmas deltas : Tensor K) :
    Except FastWamError (Tensor K) := do
  require config.flowEnabled .flowDisabled
  require (latents.shape.length = 4) .latentAxes
  let batchSize := latents.rows
  let transitionCount := latents.steps - 1
  require (latents.shape.drop 2 = [config.actionHorizon, actionDim])
    .latentAction
  require (latents.steps = transitionCount + 1 ∧
      sigmas.shape = [batchSize, transitionCount] ∧
      deltas.shape = [batchSize, transitionCount]) .schedule
  let size := min config.transitionBatchSize transitionCount
  require (size ≠ 0) .rangeStep
  .ok (Tensor.catAllSteps (policy.logProbBlocks config.noiseLevel
    (policy.conditioning obs) latents sigmas deltas transitionCount size))

def fpoCfmLoss [LinearOrder K] (policy : FastWamPolicy Ω K φ)
    (config : FastWamConfig K) (obs : Ω) (actions timesteps noise : Tensor K)
    (lossKernel : String) (huberDelta : K) :
    Except FastWamError (Tensor K) := do
  require config.fpoEnabled .fpoDisabled
  require (timesteps.shape.length = 2) (.timestepAxes timesteps.shape)
  require (noise.shape.length = 4) (.noiseAxes noise.shape)
  let batchSize := timesteps.rows
  let samples := timesteps.steps
  let expectedActions := [batchSize, config.actionHorizon, actionDim]
  let expectedNoise := [batchSize, samples, config.actionHorizon, actionDim]
  require (actions.shape = expectedActions)
    (.actions expectedActions actions.shape)
  require (noise.shape = expectedNoise) (.noise expectedNoise noise.shape)
  require (∀ b < batchSize, ∀ k < samples,
    0 ≤ timesteps.entry [b, k] ∧ timesteps.entry [b, k] ≤ 1) .timestepRange
  require (lossKernel = "mse" ∨ lossKernel = "huber") .lossKernel
  require (0 < huberDelta) .huberDelta
  let cond := (policy.conditioning obs).repeatSamples samples
  let repeatedActions := (policy.normalize actions).repeatSamples samples
  let repeatedNoise := noise.mergeLeading
  let sigmas := timesteps.mergeLeading
  require (lossKernel = "huber" → (policy.cfmVelocity repeatedActions
    repeatedNoise sigmas cond).shape = repeatedNoise.shape) .cfmShapes
  .ok ((policy.cfmTokenLoss lossKernel huberDelta repeatedActions
    repeatedNoise sigmas cond).splitRows batchSize samples).swapLast

/-! ## Rows of the results -/

section Spec

variable {policy : FastWamPolicy Ω K φ} {single : ActionModel K φ}
  {latents sigmas deltas actions timesteps noise : Tensor K}
  {cond : Conditioning K} {batchSize transitionCount horizon samples : ℕ}

theorem sampleIndex_lt (hb : b < batchSize) (hj : j < size) :
    b * size + j < batchSize * size := by
  have hle : (b + 1) * size ≤ batchSize * size := Nat.mul_le_mul_right _ hb
  rw [Nat.add_mul, Nat.one_mul] at hle
  omega

section

variable (hmodel : policy.RowWise single) (noiseLevel : K) (deltas : Tensor K)
  (hlatents : latents.shape = [batchSize, transitionCount + 1, horizon, actionDim])
  (hsigmas : sigmas.shape = [batchSize, transitionCount])
  (hcond : cond.HasRows batchSize)

include hmodel hlatents hsigmas hcond

theorem logProbBlock_spec (size start : ℕ) :
    (policy.logProbBlock noiseLevel cond latents sigmas deltas
        transitionCount size start).shape =
      [batchSize, min (start + size) transitionCount - start, horizon] ∧
    ∀ b < batchSize, (policy.logProbBlock noiseLevel cond latents sigmas
        deltas transitionCount size start).stepsOf b =
      (chunkIndices transitionCount size start).map fun t =>
        single.transitionLogProbs noiseLevel ((latents.row b).row t)
          ((latents.row b).row (t + 1)) ((sigmas.row b).row t)
          ((deltas.row b).row t) (cond.row b) := by
  have hrows : latents.rows = batchSize := by
    rw [Tensor.rows, hlatents]
    rfl
  generalize hstop : min (start + size) transitionCount = stop
  have hsample : (latents.sliceSteps start stop).mergeLeading.shape =
      [batchSize * (stop - start), horizon, actionDim] := by
    change latents.rows * (stop - start) :: (latents.shape.drop 2) = _
    rw [hrows, hlatents]
    rfl
  have hnext : (latents.sliceSteps (start + 1) (stop + 1)).mergeLeading.shape =
      (latents.sliceSteps start stop).mergeLeading.shape := by
    rw [hsample]
    change latents.rows * (stop + 1 - (start + 1)) ::
      (latents.shape.drop 2) = _
    rw [hrows, hlatents, Nat.add_sub_add_right]
    rfl
  have hsigmaRows : (sigmas.sliceSteps start stop).mergeLeading.rows =
      batchSize * (stop - start) := by
    rw [Tensor.rows_mergeSlice, Tensor.rows, hsigmas]
    rfl
  have hsampleRows : (latents.sliceSteps start stop).mergeLeading.rows =
      batchSize * (stop - start) := by
    rw [Tensor.rows_mergeSlice, hrows]
  have htail : (latents.sliceSteps start stop).mergeLeading.shape.tail ≠
      [] := by
    rw [hsample]
    exact cons_ne_nil _ _
  obtain ⟨hshape, hlogProbs⟩ := hmodel.transitionLogProbs noiseLevel
    (deltas.sliceSteps start stop).mergeLeading hsampleRows htail hnext
    hsigmaRows (hcond.repeatSamples (stop - start))
  unfold logProbBlock
  simp only [hstop]
  constructor
  · change latents.rows :: (stop - start) ::
      (policy.transitionLogProbs _ _ _ _ _ _).shape.tail = _
    rw [hshape, hsample, hrows]
    rfl
  · intro b hb
    rw [chunkIndices, hstop, range'_eq_map_range, map_map]
    apply map_congr_left
    intro j hj
    have hlt : j < stop - start := mem_range.mp hj
    have hltNext : j < stop + 1 - (start + 1) := by omega
    have hnextRow :
        (latents.sliceSteps (start + 1) (stop + 1)).mergeLeading.row _ = _ :=
      Tensor.row_mergeSlice hltNext b
    rw [Nat.add_sub_add_right] at hnextRow
    have hrow := hlogProbs _ (sampleIndex_lt hb hlt)
    rw [Tensor.row_mergeSlice hlt, hnextRow, Tensor.row_mergeSlice hlt,
      Tensor.row_mergeSlice hlt, Conditioning.row_repeatSamples hlt,
      Nat.add_right_comm] at hrow
    exact hrow

theorem logProbBlocks_spec (hcount : 0 < transitionCount) (hsize : 0 < size) :
    (Tensor.catAllSteps (policy.logProbBlocks noiseLevel cond latents sigmas
        deltas transitionCount size)).shape =
      [batchSize, transitionCount, horizon] ∧
    ∀ b < batchSize, (Tensor.catAllSteps (policy.logProbBlocks noiseLevel cond
        latents sigmas deltas transitionCount size)).stepsOf b =
      (List.range transitionCount).map fun t =>
        single.transitionLogProbs noiseLevel ((latents.row b).row t)
          ((latents.row b).row (t + 1)) ((sigmas.row b).row t)
          ((deltas.row b).row t) (cond.row b) := by
  have hblock := logProbBlock_spec hmodel noiseLevel deltas hlatents hsigmas
    hcond size
  have hall : (chunkStarts transitionCount size).flatMap
      (chunkIndices transitionCount size) = List.range transitionCount :=
    flatMap_chunkIndices hsize
  have hne : policy.logProbBlocks noiseLevel cond latents sigmas deltas
      transitionCount size ≠ [] := by
    intro hnil
    rw [map_eq_nil_iff.mp hnil] at hall
    have hlength := congrArg List.length hall
    rw [length_range] at hlength
    exact absurd hlength.symm hcount.ne'
  have hdims : ∀ tensor ∈ policy.logProbBlocks noiseLevel cond latents sigmas
      deltas transitionCount size,
      tensor.shape = batchSize :: tensor.steps :: [horizon] := by
    intro tensor htensor
    obtain ⟨start, _, rfl⟩ := mem_map.mp htensor
    rw [Tensor.steps, (hblock start).1]
    rfl
  have hsum : ((policy.logProbBlocks noiseLevel cond latents sigmas deltas
      transitionCount size).map Tensor.steps).sum = transitionCount := by
    have hlength := congrArg List.length hall
    rw [length_flatMap, length_range] at hlength
    refine Eq.trans ?_ hlength
    rw [logProbBlocks, map_map]
    congr 1
    apply map_congr_left
    intro start _
    rw [Function.comp_apply, Tensor.steps, (hblock start).1, chunkIndices,
      length_range']
    rfl
  obtain ⟨hshape, hstepsOf⟩ := Tensor.catAllSteps_spec hne hdims
  rw [hsum] at hshape
  refine ⟨hshape, ?_⟩
  intro b hb
  rw [hstepsOf b, logProbBlocks, flatMap_map,
    flatMap_congr fun start _ => (hblock start).2 b hb,
    ← map_flatMap, hall]

end

theorem flowGrpoLogProbs_spec (hmodel : policy.RowWise single)
    (hobs : (policy.conditioning obs).HasRows batchSize)
    (henabled : config.flowEnabled = true)
    (hsize : 0 < config.transitionBatchSize) (hcount : 0 < transitionCount)
    (hlatents : latents.shape = [batchSize, transitionCount + 1,
      config.actionHorizon, actionDim])
    (hsigmas : sigmas.shape = [batchSize, transitionCount])
    (hdeltas : deltas.shape = [batchSize, transitionCount]) :
    ∃ result,
      policy.flowGrpoLogProbs config obs latents sigmas deltas = .ok result ∧
      result.shape = [batchSize, transitionCount, config.actionHorizon] ∧
      ∀ b < batchSize, ∀ t < transitionCount, ∀ h, result.entry [b, t, h] =
          (single.transitionLogProbs config.noiseLevel
            ((latents.row b).row t) ((latents.row b).row (t + 1))
            ((sigmas.row b).row t) ((deltas.row b).row t)
            ((policy.conditioning obs).row b)).entry [h] := by
  have hrows : latents.rows = batchSize := by
    rw [Tensor.rows, hlatents]
    rfl
  have hsteps : latents.steps = transitionCount + 1 := by
    rw [Tensor.steps, hlatents]
    rfl
  have hmin : 0 < min config.transitionBatchSize transitionCount :=
    lt_min hsize hcount
  obtain ⟨hshape, hstepsOf⟩ := logProbBlocks_spec hmodel config.noiseLevel
    deltas hlatents hsigmas hobs hcount hmin
  have hok : policy.flowGrpoLogProbs config obs latents sigmas deltas =
      .ok (Tensor.catAllSteps (policy.logProbBlocks config.noiseLevel
        (policy.conditioning obs) latents sigmas deltas transitionCount
          (min config.transitionBatchSize transitionCount))) := by
    unfold flowGrpoLogProbs
    simp only [hsteps, hrows, Nat.add_sub_cancel, henabled, hlatents, hsigmas,
      hdeltas, hmin.ne', require, if_true, length_cons, length_nil,
      drop_succ_cons, drop_zero, and_self, ne_eq,
      not_false_eq_true]
    rfl
  refine ⟨_, hok, hshape, ?_⟩
  intro b hb t ht h
  have hcolumns : (Tensor.catAllSteps (policy.logProbBlocks config.noiseLevel
      (policy.conditioning obs) latents sigmas deltas transitionCount
        (min config.transitionBatchSize transitionCount))).steps =
      transitionCount := by
    rw [Tensor.steps, hshape]
    rfl
  have hentry := congrArg (fun rows => rows[t]?) (hstepsOf b hb)
  simp only [Tensor.stepsOf, hcolumns, getElem?_map,
    getElem?_range ht, Option.map_some, Option.some.injEq] at hentry
  exact congrArg (fun tensor => tensor.entry [h]) hentry

theorem fpoCfmLoss_spec [LinearOrder K] (hmodel : policy.RowWise single)
    (hobs : (policy.conditioning obs).HasRows batchSize)
    (henabled : config.fpoEnabled = true) (hactions : actions.shape =
      [batchSize, config.actionHorizon, actionDim])
    (htimesteps : timesteps.shape = [batchSize, samples])
    (hnoise : noise.shape =
      [batchSize, samples, config.actionHorizon, actionDim])
    (hrange : ∀ b < batchSize, ∀ k < samples,
      0 ≤ timesteps.entry [b, k] ∧ timesteps.entry [b, k] ≤ 1)
    (hkernel : lossKernel = "mse" ∨ lossKernel = "huber")
    (hdelta : 0 < huberDelta) :
    ∃ result, policy.fpoCfmLoss config obs actions timesteps noise lossKernel
        huberDelta = .ok result ∧
      result.shape = [batchSize, config.actionHorizon, samples] ∧
      ∀ b < batchSize, ∀ h, ∀ k < samples, result.entry [b, h, k] =
          (single.cfmTokenLoss lossKernel huberDelta
            (single.normalize (actions.row b)) ((noise.row b).row k)
            ((timesteps.row b).row k)
            ((policy.conditioning obs).row b)).entry [h] := by
  have hrows : timesteps.rows = batchSize := by
    rw [Tensor.rows, htimesteps]
    rfl
  have hsteps : timesteps.steps = samples := by
    rw [Tensor.steps, htimesteps]
    rfl
  have hnoiseSteps : noise.steps = samples := by
    rw [Tensor.steps, hnoise]
    rfl
  have hactionRows : actions.rows = batchSize := by
    rw [Tensor.rows, hactions]
    rfl
  obtain ⟨hnormalShape, hnormal⟩ := hmodel.normalize actions
  have hrepeated : ((policy.normalize actions).repeatSamples samples).shape =
      [batchSize * samples, config.actionHorizon, actionDim] := by
    change (policy.normalize actions).rows * samples ::
      (policy.normalize actions).shape.tail = _
    rw [Tensor.rows, hnormalShape, hactions]
    rfl
  have hsigmas : timesteps.mergeLeading.shape = [batchSize * samples] := by
    change timesteps.rows * timesteps.steps :: timesteps.shape.drop 2 = _
    rw [hrows, hsteps, htimesteps]
    rfl
  have hmerged : noise.mergeLeading.shape =
      [batchSize * samples, config.actionHorizon, actionDim] := by
    change noise.rows * noise.steps :: noise.shape.drop 2 = _
    rw [Tensor.rows, hnoiseSteps, hnoise]
    rfl
  have hrepeatedRows : ((policy.normalize actions).repeatSamples
      samples).rows = batchSize * samples := by
    rw [Tensor.rows, hrepeated]
    rfl
  have htail : ((policy.normalize actions).repeatSamples
      samples).shape.tail ≠ [] := by
    rw [hrepeated]
    exact cons_ne_nil _ _
  obtain ⟨hvelocity, hloss⟩ := hmodel.cfmTokenLoss lossKernel huberDelta
    noise.mergeLeading hrepeatedRows htail hsigmas (hobs.repeatSamples samples)
  have hok : policy.fpoCfmLoss config obs actions timesteps noise lossKernel
      huberDelta = .ok ((policy.cfmTokenLoss lossKernel huberDelta
        ((policy.normalize actions).repeatSamples samples) noise.mergeLeading
          timesteps.mergeLeading ((policy.conditioning obs).repeatSamples
            samples)).splitRows batchSize samples).swapLast := by
    have hshapes : (policy.cfmVelocity ((policy.normalize
        actions).repeatSamples samples) noise.mergeLeading
          timesteps.mergeLeading ((policy.conditioning obs).repeatSamples
            samples)).shape = noise.mergeLeading.shape := by
      rw [hvelocity, hrepeated, hmerged]
    unfold fpoCfmLoss
    simp only [hrows, hsteps, henabled, hactions, htimesteps, hnoise, hkernel,
      hdelta, hshapes, implies_true, require, if_true, length_cons,
      length_nil, if_pos hrange]
    rfl
  refine ⟨_, hok, ?_, ?_⟩
  · have hlossShape : (policy.cfmTokenLoss lossKernel huberDelta
        ((policy.normalize actions).repeatSamples samples) noise.mergeLeading
          timesteps.mergeLeading ((policy.conditioning obs).repeatSamples
            samples)).shape = [batchSize * samples, config.actionHorizon] := by
      change (policy.cfmVelocity _ _ _ _).shape.dropLast = _
      rw [hvelocity, hrepeated]
      rfl
    change [batchSize, (policy.cfmTokenLoss _ _ _ _ _ _).shape.tail.getD 0 0,
      samples] = _
    rw [hlossShape]
    rfl
  · intro b hb h k hk
    have hrow := hloss _ (sampleIndex_lt hb hk)
    have hnoiseRow : noise.mergeLeading.row (b * samples + k) =
        (noise.row b).row k := by
      rw [← hnoiseSteps] at hk ⊢
      exact Tensor.row_mergeLeading hk b
    have hsigmaRow : timesteps.mergeLeading.row (b * samples + k) =
        (timesteps.row b).row k := by
      rw [← hsteps] at hk ⊢
      exact Tensor.row_mergeLeading hk b
    rw [Tensor.row_repeatSamples hk, hnormal b (hactionRows ▸ hb), hnoiseRow,
      hsigmaRow, Conditioning.row_repeatSamples hk] at hrow
    exact congrArg (fun tensor => tensor.entry [h]) hrow

end Spec

/-- Batched likelihoods are those of the single rows. -/
theorem batched_likelihoods [LinearOrder K] (policy : FastWamPolicy Ω K φ)
    (single : ActionModel K φ) (config : FastWamConfig K) (obs : Ω)
    (batchSize : ℕ) (hmodel : policy.RowWise single)
    (hobs : (policy.conditioning obs).HasRows batchSize) :
    (∀ (transitionCount : ℕ) (latents sigmas deltas : Tensor K),
      config.flowEnabled = true → 0 < config.transitionBatchSize →
      0 < transitionCount →
      latents.shape = [batchSize, transitionCount + 1, config.actionHorizon,
        actionDim] →
      sigmas.shape = [batchSize, transitionCount] →
      deltas.shape = [batchSize, transitionCount] →
      ∃ result, policy.flowGrpoLogProbs config obs latents sigmas deltas =
          .ok result ∧
        result.shape = [batchSize, transitionCount, config.actionHorizon] ∧
        ∀ b < batchSize, ∀ t < transitionCount, ∀ h, result.entry [b, t, h] =
            (single.transitionLogProbs config.noiseLevel
              ((latents.row b).row t) ((latents.row b).row (t + 1))
              ((sigmas.row b).row t) ((deltas.row b).row t)
              ((policy.conditioning obs).row b)).entry [h]) ∧
    ∀ (samples : ℕ) (actions timesteps noise : Tensor K)
      (lossKernel : String) (huberDelta : K),
      config.fpoEnabled = true →
      actions.shape = [batchSize, config.actionHorizon, actionDim] →
      timesteps.shape = [batchSize, samples] →
      noise.shape = [batchSize, samples, config.actionHorizon, actionDim] →
      (∀ b < batchSize, ∀ k < samples,
        0 ≤ timesteps.entry [b, k] ∧ timesteps.entry [b, k] ≤ 1) →
      (lossKernel = "mse" ∨ lossKernel = "huber") → 0 < huberDelta →
      ∃ result, policy.fpoCfmLoss config obs actions timesteps noise
          lossKernel huberDelta = .ok result ∧
        result.shape = [batchSize, config.actionHorizon, samples] ∧
        ∀ b < batchSize, ∀ h, ∀ k < samples, result.entry [b, h, k] =
            (single.cfmTokenLoss lossKernel huberDelta
              (single.normalize (actions.row b)) ((noise.row b).row k)
              ((timesteps.row b).row k)
              ((policy.conditioning obs).row b)).entry [h] := by
  constructor
  · intro transitionCount latents sigmas deltas henabled hsize hcount
      hlatents hsigmas hdeltas
    exact flowGrpoLogProbs_spec hmodel hobs henabled hsize hcount hlatents
      hsigmas hdeltas
  · intro samples actions timesteps noise lossKernel huberDelta henabled
      hactions htimesteps hnoise hrange hkernel hdelta
    exact fpoCfmLoss_spec hmodel hobs henabled hactions htimesteps hnoise
      hrange hkernel hdelta

/-- A model that adds the context to its tokens. -/
def addingModel : ActionModel ℚ Unit where
  normalize actions := actions
  preDit tokens timestep context contextMask :=
    ⟨tokens, (), timestep, context, contextMask⟩
  forwardAction pre _ _ _ :=
    pre.tokens.zipWith (· + ·) (pre.context.expandLike pre.tokens)
  postDit tokens _ := tokens
  sdeLogProb output sigma sigmaNext sample _ next :=
    sample.zipWith (· - ·) (next.zipWith (· + ·)
      (output.zipWith (· * ·) ((sigmaNext.zipWith (· - ·)
        sigma).expandLike sample)))
  inferTimesteps := 1000
  trainTimesteps := 1000

/-- Observations are their contexts. -/
def addingPolicy : FastWamPolicy (Tensor ℚ) ℚ Unit where
  toActionModel := addingModel
  observationConditioning obs := (obs, obs, obs)
  videoCache _ _ _ := ([], ⟨[], fun _ => 0⟩, 1)

theorem shape_ne_nil {tensor : Tensor α} {n i : ℕ} (hrows : tensor.rows = n)
    (hi : i < n) : tensor.shape ≠ [] := by
  intro hnil
  rw [Tensor.rows, hnil, headD_nil] at hrows
  omega

theorem addingModel_rowWise : addingModel.RowWise addingModel := by
  constructor
  · rfl
  · rfl
  · exact fun _ => ⟨rfl, fun _ _ => rfl⟩
  · intro n tokens timestep context contextMask htokens htimestep hcontext
      hmask
    exact ⟨⟨htokens, htimestep, hcontext, hmask⟩, fun _ _ => rfl⟩
  · intro n pre cond hpre _
    refine ⟨hpre.tokens, fun i hi => ?_⟩
    have hexpanded : (pre.context.expandLike pre.tokens).row i = _ :=
      Tensor.row_expandLike (shape_ne_nil hpre.context hi) i
    change (pre.tokens.row i).zipWith (· + ·)
      ((pre.context.expandLike pre.tokens).row i) = _
    rw [hexpanded]
    rfl
  · exact fun _ _ _ _ _ _ _ => rfl
  · exact fun _ _ _ _ _ _ _ => rfl
  · intro output sigma sigmaNext sample noiseLevel next _ _ hsigma _
    refine ⟨rfl, fun i hi => ?_⟩
    have hne : (sigmaNext.zipWith (· - ·) sigma).shape ≠ [] :=
      shape_ne_nil hsigma hi
    have hexpanded : ((sigmaNext.zipWith (· - ·) sigma).expandLike
        sample).row i = _ := Tensor.row_expandLike hne i
    change (sample.row i).zipWith (· - ·) ((next.row i).zipWith (· + ·)
      ((output.row i).zipWith (· * ·)
        (((sigmaNext.zipWith (· - ·) sigma).expandLike sample).row i))) = _
    rw [hexpanded]
    rfl

/-- Two observations, three transitions and blocks of two of them. -/
theorem batched_likelihoods_threeTransitions :
    ∃ result, addingPolicy.flowGrpoLogProbs ⟨true, true, 1, 1, 2⟩
        (.vector 2 fun b => b) ⟨[2, 4, 1, 14], fun index => index.sum⟩
        (.matrix 2 3 fun _ t => 3 - t) (.matrix 2 3 fun _ _ => -1) =
          .ok result ∧
      result.shape = [2, 3, 1] ∧
      ∀ b < 2, ∀ t < 3, ∀ h, result.entry [b, t, h] =
        (addingModel.transitionLogProbs 1
          ⟨[1, 14], fun index => ((b :: t :: index).sum : ℕ)⟩
          ⟨[1, 14], fun index => ((b :: (t + 1) :: index).sum : ℕ)⟩
          ⟨[], fun _ => 3 - t⟩ ⟨[], fun _ => -1⟩
          ((addingPolicy.conditioning
            (.vector 2 fun b => b)).row b)).entry [h] := by
  have hobs : (addingPolicy.conditioning
      (.vector 2 fun b => (b : ℚ))).HasRows 2 :=
    ⟨rfl, rfl, fun _ hlayer => by cases hlayer⟩
  exact (batched_likelihoods addingPolicy addingModel ⟨true, true, 1, 1, 2⟩
    _ 2 addingModel_rowWise hobs).1 3 _ _ _ rfl (by decide) (by decide) rfl
      rfl rfl

end FastWamPolicy
end VerlVla
