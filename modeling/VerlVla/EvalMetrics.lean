import VerlVla.EvalLanes

/-!
# Metrics of an evaluation item

The evaluator leaves its metrics in the directory of an attempt.  An item is
complete when its marker names metrics that are valid for it; metrics of several
items are split, and each part is checked like metrics of its own.
-/

namespace VerlVla

structure EvalCase where
  layoutId : ℕ
  policySeed : ℕ
  done : Bool
  deriving DecidableEq

def EvalCase.key (evalCase : EvalCase) : ℕ × ℕ :=
  (evalCase.layoutId, evalCase.policySeed)

structure RlCheckpoint where
  sourceVerlGlobalStep : Option ℕ
  sourceVerlActorState : String
  deriving DecidableEq

/-- The directory of an attempt at an item, or at the items of a bundle; a bundle
is named by a digest of its items. -/
inductive AttemptDir
  | item (itemId : String) (attempt : ℕ)
  | bundle (itemIds : List String) (attempt : ℕ)
  deriving DecidableEq

structure EvalMetrics where
  taskName : Option String
  cases : Option (List EvalCase)
  numCases : Option ℕ
  robodojoEvalSeed : Option ℕ
  numEnvs : Option ℕ
  policyMicrobatchSize : Option ℕ
  maxPolicyCalls : Option ℕ
  actionChunkSize : Option ℕ
  processScoreReduction : Option String
  inMemoryRlCheckpoint : Option RlCheckpoint
  allCasesDone : Bool
  sharedVideoRoot : Option AttemptDir
  deriving DecidableEq

inductive MetricsFile
  | unreadable
  | metrics (metrics : EvalMetrics)
  deriving DecidableEq

structure CompletionMarker where
  itemId : String
  attempt : ℕ
  metricsDir : AttemptDir
  deriving DecidableEq

structure EvalFiles where
  metrics : AttemptDir → Option MetricsFile
  videos : AttemptDir → Bool
  complete : String → Option CompletionMarker

structure EvalRun where
  manifest : RunManifest
  resolve : String → String

inductive MetricsError
  | noFile
  | unreadable
  | policyLabel (label : String)
  | taskOrCases
  | caseCount
  | conditions
  | topology (key : String) (expected : ℕ)
  | processScoreReduction
  | checkpointLoaded
  | checkpointStep
  | checkpointPath
  | incompleteTrajectories
  | noVideo
  | markerIdentity
  | combinedMetrics
  | combinedConditions
  | combinedNumEnvs
  | missingCase (layout seed : ℕ)
  deriving DecidableEq

/-! ## Validation -/

section Validation

variable (run : EvalRun)

def policyByLabel (label : String) : Except MetricsError EvalPolicy :=
  match run.manifest.spec.policies.filter fun policy =>
      policy.label = label with
  | [policy] => .ok policy
  | _ => .error (.policyLabel label)

def checkIdentity (policy : EvalPolicy) (identity : Option RlCheckpoint) :
    Except MetricsError Unit :=
  match policy.expectedSourceVerlGlobalStep with
  | none => require (identity = none) .checkpointLoaded
  | some step => do
    require (identity.bind RlCheckpoint.sourceVerlGlobalStep = some step)
      .checkpointStep
    require (run.resolve
        ((identity.map RlCheckpoint.sourceVerlActorState).getD "") =
      run.resolve (policy.verlActorCheckpoint ++
        "/actor/model_world_size_1_rank_0.pt"))
      .checkpointPath

def checkScalars (item : WorkItem) (metrics : EvalMetrics) :
    Except MetricsError Unit :=
  [("robodojo_eval_seed", item.suiteId, metrics.robodojoEvalSeed),
    ("num_envs", run.manifest.spec.topology.numEnvs, metrics.numEnvs),
    ("policy_microbatch_size", run.manifest.spec.topology.policyMicrobatchSize,
      metrics.policyMicrobatchSize),
    ("max_policy_calls", run.manifest.spec.topology.maxPolicyCalls,
      metrics.maxPolicyCalls),
    ("action_chunk_size", 24, metrics.actionChunkSize)].forM fun scalar =>
      require (scalar.2.2 = some scalar.2.1) (.topology scalar.1 scalar.2.1)

def checkContents (item : WorkItem) (metrics : EvalMetrics) :
    Except MetricsError Unit := do
  let policy ← policyByLabel run item.policyLabel
  require (metrics.taskName = some item.taskName ∧ metrics.cases ≠ none)
    .taskOrCases
  let cases := metrics.cases.getD []
  require (metrics.numCases = some item.policySeeds.length ∧
    cases.length = item.policySeeds.length) .caseCount
  require ((cases.map EvalCase.key).Perm item.cases) .conditions
  checkScalars run item metrics
  require (metrics.processScoreReduction =
    some run.manifest.spec.topology.processScoreReduction)
    .processScoreReduction
  checkIdentity run policy metrics.inMemoryRlCheckpoint
  require (metrics.allCasesDone = true) .incompleteTrajectories

def checkMetrics (videos : AttemptDir → Bool) (dir : AttemptDir)
    (item : WorkItem) (metrics : EvalMetrics) : Except MetricsError Unit := do
  checkContents run item metrics
  require (videos (metrics.sharedVideoRoot.getD dir) = true) .noVideo

def readMetrics (files : EvalFiles) (dir : AttemptDir) :
    Except MetricsError EvalMetrics :=
  match files.metrics dir with
  | none => .error .noFile
  | some .unreadable => .error .unreadable
  | some (.metrics metrics) => .ok metrics

def validateMetrics (files : EvalFiles) (dir : AttemptDir)
    (item : WorkItem) : Except MetricsError EvalMetrics := do
  let metrics ← readMetrics files dir
  checkMetrics run files.videos dir item metrics
  .ok metrics

def readComplete (files : EvalFiles) (item : WorkItem) :
    Except MetricsError (Option (CompletionMarker × EvalMetrics)) :=
  match files.complete item.itemId with
  | none => .ok none
  | some marker => do
    require (marker.itemId = item.itemId) .markerIdentity
    let metrics ← validateMetrics run files marker.metricsDir item
    .ok (some (marker, metrics))

def bundleCases (missing : List WorkItem) : List (ℕ × ℕ) :=
  missing.flatMap WorkItem.cases

def bundleDir (missing : List WorkItem) (attempt : ℕ) : AttemptDir :=
  .bundle (missing.map WorkItem.itemId) attempt

def readCombined (files : EvalFiles) (missing : List WorkItem)
    (attempt : ℕ) : Except MetricsError EvalMetrics := do
  let combined ← readMetrics files (bundleDir missing attempt)
  require (combined.taskName = missing.head?.map WorkItem.taskName ∧
    combined.cases ≠ none) .combinedMetrics
  require (((combined.cases.getD []).map EvalCase.key).Perm
    (bundleCases missing)) .combinedConditions
  require (combined.numEnvs =
    some (missing.flatMap WorkItem.policySeeds).length) .combinedNumEnvs
  require (files.videos (bundleDir missing attempt) = true) .noVideo
  .ok combined

/-- The case of a key; a later one takes the place of an earlier one. -/
def caseOf (cases : List EvalCase) (layout seed : ℕ) :
    Except MetricsError EvalCase :=
  match cases.reverse.find? fun evalCase =>
      evalCase.key = (layout, seed) with
  | some evalCase => .ok evalCase
  | none => .error (.missingCase layout seed)

def splitMetrics (missing : List WorkItem) (attempt : ℕ)
    (combined : EvalMetrics) (item : WorkItem) :
    Except MetricsError EvalMetrics := do
  let itemCases ← item.policySeeds.mapM
    (caseOf (combined.cases.getD []) item.layoutId)
  .ok { combined with
    cases := some itemCases
    numCases := some itemCases.length
    numEnvs := some run.manifest.spec.topology.numEnvs
    allCasesDone := itemCases.all EvalCase.done
    sharedVideoRoot := some (bundleDir missing attempt) }

end Validation

/-! ## What stays valid -/

section Stable

variable {run : EvalRun} {before after : EvalFiles}

theorem checkMetrics_mono
    (hvideos : ∀ dir, before.videos dir = true → after.videos dir = true)
    (hcheck : checkMetrics run before.videos dir item metrics = .ok ()) :
    checkMetrics run after.videos dir item metrics = .ok () := by
  unfold checkMetrics at hcheck ⊢
  obtain ⟨_, hcontents, hvideo⟩ := bind_eq_ok.mp hcheck
  exact bind_eq_ok.mpr ⟨_, hcontents,
    require_of (hvideos _ (require_eq_ok.mp hvideo)) _⟩

theorem validateMetrics_eq_ok :
    validateMetrics run files dir item = .ok metrics ↔
      files.metrics dir = some (.metrics metrics) ∧
        checkMetrics run files.videos dir item metrics = .ok () := by
  unfold validateMetrics readMetrics
  constructor
  · intro hvalid
    obtain ⟨found, hread, hvalid⟩ := bind_eq_ok.mp hvalid
    obtain ⟨_, hcheck, hsame⟩ := bind_eq_ok.mp hvalid
    cases hsame
    cases hfile : files.metrics dir with
    | none =>
      simp [hfile] at hread
    | some file =>
      rw [hfile] at hread
      cases file with
      | unreadable => cases hread
      | metrics metrics =>
        cases hread
        exact ⟨rfl, hcheck⟩
  · rintro ⟨hfile, hcheck⟩
    simp only [hfile]
    simp only [bind, Except.bind]
    rw [hcheck]

theorem validateMetrics_mono
    (hmetrics : after.metrics dir = before.metrics dir)
    (hvideos : ∀ dir, before.videos dir = true → after.videos dir = true)
    (hvalid : validateMetrics run before dir item = .ok metrics) :
    validateMetrics run after dir item = .ok metrics := by
  obtain ⟨hfile, hcheck⟩ := validateMetrics_eq_ok.mp hvalid
  exact validateMetrics_eq_ok.mpr
    ⟨hmetrics.trans hfile, checkMetrics_mono hvideos hcheck⟩

theorem readMetrics_eq_ok : readMetrics files dir = .ok metrics ↔
      files.metrics dir = some (.metrics metrics) := by
  unfold readMetrics
  cases files.metrics dir with
  | none => simp
  | some file =>
    cases file with
    | unreadable | metrics other => simp

theorem readCombined_mono
    (hmetrics : after.metrics (bundleDir missing attempt) =
      before.metrics (bundleDir missing attempt))
    (hvideos : ∀ dir, before.videos dir = true → after.videos dir = true)
    (hread : readCombined before missing attempt = .ok combined) :
    readCombined after missing attempt = .ok combined := by
  unfold readCombined at hread ⊢
  obtain ⟨found, hfound, hread⟩ := bind_eq_ok.mp hread
  simp only [require_bind_eq_ok] at hread
  obtain ⟨hnamed, hcases, henvs, hvideo, hsame⟩ := hread
  refine bind_eq_ok.mpr ⟨found, ?_, ?_⟩
  · exact readMetrics_eq_ok.mpr (hmetrics.trans (readMetrics_eq_ok.mp hfound))
  · simp only [require_bind_eq_ok]
    exact ⟨hnamed, hcases, henvs, hvideos _ hvideo, hsame⟩

/-- The marker of an item names an attempt of its own, whose metrics are
valid. -/
def Reads (run : EvalRun) (files : EvalFiles) (item : WorkItem) : Prop :=
  ∀ marker, files.complete item.itemId = some marker →
    marker.itemId = item.itemId ∧
      marker.metricsDir = .item item.itemId marker.attempt ∧
      ∃ metrics, validateMetrics run files marker.metricsDir item = .ok metrics

theorem Reads.readComplete (hreads : Reads run files item) :
    ∃ existing, readComplete run files item = .ok existing ∧
      existing.isSome = (files.complete item.itemId).isSome := by
  unfold VerlVla.readComplete
  cases hcomplete : files.complete item.itemId with
  | none => exact ⟨none, rfl, rfl⟩
  | some marker =>
    obtain ⟨hid, -, metrics, hvalid⟩ := hreads marker hcomplete
    refine ⟨some (marker, metrics), ?_, rfl⟩
    simp only [require_of hid, hvalid]
    rfl

end Stable

end VerlVla
