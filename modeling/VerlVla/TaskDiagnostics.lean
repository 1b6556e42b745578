import Mathlib.Analysis.SpecialFunctions.Exp
import Mathlib.Data.Finset.Sort
import Mathlib.Data.String.Basic
import VerlVla.ClampedMeans
import VerlVla.FpoUpdate
import VerlVla.GrpoAdvantages

/-!
# Task-gradient diagnostics

The accepted groups are labelled with their task before compaction.  At the
parameters that acted, the diagnostics compare the gradients of the tasks and
of their groups, each over its own total of loss weights, without a step.
-/

namespace VerlVla

open ClampedMeans (combination)

variable {ω : Type}

def GroupRecord.name (record : GroupRecord ω) : String :=
  record.taskName.getD ""

def sortedTaskNames (records : List (GroupRecord ω)) : List String :=
  (records.map GroupRecord.name).toFinset.sort (· ≤ ·)

def taskToIndex (records : List (GroupRecord ω)) (group : ℕ) : ℕ :=
  (sortedTaskNames records).idxOf
    ((records.map GroupRecord.name).getD group "")

def labelGroups (data : DataProto ω) (records : List (GroupRecord ω))
    (groupSize : ℕ) : Except (TrainingError ω) (DataProto ω) := do
  let valids ← data.batch.fetch .missingField "info.valids"
  require (∀ record ∈ records, record.taskName.isSome) .taskNameMissing
  let trajectories := records.length * groupSize
  pure { data with
    batch := (data.batch.insert "fpo.group_index"
      (.matrix trajectories valids.steps fun b _ =>
        (b / groupSize : ℕ))).insert "fpo.task_index"
      (.matrix trajectories valids.steps fun b _ =>
        taskToIndex records (b / groupSize)) }

/-- What the spooled trainer hands to the actor, for prepared trajectories. -/
def loadActorInput [Inhabited ω] [DecidableEq ω]
    (library : TrainingLibrary ω) (actorInput : DataProto ω)
    (records : List (GroupRecord ω)) (groupSize : ℕ)
    (rewardSource acceptedGroupReduction : String)
    (actorWorldSize microBatchSize : ℕ) :
    Except (TrainingError ω) (DataProto ω) := do
  let (weighted, _) ← applyGrpoOutcomeAdvantages library actorInput none
    (some records) groupSize rewardSource acceptedGroupReduction
  let labelled ← labelGroups weighted records groupSize
  compactValidPolicyChunksForFpo library labelled actorWorldSize microBatchSize

/-! ## Rows of the diagnostics -/

structure LabelledSlot (K : Type) extends ChunkSlot K where
  taskIndex : ℤ
  groupIndex : ℤ

structure DiagnosticRow (X : Type) extends LabelledSlot ℝ where
  advantage : ℝ
  contents : X

def DataProto.slotEntry (data : DataProto ω) (key : String) (row : ℕ) : ℚ :=
  match data.batch.lookup key with
  | none => 0
  | some tensor => tensor.entry [row]

def DataProto.labelledSlot (data : DataProto ω) (row : ℕ) :
    LabelledSlot ℚ where
  valid := data.slotEntry "info.valids" row ≠ 0
  weight := data.slotEntry "fpo.loss_weights" row
  taskIndex := truncate (data.slotEntry "fpo.task_index" row)
  groupIndex := truncate (data.slotEntry "fpo.group_index" row)

def DataProto.labelledSlots (data : DataProto ω) : List (LabelledSlot ℚ) :=
  (List.range data.length).map data.labelledSlot

def LabelledSlot.toReal (slot : LabelledSlot ℚ) : LabelledSlot ℝ where
  valid := slot.valid
  weight := slot.weight
  taskIndex := slot.taskIndex
  groupIndex := slot.groupIndex

/-- The rows of a batch once timesteps and noise are drawn, with the advantages
and contents that give them any gradients. -/
structure PreparedBatch (data : DataProto ω) (X : Type) where
  rows : List (DiagnosticRow X)
  slots : rows.map DiagnosticRow.toLabelledSlot =
    data.labelledSlots.map LabelledSlot.toReal

structure DiagnosticSetting where
  policy : PolicyConfig ℝ
  criticEnabled : Bool
  microBatchSize : ℕ
  diagnosticAtol : ℝ
  includeGroups : Bool
  micro_pos : 0 < microBatchSize
  atol_le : 1 / 100000 ≤ diagnosticAtol

/-- Log ratios at parameters, and the gradient at those that acted. -/
structure PolicyNetwork (policy : PolicyConfig ℝ) (Θ X E : Type)
    [AddCommGroup E] [Module ℝ E] where
  thetaOld : Θ
  logRatio : Θ → X → policy.variant.LogRatio ℝ policy.samples
  gradient : (Θ → ℝ) →ₗ[ℝ] E

inductive DiagnosticError
  | refused (text : String)
  | missing (keys : List String)
  | taskWithoutRows (taskName : String)
  | notAtThetaOld (maxAbsLogRatio diagnosticAtol : ℝ)

/-! ## Reports -/

structure TaskReport (E : Type) where
  name : String
  groups : List ℤ
  gradient : E
  groupGradients : Option (List E)

section Reports

variable {E : Type} [NormedAddCommGroup E] [InnerProductSpace ℝ E]

noncomputable def gradientMappingDot (left right : E) : ℝ := inner ℝ left right

noncomputable def gradientNorm (gradient : E) : ℝ :=
  √(max (gradientMappingDot gradient gradient) 0)

namespace TaskReport

noncomputable def norm (task : TaskReport E) : ℝ := gradientNorm task.gradient

noncomputable def groupNorms (task : TaskReport E) : Option (List ℝ) :=
  task.groupGradients.map (List.map gradientNorm)

noncomputable def coherence (task : TaskReport E) : Option ℝ :=
  task.groupNorms.map fun norms =>
    task.norm * task.groups.length / max norms.sum (1 / 10 ^ 30)

end TaskReport

/-- The norm and the projections of a combination, from the Gram matrix. -/
noncomputable def gradientMappingLinearCombinationStats
    (tasks : List (TaskReport E)) (coefficients : TaskReport E → ℝ) :
    ℝ × List (String × ℝ) :=
  let gram := fun left right : TaskReport E =>
    gradientMappingDot left.gradient right.gradient
  (√(max (tasks.map fun left => (tasks.map fun right =>
      coefficients left * coefficients right * gram left right).sum).sum 0),
    tasks.map fun task => (task.name, (tasks.map fun other =>
      coefficients other * gram task other).sum))

structure DiagnosticReport (E : Type) where
  tasks : List (TaskReport E)

namespace DiagnosticReport

variable (report : DiagnosticReport E)

def totalGroups : ℕ := (report.tasks.map fun task => task.groups.length).sum

noncomputable def currentCoefficients (task : TaskReport E) : ℝ :=
  task.groups.length / report.totalGroups

noncomputable def taskEqualCoefficients (_ : TaskReport E) : ℝ :=
  1 / report.tasks.length

noncomputable def combinationNorm (coefficients : TaskReport E → ℝ) : ℝ :=
  √(max (report.tasks.map fun left => (report.tasks.map fun right =>
    coefficients left * coefficients right *
      gradientMappingDot left.gradient right.gradient).sum).sum 0)

noncomputable def currentNorm : ℝ :=
  report.combinationNorm report.currentCoefficients

noncomputable def taskEqualNorm : ℝ :=
  report.combinationNorm report.taskEqualCoefficients

end DiagnosticReport

end Reports

/-! ## Gradients of rows -/

section Gradients

variable {Θ X E : Type} [NormedAddCommGroup E] [InnerProductSpace ℝ E]
  {setting : DiagnosticSetting} (network : PolicyNetwork setting.policy Θ X E)

namespace PolicyNetwork

def surrogateRow (parameters : Θ) (row : DiagnosticRow X) :
    setting.policy.Row :=
  { toChunkSlot := row.toChunkSlot
    advantage := row.advantage
    logRatio := network.logRatio parameters row.contents }

/-- No error occurs, since the policy's coefficients were checked. -/
noncomputable def policyLoss (normalization : ℝ) (rows : List (DiagnosticRow X))
    (parameters : Θ) : ℝ :=
  match computeClippedPolicyLoss Real.exp setting.policy
      (rows.map (network.surrogateRow parameters))
      (some fun row => row.weight) (some normalization) with
  | .ok result => result.loss
  | .error _ => 0

noncomputable def accumulateGradients (normalization : ℝ)
    (rows : List (DiagnosticRow X)) : E :=
  (splitRows setting.microBatchSize rows).foldl (fun total microBatch =>
    total + network.gradient (network.policyLoss normalization microBatch)) 0

noncomputable def maxAbsIdentityLogRatio (rows : List (DiagnosticRow X)) : ℝ :=
  (rows.filter fun row => row.valid).foldl (fun bound row =>
    max bound (setting.policy.variant.maxAbsLogRatio
      (network.logRatio network.thetaOld row.contents))) 0

noncomputable def diagnosticBackward (rows : List (DiagnosticRow X))
    (normalization : ℝ) : Except DiagnosticError E := do
  let gradient := network.accumulateGradients normalization rows
  require (network.maxAbsIdentityLogRatio rows ≤ setting.diagnosticAtol)
    (.notAtThetaOld (network.maxAbsIdentityLogRatio rows)
      setting.diagnosticAtol)
  pure gradient

noncomputable def subsetGradient (rows : List (DiagnosticRow X)) :
    Except DiagnosticError E :=
  network.diagnosticBackward rows (max (rows.map fun row => row.weight).sum 1)

noncomputable def updateGradient (rows : List (DiagnosticRow X)) :
    Except String E := do
  let normalization := distributedGradientMeanDenominator
    [rows.map fun row => row.weight]
  require (0 < normalization)
    "GRPO trajectory-balanced loss has no finite positive weight."
  pure (network.accumulateGradients normalization rows)

end PolicyNetwork

/-! ## The diagnostics -/

def requiredKeys : List String :=
  ["fpo.advantages", "fpo.group_index", "fpo.loss_weights", "fpo.task_index"]

def missingKeys (data : DataProto ω) (keys : List String) : List String :=
  keys.filter fun key => (data.batch.lookup key).isNone

noncomputable def checkDiagnosticInput (setting : DiagnosticSetting) (worldSize : ℕ)
    (data : DataProto ω) (taskNames : List String) :
    Except DiagnosticError Unit := do
  require (worldSize = 1) (.refused
    "Exact task-gradient diagnostics currently require one actor rank.")
  require (setting.criticEnabled = false) (.refused
    "Task-gradient diagnostics are defined for critic-free GRPO only.")
  require (missingKeys data requiredKeys = [])
    (.missing (missingKeys data requiredKeys))
  require (taskNames ≠ []) (.refused
    "Task-gradient diagnostic requires fpo_task_names metadata.")
  require (missingKeys data ["info.valids"] = [])
    (.missing (missingKeys data ["info.valids"]))

def groupsOfTask (flat : List (DiagnosticRow X)) (task : ℤ) : List ℤ :=
  ((flat.filter fun row => row.taskIndex = task).map
    fun row => row.groupIndex).toFinset.sort (· ≤ ·)

structure TaskGroups where
  name : String
  index : ℕ
  groups : List ℤ

def groupsByTask (flat : List (DiagnosticRow X)) (entry : String × ℕ) :
    Except DiagnosticError TaskGroups := do
  let groups := groupsOfTask flat entry.2
  require (groups ≠ []) (.taskWithoutRows entry.1)
  pure ⟨entry.1, entry.2, groups⟩

noncomputable def taskGradient (flat : List (DiagnosticRow X))
    (task : TaskGroups) : Except DiagnosticError (TaskGroups × E) := do
  let gradient ← network.subsetGradient
    (flat.filter fun row => row.taskIndex = task.index)
  pure (task, gradient)

noncomputable def groupGradient (flat : List (DiagnosticRow X)) (group : ℤ) :
    Except DiagnosticError E :=
  network.subsetGradient (flat.filter fun row => row.groupIndex = group)

noncomputable def taskReport (flat : List (DiagnosticRow X))
    (task : TaskGroups × E) : Except DiagnosticError (TaskReport E) :=
  if setting.includeGroups then do
    let gradients ← task.1.groups.mapM (groupGradient network flat)
    pure ⟨task.1.name, task.1.groups, task.2, some gradients⟩
  else .ok ⟨task.1.name, task.1.groups, task.2, none⟩

noncomputable def diagnoseTaskGradients (worldSize : ℕ) {data : DataProto ω}
    (taskNames : List String) (batch : PreparedBatch data X) :
    Except DiagnosticError (DiagnosticReport E) := do
  checkDiagnosticInput setting worldSize data taskNames
  let flat := batch.rows.filter fun row => row.valid
  let tasks ← taskNames.zipIdx.mapM (groupsByTask flat)
  let gradients ← tasks.mapM (taskGradient network flat)
  let reports ← gradients.mapM (taskReport network flat)
  pure ⟨reports⟩

end Gradients

/-! ## What the reports promise -/

section Promises

variable {E : Type} [NormedAddCommGroup E] [InnerProductSpace ℝ E]

noncomputable def DiagnosticReport.reductionCoefficients
    (report : DiagnosticReport E) (acceptedGroupReduction : String) :
    TaskReport E → ℝ :=
  if acceptedGroupReduction = "task_equal" then report.taskEqualCoefficients
  else report.currentCoefficients

noncomputable def DiagnosticReport.reductionNorm
    (report : DiagnosticReport E) (acceptedGroupReduction : String) : ℝ :=
  if acceptedGroupReduction = "task_equal" then report.taskEqualNorm
  else report.currentNorm

/-- Tasks are means of their groups, and the combination of the reduction is
the gradient of the update. -/
structure DescribesUpdate (acceptedGroupReduction : String)
    (report : DiagnosticReport E) (update : E) : Prop where
  mean : ∀ task ∈ report.tasks, ∀ gradients ∈ task.groupGradients,
    task.gradient = (task.groups.length : ℝ)⁻¹ • gradients.sum
  coherent : ∀ task ∈ report.tasks, ∀ value ∈ task.coherence, value ≤ 1
  norm : report.reductionNorm acceptedGroupReduction = ‖update‖
  projections : gradientMappingLinearCombinationStats report.tasks
      (report.reductionCoefficients acceptedGroupReduction) =
    (‖update‖, report.tasks.map fun task =>
      (task.name, gradientMappingDot task.gradient update))

end Promises

/-- At the parameters that acted, the ratios are one. -/
def PolicyNetwork.AtThetaOld {policy : PolicyConfig ℝ} {Θ X E : Type}
    [AddCommGroup E] [Module ℝ E] (network : PolicyNetwork policy Θ X E) :
    Prop :=
  ∀ contents, network.logRatio network.thetaOld contents =
    policy.variant.constLogRatio 0

/-- Whatever gradients the rows have, the diagnostics succeed and describe the
gradient of the update on the same rows. -/
def DiagnosticsDescribeUpdate (setting : DiagnosticSetting)
    (acceptedGroupReduction : String) (data : DataProto ω)
    (taskNames : List String) : Prop :=
  ∀ (Θ X E : Type) [NormedAddCommGroup E] [InnerProductSpace ℝ E]
    (network : PolicyNetwork setting.policy Θ X E)
    (batch : PreparedBatch data X), network.AtThetaOld → ∃ report update,
        diagnoseTaskGradients network 1 taskNames batch = .ok report ∧
        network.updateGradient batch.rows = .ok update ∧
        DescribesUpdate acceptedGroupReduction report update

end VerlVla
