import VerlVla.MicroBatching
import VerlVla.TaskGradientRows

/-!
# Gradients of tasks and groups

The gradient of rows over one total is a clamped mean of weighted gradients,
whatever the micro-batches, and the report of the diagnostics is built from the
means of tasks and groups.
-/

namespace VerlVla

open Finset
open ClampedMeans (clampedMean combination)

/-! ## Gradients as clamped means -/

section Rows

variable {Θ X E : Type} [NormedAddCommGroup E] [InnerProductSpace ℝ E]
  {setting : DiagnosticSetting} (network : PolicyNetwork setting.policy Θ X E)

def DiagnosticRow.totalWeight (rows : List (DiagnosticRow X)) : ℝ :=
  (rows.map fun row => row.weight).sum

namespace PolicyNetwork

noncomputable def rowGradient (row : DiagnosticRow X) : E :=
  network.gradient fun parameters =>
    setting.policy.surrogate Real.exp (network.surrogateRow parameters row)

noncomputable def weightedGradient (rows : List (DiagnosticRow X)) : E :=
  (rows.map fun row => row.weight • network.rowGradient row).sum

noncomputable def meanGradient (rows : List (DiagnosticRow X)) : E :=
  clampedMean (DiagnosticRow.totalWeight rows) (network.weightedGradient rows)

theorem policyLoss_eq (normalization : ℝ) (rows : List (DiagnosticRow X))
    (parameters : Θ) :
    network.policyLoss normalization rows parameters =
      (rows.map fun row => row.weight * row.validity *
        setting.policy.surrogate Real.exp
          (network.surrogateRow parameters row)).sum /
        max normalization 1 := by
  obtain ⟨result, hresult, hloss, _⟩ := computeClippedPolicyLoss_eq Real.exp
    setting.policy (rows.map (network.surrogateRow parameters))
    (some fun row => row.weight) (some normalization)
  rw [policyLoss, hresult]
  show result.loss = _
  rw [hloss, List.map_map]
  rfl

theorem gradient_sum {α : Type} (coefficient : α → ℝ) (term : Θ → α → ℝ)
    (total : ℝ) (items : List α) :
    (network.gradient fun parameters =>
      (items.map fun item =>
        coefficient item * term parameters item).sum / total) =
      total⁻¹ • (items.map fun item => coefficient item •
        network.gradient fun parameters => term parameters item).sum := by
  have hscale : (fun parameters => (items.map fun item =>
      coefficient item * term parameters item).sum / total) =
      total⁻¹ • fun parameters => (items.map fun item =>
        coefficient item * term parameters item).sum := by
    funext parameters
    rw [Pi.smul_apply, smul_eq_mul, div_eq_inv_mul]
  rw [hscale, map_smul]
  congr 1
  clear hscale
  induction items with
  | nil => exact map_zero network.gradient
  | cons item items ih =>
    have hsplit : (fun parameters => ((item :: items).map fun item =>
        coefficient item * term parameters item).sum) =
        (coefficient item • fun parameters => term parameters item) +
          fun parameters => (items.map fun item =>
            coefficient item * term parameters item).sum := by
      funext parameters
      simp
    rw [hsplit, map_add, map_smul, ih, List.map_cons, List.sum_cons]

theorem accumulateGradients_eq (normalization : ℝ)
    (rows : List (DiagnosticRow X)) :
    network.accumulateGradients normalization rows =
      clampedMean normalization (rows.map fun row =>
        (row.weight * row.validity) • network.rowGradient row).sum := by
  have hparts : (fun parameters =>
      ((splitRows setting.microBatchSize rows).map fun microBatch =>
        network.policyLoss normalization microBatch parameters).sum) =
      fun parameters => (rows.map fun row => row.weight * row.validity *
        setting.policy.surrogate Real.exp
          (network.surrogateRow parameters row)).sum /
            max normalization 1 := by
    funext parameters
    simp only [policyLoss_eq, div_eq_mul_inv, List.sum_map_mul_right]
    congr 1
    conv_rhs => rw [← flatten_splitRows setting.micro_pos rows]
    rw [List.map_flatten, List.sum_flatten, List.map_map]
    rfl
  rw [accumulateGradients, foldl_gradient, zero_add, hparts, gradient_sum]
  rfl

theorem sum_valid (rows : List (DiagnosticRow X)) : (rows.map fun row =>
        (row.weight * row.validity) • network.rowGradient row).sum =
      network.weightedGradient (rows.filter fun row => row.valid) := by
  have hinvalid : ∀ row ∈ rows, row.valid = false →
      (row.weight * row.validity) • network.rowGradient row = 0 := by
    intro row _ hrow
    rw [ChunkSlot.validity, hrow]
    simp
  rw [← ClampedMeans.sum_filter_support _ _ hinvalid, weightedGradient]
  congr 1
  apply List.map_congr_left
  intro row hrow
  have hvalid : row.valid = true := (List.mem_filter.mp hrow).2
  rw [ChunkSlot.validity, hvalid, if_pos rfl, mul_one]

end PolicyNetwork

theorem PolicyVariant.maxAbsLogRatio_zero (variant : PolicyVariant) :
    variant.maxAbsLogRatio
      (variant.constLogRatio (0 : ℝ) : variant.LogRatio ℝ samples) = 0 := by
  have hfold : ∀ values : List ℝ, (∀ value ∈ values, value = 0) →
      values.foldl (fun bound value => max bound |value|) 0 = 0 := by
    intro values hzero
    induction values with
    | nil => rfl
    | cons value values ih =>
      rw [List.foldl_cons, hzero value List.mem_cons_self, abs_zero, max_self]
      exact ih fun other hother =>
        hzero other (List.mem_cons_of_mem value hother)
  cases variant with
  | vanilla => exact abs_zero
  | fpoPlusPlus mode | flowGrpo =>
    apply hfold
    intro value hvalue
    obtain ⟨_, rfl⟩ := List.mem_ofFn.mp hvalue
    rfl

namespace PolicyNetwork

variable {network} (hold : network.AtThetaOld)
include hold

theorem maxAbsIdentityLogRatio_eq (rows : List (DiagnosticRow X)) :
    network.maxAbsIdentityLogRatio rows = 0 := by
  unfold maxAbsIdentityLogRatio
  induction rows.filter fun row => row.valid with
  | nil => rfl
  | cons row rows ih =>
    rw [List.foldl_cons, hold row.contents,
      PolicyVariant.maxAbsLogRatio_zero, max_self]
    exact ih

theorem subsetGradient_ok (hvalid : ∀ row ∈ rows, row.valid = true) :
    network.subsetGradient rows = .ok (network.meanGradient rows) := by
  have hidentity : network.maxAbsIdentityLogRatio rows ≤
      setting.diagnosticAtol := by
    have hpositive : (0 : ℝ) ≤ 1 / 100000 := by norm_num
    rw [maxAbsIdentityLogRatio_eq hold]
    exact hpositive.trans setting.atol_le
  have hfilter : (rows.filter fun row => row.valid) = rows :=
    List.filter_eq_self.mpr hvalid
  rw [subsetGradient, diagnosticBackward]
  rw [require_of hidentity]
  show Except.ok _ = _
  rw [accumulateGradients_eq, sum_valid, hfilter, clampedMean, max_assoc,
    max_self]
  rfl

end PolicyNetwork

end Rows

/-! ## Groups and tasks of the rows -/

section Groups

variable {ω X : Type} {records : List (GroupRecord ω)} {groupSize : ℕ}
  {reduction : String} {rows : List (DiagnosticRow X)}

def taskGroupSet (records : List (GroupRecord ω)) (task : ℕ) : Finset ℕ :=
  {group ∈ range records.length | taskToIndex records group = task}

theorem taskToIndex_lt (hgroup : group < records.length) :
    taskToIndex records group < (sortedTaskNames records).length := by
  apply List.idxOf_lt_length_of_mem
  have hget : (records.map GroupRecord.name).getD group "" =
      records[group].name := by
    simp [List.getD_eq_getElem?_getD, hgroup]
  rw [sortedTaskNames, mem_sort, List.mem_toFinset, hget]
  exact List.mem_map_of_mem (List.getElem_mem hgroup)

theorem nodup_sortedTaskNames : (sortedTaskNames records).Nodup :=
  sort_nodup _ _

theorem taskToIndex_eq_iff (hgroup : group < records.length)
    (htask : task < (sortedTaskNames records).length) :
    taskToIndex records group = task ↔
      taskOf records group = (sortedTaskNames records)[task] := by
  have hlt := taskToIndex_lt hgroup
  have hname : (sortedTaskNames records)[taskToIndex records group] =
      taskOf records group := List.getElem_idxOf hlt
  rw [← hname]
  exact (nodup_sortedTaskNames.getElem_inj_iff).symm

theorem card_taskGroupSet (htask : task < (sortedTaskNames records).length) :
    #(taskGroupSet records task) = (records.map GroupRecord.name).count
      (sortedTaskNames records)[task] := by
  rw [NestedMeans.count_eq_card _ _ "", List.length_map]
  congr 1
  apply filter_congr
  intro group hgroup
  exact taskToIndex_eq_iff (mem_range.mp hgroup) htask

theorem taskGroupSet_nonempty (htask : task < (sortedTaskNames records).length) :
    (taskGroupSet records task).Nonempty := by
  rw [← card_pos, card_taskGroupSet htask]
  apply List.count_pos_iff.mpr
  have hmem : (sortedTaskNames records)[task] ∈
      (records.map GroupRecord.name).toFinset.sort (· ≤ ·) :=
    List.getElem_mem htask
  rw [mem_sort, List.mem_toFinset] at hmem
  exact hmem

theorem sum_card_taskGroupSet :
    ∑ task ∈ range (sortedTaskNames records).length,
      #(taskGroupSet records task) = records.length := by
  have hfibres := card_eq_sum_card_fiberwise
    (fun group (hgroup : group ∈ (range records.length : Set ℕ)) =>
      mem_coe.mpr (mem_range.mpr (taskToIndex_lt
        (mem_range.mp (mem_coe.mp hgroup)))) :
      Set.MapsTo (taskToIndex records) (range records.length)
        (range (sortedTaskNames records).length))
  rw [card_range] at hfibres
  exact hfibres.symm

namespace GroupedRows

variable (hrows : GroupedRows rows records groupSize reduction)
include hrows

theorem totalWeight_group (hgroup : group < records.length) :
    DiagnosticRow.totalWeight ((rows.filter fun row => row.valid).filter
        fun row => row.groupIndex = (group : ℤ)) =
      ((scaleList records reduction).getD group 0 * groupSize : ℚ) :=
  hrows.total group hgroup

theorem group_has_row (hgroupSize : 0 < groupSize)
    (hgroup : group < records.length) :
    ∃ row ∈ rows, row.valid = true ∧ row.groupIndex = group := by
  have htotal := hrows.total group hgroup
  have hpositive : (0 : ℚ) < (scaleList records reduction).getD group 0 *
      groupSize := mul_pos (scaleList_pos hgroup) (by exact_mod_cast hgroupSize)
  have hne : ((rows.filter fun row => row.valid).filter
      fun row => row.groupIndex = (group : ℤ)) ≠ [] := by
    intro hnil
    rw [hnil, List.map_nil, List.sum_nil] at htotal
    have hzero : (0 : ℚ) = (scaleList records reduction).getD group 0 *
        groupSize := by exact_mod_cast htotal
    exact hpositive.ne hzero
  obtain ⟨row, hmem⟩ := List.exists_mem_of_ne_nil _ hne
  rw [List.mem_filter, List.mem_filter, decide_eq_true_eq] at hmem
  exact ⟨row, hmem.1.1, hmem.1.2, hmem.2⟩

theorem mem_groupsOfTask (hgroupSize : 0 < groupSize) {task : ℕ} {label : ℤ} :
    label ∈ groupsOfTask (rows.filter fun row => row.valid) task ↔
      ∃ group ∈ taskGroupSet records task, label = group := by
  rw [groupsOfTask, mem_sort, List.mem_toFinset, List.mem_map]
  constructor
  · rintro ⟨row, hrow, rfl⟩
    rw [List.mem_filter, List.mem_filter, decide_eq_true_eq] at hrow
    obtain ⟨⟨hmem, hvalid⟩, htask⟩ := hrow
    obtain ⟨group, hgroup, hlabel, hindex⟩ := hrows.labelled row hmem hvalid
    have heq : taskToIndex records group = task := by
      rw [hindex] at htask
      exact_mod_cast htask
    exact ⟨group, mem_filter.mpr ⟨mem_range.mpr hgroup, heq⟩, hlabel⟩
  · rintro ⟨group, hgroup, rfl⟩
    obtain ⟨hlt, htask⟩ := mem_filter.mp hgroup
    rw [mem_range] at hlt
    obtain ⟨row, hmem, hvalid, hlabel⟩ := hrows.group_has_row hgroupSize hlt
    obtain ⟨own, _, hown, hindex⟩ := hrows.labelled row hmem hvalid
    have hsame : own = group := by
      rw [hown] at hlabel
      exact_mod_cast hlabel
    refine ⟨row, ?_, hlabel⟩
    rw [List.mem_filter, List.mem_filter, decide_eq_true_eq]
    refine ⟨⟨hmem, hvalid⟩, ?_⟩
    rw [hindex, hsame, htask]

theorem length_groupsOfTask (hgroupSize : 0 < groupSize) {task : ℕ} :
    (groupsOfTask (rows.filter fun row => row.valid) task).length =
      #(taskGroupSet records task) := by
  have hset : (groupsOfTask (rows.filter fun row => row.valid)
      task).toFinset = (taskGroupSet records task).map
        ⟨((↑) : ℕ → ℤ), Nat.cast_injective⟩ := by
    ext label
    rw [List.mem_toFinset, hrows.mem_groupsOfTask hgroupSize, mem_map]
    constructor
    · rintro ⟨group, hgroup, rfl⟩
      exact ⟨group, hgroup, rfl⟩
    · rintro ⟨group, hgroup, rfl⟩
      exact ⟨group, hgroup, rfl⟩
  have hnodup : (groupsOfTask (rows.filter fun row => row.valid)
      task).Nodup := sort_nodup _ _
  rw [← List.toFinset_card_of_nodup hnodup, hset, card_map]

theorem sum_task {M : Type} [AddCommMonoid M] (hgroupSize : 0 < groupSize)
    (f : DiagnosticRow X → M) (task : ℕ) :
    (((rows.filter fun row => row.valid).filter
        fun row => row.taskIndex = (task : ℤ)).map f).sum =
      ((groupsOfTask (rows.filter fun row => row.valid) task).map
        fun label => (((rows.filter fun row => row.valid).filter
          fun row => row.groupIndex = label).map f).sum).sum := by
  have hnodup : (groupsOfTask (rows.filter fun row => row.valid)
      task).Nodup := sort_nodup _ _
  apply ClampedMeans.sum_filter_labels hnodup
  intro row hrow
  rw [List.mem_filter] at hrow
  obtain ⟨group, hgroup, hlabel, hindex⟩ := hrows.labelled row hrow.1 hrow.2
  rw [decide_eq_true_eq, hrows.mem_groupsOfTask hgroupSize, hindex, hlabel]
  constructor
  · intro htask
    have heq : taskToIndex records group = task := by exact_mod_cast htask
    exact ⟨group, mem_filter.mpr ⟨mem_range.mpr hgroup, heq⟩, rfl⟩
  · rintro ⟨other, hother, hsame⟩
    have heq : group = other := by exact_mod_cast hsame
    rw [heq, (mem_filter.mp hother).2]

theorem sum_tasks {M : Type} [AddCommMonoid M] (f : DiagnosticRow X → M) :
    ((rows.filter fun row => row.valid).map f).sum =
      ((List.range (sortedTaskNames records).length).map fun task : ℕ =>
        (((rows.filter fun row => row.valid).filter
          fun row => row.taskIndex = (task : ℤ)).map f).sum).sum := by
  have hnodup : ((List.range (sortedTaskNames records).length).map
      ((↑) : ℕ → ℤ)).Nodup :=
    List.nodup_range.map Nat.cast_injective
  have hall := ClampedMeans.sum_labels hnodup
    (fun row : DiagnosticRow X => row.taskIndex) f
    (fun row (hrow : row ∈ rows.filter fun row => row.valid) => by
      rw [List.mem_filter] at hrow
      obtain ⟨group, hgroup, _, hindex⟩ := hrows.labelled row hrow.1 hrow.2
      rw [hindex]
      exact List.mem_map_of_mem (List.mem_range.mpr (taskToIndex_lt hgroup)))
  rw [List.map_map] at hall
  exact hall

end GroupedRows

end Groups

/-! ## The report -/

section Report

variable {ω Θ X E : Type} [NormedAddCommGroup E] [InnerProductSpace ℝ E]
  {setting : DiagnosticSetting} (network : PolicyNetwork setting.policy Θ X E)
  {records : List (GroupRecord ω)} {groupSize : ℕ} {reduction : String}

noncomputable def groupMeanGradient (flat : List (DiagnosticRow X))
    (group : ℤ) : E :=
  network.meanGradient (flat.filter fun row => row.groupIndex = group)

noncomputable def taskMeanGradient (flat : List (DiagnosticRow X))
    (task : ℕ) : E :=
  network.meanGradient (flat.filter fun row => row.taskIndex = (task : ℤ))

noncomputable def expectedTask (flat : List (DiagnosticRow X))
    (entry : String × ℕ) : TaskReport E where
  name := entry.1
  groups := groupsOfTask flat entry.2
  gradient := taskMeanGradient network flat entry.2
  groupGradients := if setting.includeGroups then
      some ((groupsOfTask flat entry.2).map (groupMeanGradient network flat))
    else none

theorem valid_of_filter {rows : List (DiagnosticRow X)}
    (p : DiagnosticRow X → Bool) :
    ∀ row ∈ (rows.filter fun row => row.valid).filter p, row.valid = true := by
  intro row hrow
  rw [List.mem_filter, List.mem_filter] at hrow
  exact hrow.1.2

variable {network}

theorem diagnoseTaskGradients_ok (batch : PreparedBatch data X)
    (hold : network.AtThetaOld)
    (hcheck : checkDiagnosticInput setting 1 data taskNames = .ok ())
    (hgroups : ∀ entry ∈ taskNames.zipIdx,
      groupsOfTask (batch.rows.filter fun row => row.valid) entry.2 ≠ []) :
    diagnoseTaskGradients network 1 taskNames batch =
      .ok ⟨taskNames.zipIdx.map (expectedTask network
        (batch.rows.filter fun row => row.valid))⟩ := by
  set flat := batch.rows.filter fun row => row.valid with hflat
  have htasks : taskNames.zipIdx.mapM (groupsByTask flat) =
      .ok (taskNames.zipIdx.map fun entry =>
        ⟨entry.1, entry.2, groupsOfTask flat entry.2⟩) := by
    apply mapM_eq_ok_map
    intro entry hentry
    rw [groupsByTask, require_of (hgroups entry hentry)]
    rfl
  have hgradients : ∀ tasks : List TaskGroups,
      tasks.mapM (taskGradient network flat) = .ok (tasks.map fun task =>
          (task, taskMeanGradient network flat task.index)) := by
    intro tasks
    apply mapM_eq_ok_map
    intro task _
    rw [taskGradient, PolicyNetwork.subsetGradient_ok hold (valid_of_filter _)]
    rfl
  have hreports : ∀ tasks : List (TaskGroups × E),
      tasks.mapM (taskReport network flat) =
        .ok (tasks.map fun task => ⟨task.1.name, task.1.groups, task.2,
          if setting.includeGroups then
            some (task.1.groups.map (groupMeanGradient network flat))
          else none⟩) := by
    intro tasks
    apply mapM_eq_ok_map
    intro task _
    have hgroup : ∀ groups : List ℤ, groups.mapM (groupGradient network flat) =
          .ok (groups.map (groupMeanGradient network flat)) := by
      intro groups
      apply mapM_eq_ok_map
      intro group _
      exact PolicyNetwork.subsetGradient_ok hold (valid_of_filter _)
    unfold taskReport
    by_cases hinclude : setting.includeGroups = true
    · rw [if_pos hinclude, if_pos hinclude, hgroup]
      rfl
    · rw [if_neg hinclude, if_neg hinclude]
  rw [diagnoseTaskGradients, hcheck]
  show (taskNames.zipIdx.mapM (groupsByTask flat) >>= _) = _
  rw [htasks]
  show (List.mapM (taskGradient network flat) _ >>= _) = _
  rw [hgradients]
  show (List.mapM (taskReport network flat) _ >>= _) = _
  rw [hreports, List.map_map, List.map_map]
  rfl

/-! ### Gram algebra -/

theorem gradientNorm_eq (gradient : E) : gradientNorm gradient = ‖gradient‖ := by
  rw [gradientNorm, gradientMappingDot, real_inner_self_eq_norm_sq,
    max_eq_left (sq_nonneg _), Real.sqrt_sq (norm_nonneg _)]

theorem sqrt_gram (coefficients : TaskReport E → ℝ)
    (tasks : List (TaskReport E)) :
    √(max (tasks.map fun left => (tasks.map fun right =>
        coefficients left * coefficients right *
          gradientMappingDot left.gradient right.gradient).sum).sum 0) =
      ‖combination coefficients TaskReport.gradient tasks‖ := by
  have hgram := ClampedMeans.sum_gram coefficients
    (TaskReport.gradient (E := E)) tasks
  unfold gradientMappingDot
  rw [hgram, max_eq_left (sq_nonneg _), Real.sqrt_sq (norm_nonneg _)]

theorem linearCombinationStats_eq (coefficients : TaskReport E → ℝ)
    (tasks : List (TaskReport E)) :
    gradientMappingLinearCombinationStats tasks coefficients =
      (‖combination coefficients TaskReport.gradient tasks‖,
        tasks.map fun task => (task.name, gradientMappingDot task.gradient
          (combination coefficients TaskReport.gradient tasks))) := by
  apply Prod.ext
  · exact sqrt_gram coefficients tasks
  · apply List.map_congr_left
    intro task _
    exact congrArg (task.name, ·)
      (ClampedMeans.inner_combination coefficients _ _ _).symm

theorem reductionNorm_eq (report : DiagnosticReport E) :
    report.reductionNorm reduction = ‖combination
      (report.reductionCoefficients reduction) TaskReport.gradient
      report.tasks‖ := by
  unfold DiagnosticReport.reductionNorm DiagnosticReport.reductionCoefficients
  by_cases htask : reduction = "task_equal"
  · rw [if_pos htask, if_pos htask]
    exact sqrt_gram _ _
  · rw [if_neg htask, if_neg htask]
    exact sqrt_gram _ _

theorem describesUpdate_of {report : DiagnosticReport E}
    (hmean : ∀ task ∈ report.tasks, ∀ gradients ∈ task.groupGradients,
      task.gradient = (task.groups.length : ℝ)⁻¹ • gradients.sum)
    (hgroups : ∀ task ∈ report.tasks, task.groups ≠ [] ∧
      ∀ gradients ∈ task.groupGradients, gradients.length = task.groups.length)
    (hupdate : combination (report.reductionCoefficients reduction)
      TaskReport.gradient report.tasks = update) :
    DescribesUpdate reduction report update := by
  constructor
  · exact hmean
  · intro task htask value hvalue
    cases hgradients : task.groupGradients with
    | none => simp [TaskReport.coherence, TaskReport.groupNorms, hgradients]
        at hvalue
    | some gradients =>
      obtain ⟨hne, hlength⟩ := hgroups task htask
      have hcount := hlength gradients hgradients
      have hnonempty : gradients ≠ [] := by
        rw [← List.length_pos_iff, hcount]
        exact List.length_pos_of_ne_nil hne
      have hnorms : gradients.map gradientNorm = gradients.map norm :=
        List.map_congr_left fun gradient _ => gradientNorm_eq gradient
      rw [TaskReport.coherence, TaskReport.groupNorms, hgradients,
        Option.map_some, Option.map_some, Option.mem_some_iff, hnorms]
        at hvalue
      rw [← hvalue, TaskReport.norm, gradientNorm_eq,
        hmean task htask gradients hgradients, ← hcount]
      exact ClampedMeans.norm_mean_ratio_le hnonempty (by norm_num)
  · rw [reductionNorm_eq, hupdate]
  · rw [linearCombinationStats_eq, hupdate]

end Report

end VerlVla
