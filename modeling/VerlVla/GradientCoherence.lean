import VerlVla.TaskGradientMeans

/-!
# Task gradients and the update

A task is the mean of its groups unless the weight of a group is below one, and
the combination of the reduction is always the gradient of the update.
-/

namespace VerlVla

open Finset
open ClampedMeans (clampedMean combination)

/-! ## Weights of groups and tasks -/

section Weights

variable {ω X : Type} {records : List (GroupRecord ω)} {groupSize : ℕ}
  {reduction : String} {rows : List (DiagnosticRow X)}

noncomputable def groupWeight (records : List (GroupRecord ω))
    (groupSize : ℕ) (reduction : String) (task : ℕ) : ℝ :=
  if reduction = "task_equal" then
    groupSize / #(taskGroupSet records task)
  else groupSize

noncomputable def taskWeight (records : List (GroupRecord ω))
    (groupSize : ℕ) (reduction : String) (task : ℕ) : ℝ :=
  #(taskGroupSet records task) * groupWeight records groupSize reduction task

theorem one_le_card (htask : task < (sortedTaskNames records).length) :
    (1 : ℝ) ≤ #(taskGroupSet records task) := by
  exact_mod_cast card_pos.mpr (taskGroupSet_nonempty htask)

theorem taskWeight_eq (htask : task < (sortedTaskNames records).length) :
    taskWeight records groupSize reduction task =
      if reduction = "task_equal" then (groupSize : ℝ)
      else #(taskGroupSet records task) * groupSize := by
  have hcard := one_le_card htask
  unfold taskWeight groupWeight
  by_cases hreduction : reduction = "task_equal"
  · rw [if_pos hreduction, if_pos hreduction]
    field_simp
  · rw [if_neg hreduction, if_neg hreduction]

theorem one_le_taskWeight (hgroupSize : 0 < groupSize)
    (htask : task < (sortedTaskNames records).length) :
    1 ≤ taskWeight records groupSize reduction task := by
  have hcard := one_le_card htask
  have hsize : (1 : ℝ) ≤ groupSize := by exact_mod_cast hgroupSize
  rw [taskWeight_eq htask]
  by_cases hreduction : reduction = "task_equal"
  · rw [if_pos hreduction]
    exact hsize
  · rw [if_neg hreduction]
    nlinarith

/-- The weight of a group is clamped exactly if its task has more groups than
a group has trajectories. -/
theorem one_le_groupWeight_iff (hgroupSize : 0 < groupSize)
    (htask : task < (sortedTaskNames records).length) :
    1 ≤ groupWeight records groupSize reduction task ↔
      (reduction = "task_equal" →
        #(taskGroupSet records task) ≤ groupSize) := by
  have hcard := one_le_card htask
  unfold groupWeight
  by_cases hreduction : reduction = "task_equal"
  · rw [if_pos hreduction, one_le_div (by linarith), Nat.cast_le]
    exact ⟨fun hle _ => hle, fun hle => hle hreduction⟩
  · rw [if_neg hreduction]
    constructor
    · intro _ htask
      exact absurd htask hreduction
    · intro _
      exact_mod_cast hgroupSize

theorem sum_zipIdx {M : Type} [AddCommMonoid M] (names : List String)
    (f : ℕ → M) :
    (names.zipIdx.map fun entry => f entry.2).sum =
      ((List.range names.length).map f).sum := by
  have hindices : names.zipIdx.map Prod.snd = List.range names.length := by
    rw [List.zipIdx_map_snd, List.range_eq_range']
  rw [← hindices, List.map_map]
  rfl

namespace GroupedRows

variable (hrows : GroupedRows rows records groupSize reduction)
include hrows

theorem totalWeight_of_mem (htask : task < (sortedTaskNames records).length)
    (hgroup : group ∈ taskGroupSet records task) :
    DiagnosticRow.totalWeight ((rows.filter fun row => row.valid).filter
        fun row => row.groupIndex = (group : ℤ)) =
      groupWeight records groupSize reduction task := by
  obtain ⟨hlt, hindex⟩ := mem_filter.mp hgroup
  rw [mem_range] at hlt
  rw [hrows.totalWeight_group hlt, groupWeight]
  by_cases hreduction : reduction = "task_equal"
  · have hset : ({other ∈ range records.length |
        taskOf records other = taskOf records group} : Finset ℕ) =
          taskGroupSet records task := by
      apply filter_congr
      intro other hother
      rw [taskToIndex_eq_iff (mem_range.mp hother) htask,
        (taskToIndex_eq_iff hlt htask).mp hindex]
    rw [if_pos hreduction, hreduction, scaleList_task hlt, hset]
    push_cast
    ring
  · rw [if_neg hreduction, scaleList_group hlt hreduction]
    push_cast
    ring

section

variable (hgroupSize : 0 < groupSize) {task : ℕ}
  (htask : task < (sortedTaskNames records).length)

include hgroupSize htask

theorem totalWeight_label
    (hlabel : label ∈ groupsOfTask (rows.filter fun row => row.valid) task) :
    DiagnosticRow.totalWeight ((rows.filter fun row => row.valid).filter
        fun row => row.groupIndex = label) =
      groupWeight records groupSize reduction task := by
  obtain ⟨group, hgroup, rfl⟩ := (hrows.mem_groupsOfTask hgroupSize).mp hlabel
  exact hrows.totalWeight_of_mem htask hgroup

theorem totalWeight_task :
    DiagnosticRow.totalWeight ((rows.filter fun row => row.valid).filter
        fun row => row.taskIndex = (task : ℤ)) =
      taskWeight records groupSize reduction task := by
  have hlabels := ClampedMeans.sum_map_const fun label
    (hlabel : label ∈ groupsOfTask (rows.filter fun row => row.valid) task) =>
      hrows.totalWeight_label hgroupSize htask hlabel
  rw [DiagnosticRow.totalWeight, hrows.sum_task hgroupSize, taskWeight,
    ← hrows.length_groupsOfTask hgroupSize]
  exact hlabels

theorem groupsOfTask_ne_nil :
    groupsOfTask (rows.filter fun row => row.valid) task ≠ [] := by
  rw [← List.length_pos_iff, hrows.length_groupsOfTask hgroupSize, card_pos]
  exact taskGroupSet_nonempty htask

end

theorem totalWeight_rows : DiagnosticRow.totalWeight rows =
      ((sortedTaskNames records).zipIdx.map fun entry =>
        DiagnosticRow.totalWeight ((rows.filter fun row => row.valid).filter
          fun row => row.taskIndex = (entry.2 : ℤ))).sum := by
  have hidle := ClampedMeans.sum_filter_support (fun row => row.valid)
    (fun row : DiagnosticRow X => row.weight) hrows.idle
  have htasks := sum_zipIdx (sortedTaskNames records) fun task =>
    DiagnosticRow.totalWeight ((rows.filter fun row => row.valid).filter
      fun row => row.taskIndex = (task : ℤ))
  rw [htasks, DiagnosticRow.totalWeight, ← hidle, hrows.sum_tasks]
  rfl

end GroupedRows

end Weights

/-! ## What the report describes -/

section Description

variable {ω Θ X E : Type} [NormedAddCommGroup E] [InnerProductSpace ℝ E]
  {setting : DiagnosticSetting} {network : PolicyNetwork setting.policy Θ X E}
  {records : List (GroupRecord ω)} {groupSize : ℕ} {reduction : String}
  {rows : List (DiagnosticRow X)}

noncomputable def expectedReport (network : PolicyNetwork setting.policy Θ X E)
    (records : List (GroupRecord ω)) (rows : List (DiagnosticRow X)) :
    DiagnosticReport E :=
  ⟨(sortedTaskNames records).zipIdx.map
    (expectedTask network (rows.filter fun row => row.valid))⟩

theorem mem_zipIdx_lt (hentry : entry ∈ (sortedTaskNames records).zipIdx) :
    entry.2 < (sortedTaskNames records).length :=
  List.snd_lt_of_mem_zipIdx hentry

theorem zipIdx_ne_nil (hrecords : records ≠ []) :
    (sortedTaskNames records).zipIdx ≠ [] := by
  have hlt := taskToIndex_lt (List.length_pos_of_ne_nil hrecords)
  rw [← List.length_pos_iff, List.length_zipIdx]
  omega

namespace GroupedRows

variable (hrows : GroupedRows rows records groupSize reduction)
include hrows

section

variable (hgroupSize : 0 < groupSize)

include hgroupSize

theorem totalGroups_eq :
    (expectedReport network records rows).totalGroups = records.length := by
  have hlengths := sum_zipIdx (sortedTaskNames records) fun task =>
    #(taskGroupSet records task)
  rw [DiagnosticReport.totalGroups, expectedReport, List.map_map]
  simp only [Function.comp_def, expectedTask,
    hrows.length_groupsOfTask hgroupSize]
  rw [hlengths, ← sum_card_taskGroupSet]
  rfl

theorem sum_taskWeights : (((sortedTaskNames records).zipIdx.map fun entry =>
      DiagnosticRow.totalWeight ((rows.filter fun row => row.valid).filter
        fun row => row.taskIndex = (entry.2 : ℤ))).sum) =
      if reduction = "task_equal" then
        (sortedTaskNames records).length * (groupSize : ℝ)
      else records.length * groupSize := by
  have hweights : (sortedTaskNames records).zipIdx.map (fun entry =>
      DiagnosticRow.totalWeight ((rows.filter fun row => row.valid).filter
        fun row => row.taskIndex = (entry.2 : ℤ))) =
      (sortedTaskNames records).zipIdx.map fun entry =>
        if reduction = "task_equal" then (groupSize : ℝ)
        else #(taskGroupSet records entry.2) * groupSize := by
    apply List.map_congr_left
    intro entry hentry
    rw [hrows.totalWeight_task hgroupSize (mem_zipIdx_lt hentry),
      taskWeight_eq (mem_zipIdx_lt hentry)]
  rw [hweights]
  by_cases hreduction : reduction = "task_equal"
  · simp [hreduction]
  · have hcards := sum_zipIdx (sortedTaskNames records) fun task =>
      (#(taskGroupSet records task) : ℝ) * groupSize
    have htotal : (records.length : ℝ) =
        ∑ task ∈ range (sortedTaskNames records).length,
          (#(taskGroupSet records task) : ℝ) := by
      have hsum : ∑ task ∈ range (sortedTaskNames records).length,
          #(taskGroupSet records task) = records.length :=
        sum_card_taskGroupSet
      exact_mod_cast hsum.symm
    simp only [if_neg hreduction]
    rw [hcards, htotal, sum_mul]
    rfl

theorem sum_taskWeights_pos (hrecords : records ≠ []) :
    0 < ((sortedTaskNames records).zipIdx.map fun entry =>
      DiagnosticRow.totalWeight ((rows.filter fun row => row.valid).filter
        fun row => row.taskIndex = (entry.2 : ℤ))).sum := by
  have hsize : (0 : ℝ) < groupSize := by exact_mod_cast hgroupSize
  rw [hrows.sum_taskWeights hgroupSize]
  by_cases hreduction : reduction = "task_equal"
  · have hnames := List.length_pos_of_ne_nil (zipIdx_ne_nil hrecords)
    rw [List.length_zipIdx] at hnames
    rw [if_pos hreduction]
    exact mul_pos (by exact_mod_cast hnames) hsize
  · have hlength := List.length_pos_of_ne_nil hrecords
    rw [if_neg hreduction]
    exact mul_pos (by exact_mod_cast hlength) hsize

theorem reductionCoefficients_eq
    (hentry : entry ∈ (sortedTaskNames records).zipIdx) :
    (expectedReport network records rows).reductionCoefficients reduction
        (expectedTask network (rows.filter fun row => row.valid) entry) =
      DiagnosticRow.totalWeight ((rows.filter fun row => row.valid).filter
          fun row => row.taskIndex = (entry.2 : ℤ)) /
        ((sortedTaskNames records).zipIdx.map fun entry =>
          DiagnosticRow.totalWeight ((rows.filter fun row => row.valid).filter
            fun row => row.taskIndex = (entry.2 : ℤ))).sum := by
  have hsize : (groupSize : ℝ) ≠ 0 := by
    exact_mod_cast hgroupSize.ne'
  rw [hrows.sum_taskWeights hgroupSize,
    hrows.totalWeight_task hgroupSize (mem_zipIdx_lt hentry),
    taskWeight_eq (mem_zipIdx_lt hentry)]
  unfold DiagnosticReport.reductionCoefficients
  by_cases hreduction : reduction = "task_equal"
  · simp only [if_pos hreduction]
    rw [DiagnosticReport.taskEqualCoefficients, expectedReport,
      List.length_map, List.length_zipIdx]
    field_simp
  · simp only [if_neg hreduction]
    rw [DiagnosticReport.currentCoefficients, hrows.totalGroups_eq hgroupSize,
      expectedTask, hrows.length_groupsOfTask hgroupSize]
    field_simp

theorem updateGradient_ok (hrecords : records ≠ []) :
    network.updateGradient rows = .ok (combination
      ((expectedReport network records rows).reductionCoefficients reduction)
      TaskReport.gradient (expectedReport network records rows).tasks) := by
  set flat := rows.filter fun row => row.valid with hflat
  let weight := fun entry : String × ℕ => DiagnosticRow.totalWeight
    (flat.filter fun row => row.taskIndex = (entry.2 : ℤ))
  let vector := fun entry : String × ℕ => network.weightedGradient
    (flat.filter fun row => row.taskIndex = (entry.2 : ℤ))
  have hweight : ∀ entry ∈ (sortedTaskNames records).zipIdx,
      1 ≤ weight entry := by
    intro entry hentry
    have htask := hrows.totalWeight_task hgroupSize (mem_zipIdx_lt hentry)
    show 1 ≤ DiagnosticRow.totalWeight _
    rw [htask]
    exact one_le_taskWeight hgroupSize (mem_zipIdx_lt hentry)
  have hcombination := ClampedMeans.combination_of_clampedMeans
    (fun entry => (expectedReport network records rows).reductionCoefficients
      reduction (expectedTask network flat entry)) vector
    (zipIdx_ne_nil hrecords) hweight fun entry hentry =>
      hrows.reductionCoefficients_eq hgroupSize hentry
  have hvectors : network.weightedGradient flat =
      ((sortedTaskNames records).zipIdx.map vector).sum := by
    have htasks := sum_zipIdx (sortedTaskNames records) fun task =>
      network.weightedGradient
        (flat.filter fun row => row.taskIndex = (task : ℤ))
    rw [htasks, PolicyNetwork.weightedGradient, hrows.sum_tasks]
    rfl
  have hdenominator : distributedGradientMeanDenominator
      [rows.map fun row => row.weight] =
        ((sortedTaskNames records).zipIdx.map weight).sum := by
    rw [← hrows.totalWeight_rows]
    simp [distributedGradientMeanDenominator, DiagnosticRow.totalWeight]
  have hpositive : 0 < distributedGradientMeanDenominator
      [rows.map fun row => row.weight] := by
    rw [hdenominator]
    exact hrows.sum_taskWeights_pos hgroupSize hrecords
  rw [PolicyNetwork.updateGradient, require_of hpositive]
  show Except.ok _ = _
  rw [PolicyNetwork.accumulateGradients_eq, PolicyNetwork.sum_valid,
    hdenominator, hvectors, ← hcombination, expectedReport, combination,
    combination, List.map_map]
  rfl

theorem taskMeanGradient_eq (htask : task < (sortedTaskNames records).length)
    (hone : 1 ≤ groupWeight records groupSize reduction task) :
    taskMeanGradient network (rows.filter fun row => row.valid) task =
      ((groupsOfTask (rows.filter fun row => row.valid) task).length : ℝ)⁻¹ •
        ((groupsOfTask (rows.filter fun row => row.valid) task).map
          (groupMeanGradient network
            (rows.filter fun row => row.valid))).sum := by
  have hparts := ClampedMeans.clampedMean_of_parts
    (hrows.groupsOfTask_ne_nil hgroupSize htask)
    (fun label => network.weightedGradient
      ((rows.filter fun row => row.valid).filter
        fun row => row.groupIndex = label)) hone
    fun label hlabel => hrows.totalWeight_label hgroupSize htask hlabel
  have hweight := hrows.sum_task hgroupSize (fun row => row.weight) task
  have hvector := hrows.sum_task hgroupSize
    (fun row => row.weight • network.rowGradient row) task
  rw [taskMeanGradient, PolicyNetwork.meanGradient,
    DiagnosticRow.totalWeight, PolicyNetwork.weightedGradient, hweight,
    hvector]
  exact hparts

theorem describesUpdate (hone : setting.includeGroups = true →
      ∀ task < (sortedTaskNames records).length,
        1 ≤ groupWeight records groupSize reduction task) :
    DescribesUpdate reduction (expectedReport network records rows)
      (combination ((expectedReport network records
        rows).reductionCoefficients reduction) TaskReport.gradient
          (expectedReport network records rows).tasks) := by
  apply describesUpdate_of _ _ rfl
  · intro task htask gradients hgradients
    obtain ⟨entry, hentry, rfl⟩ := List.mem_map.mp htask
    by_cases hinclude : setting.includeGroups = true
    · rw [expectedTask, if_pos hinclude, Option.mem_some_iff] at hgradients
      rw [← hgradients]
      exact hrows.taskMeanGradient_eq hgroupSize (mem_zipIdx_lt hentry)
        (hone hinclude entry.2 (mem_zipIdx_lt hentry))
    · rw [expectedTask, if_neg hinclude] at hgradients
      cases hgradients
  · intro task htask
    obtain ⟨entry, hentry, rfl⟩ := List.mem_map.mp htask
    constructor
    · exact hrows.groupsOfTask_ne_nil hgroupSize (mem_zipIdx_lt hentry)
    · intro gradients hgradients
      by_cases hinclude : setting.includeGroups = true
      · rw [expectedTask, if_pos hinclude, Option.mem_some_iff] at hgradients
        rw [← hgradients, List.length_map]
        rfl
      · rw [expectedTask, if_neg hinclude] at hgradients
        cases hgradients

end

end GroupedRows

end Description

/-! ## Rows with one gradient -/

section Uniform

variable {ω X : Type} {setting : DiagnosticSetting}
  {records : List (GroupRecord ω)} {groupSize : ℕ} {reduction : String}

noncomputable def uniformNetwork (setting : DiagnosticSetting) :
    PolicyNetwork setting.policy Bool Unit ℝ where
  thetaOld := false
  logRatio moved _ :=
    setting.policy.variant.constLogRatio (if moved then 1 else 0)
  gradient := difference ℝ

noncomputable def uniformRow (slot : LabelledSlot ℚ) : DiagnosticRow Unit where
  toLabelledSlot := slot.toReal
  advantage := -1
  contents := ()

noncomputable def uniformBatch (data : DataProto ω) :
    PreparedBatch data Unit where
  rows := data.labelledSlots.map uniformRow
  slots := by
    rw [List.map_map]
    rfl

theorem uniformNetwork_atThetaOld :
    (uniformNetwork setting).AtThetaOld := fun _ => rfl

noncomputable def uniformGradient (setting : DiagnosticSetting) : ℝ :=
  setting.policy.surrogate Real.exp
      ⟨⟨true, 0⟩, -1, setting.policy.variant.constLogRatio 1⟩ -
    setting.policy.surrogate Real.exp
      ⟨⟨true, 0⟩, -1, setting.policy.variant.constLogRatio 0⟩

theorem one_le_uniformGradient : 1 ≤ uniformGradient setting := by
  have hold := (surrogate_losing setting.policy Real.exp_zero.ge
    ⟨true, 0⟩).2 Real.exp_zero
  have hgrows := Real.add_one_le_exp 1
  have hone : (1 : ℝ) ≤ Real.exp 1 := by linarith
  have hmoved := (surrogate_losing setting.policy hone ⟨true, 0⟩).1
  rw [uniformGradient, hold]
  linarith

theorem uniform_rowGradient (slot : LabelledSlot ℚ) :
    (uniformNetwork setting).rowGradient (uniformRow slot) =
      uniformGradient setting := by
  have hvalue : ∀ moved : Bool, setting.policy.surrogate Real.exp
      ((uniformNetwork setting).surrogateRow moved (uniformRow slot)) =
        setting.policy.surrogate Real.exp ⟨⟨true, 0⟩, -1,
          setting.policy.variant.constLogRatio (if moved then 1 else 0)⟩ :=
    fun moved => surrogate_slot ..
  rw [PolicyNetwork.rowGradient, funext hvalue]
  rfl

theorem uniform_meanGradient
    (hrows : ∀ row ∈ rows, ∃ slot, row = uniformRow slot) :
    (uniformNetwork setting).meanGradient rows =
      (max (DiagnosticRow.totalWeight rows) 1)⁻¹ *
        (DiagnosticRow.totalWeight rows * uniformGradient setting) := by
  have hterms : rows.map (fun row => row.weight •
      (uniformNetwork setting).rowGradient row) =
        rows.map fun row => row.weight * uniformGradient setting := by
    apply List.map_congr_left
    intro row hrow
    obtain ⟨slot, rfl⟩ := hrows row hrow
    rw [uniform_rowGradient, smul_eq_mul]
  rw [PolicyNetwork.meanGradient, PolicyNetwork.weightedGradient, hterms,
    List.sum_map_mul_right, clampedMean, smul_eq_mul]
  rfl

namespace GroupedRows

variable {rows : List (DiagnosticRow Unit)}
  (hrows : GroupedRows rows records groupSize reduction)
  (huniform : ∀ row ∈ rows, ∃ slot, row = uniformRow slot)
include hrows huniform

section

variable (hgroupSize : 0 < groupSize) {task : ℕ}
  (htask : task < (sortedTaskNames records).length)

include hgroupSize htask

theorem uniform_task : taskMeanGradient (uniformNetwork setting)
      (rows.filter fun row => row.valid) task = uniformGradient setting := by
  have hweight := hrows.totalWeight_task hgroupSize htask
  have hone : 1 ≤ taskWeight records groupSize reduction task :=
    one_le_taskWeight hgroupSize htask
  have hne : taskWeight records groupSize reduction task ≠ 0 := by linarith
  rw [taskMeanGradient, uniform_meanGradient, hweight, max_eq_left hone]
  · field_simp
  · intro row hrow
    exact huniform row (List.mem_of_mem_filter (List.mem_of_mem_filter hrow))

theorem uniform_group
    (hclamped : groupWeight records groupSize reduction task ≤ 1)
    (hlabel : label ∈ groupsOfTask (rows.filter fun row => row.valid) task) :
    groupMeanGradient (uniformNetwork setting)
        (rows.filter fun row => row.valid) label =
      groupWeight records groupSize reduction task *
        uniformGradient setting := by
  have hweight := hrows.totalWeight_label hgroupSize htask hlabel
  rw [groupMeanGradient, uniform_meanGradient, hweight,
    max_eq_right hclamped, inv_one, one_mul]
  intro row hrow
  exact huniform row (List.mem_of_mem_filter (List.mem_of_mem_filter hrow))

theorem one_le_of_mean (hmean : taskMeanGradient (uniformNetwork setting)
        (rows.filter fun row => row.valid) task =
      ((groupsOfTask (rows.filter fun row => row.valid) task).length : ℝ)⁻¹ •
        ((groupsOfTask (rows.filter fun row => row.valid) task).map
          (groupMeanGradient (uniformNetwork setting)
            (rows.filter fun row => row.valid))).sum) :
    1 ≤ groupWeight records groupSize reduction task := by
  by_contra hclamped
  have hlt := not_le.mp hclamped
  have hvalues : ∀ label ∈ groupsOfTask (rows.filter fun row => row.valid)
      task, groupMeanGradient (uniformNetwork setting)
        (rows.filter fun row => row.valid) label =
          groupWeight records groupSize reduction task *
            uniformGradient setting := fun label hlabel =>
    hrows.uniform_group huniform hgroupSize htask hlt.le hlabel
  have hgroups := ClampedMeans.sum_map_const hvalues
  have hlength : ((groupsOfTask (rows.filter fun row => row.valid)
      task).length : ℝ) ≠ 0 := by
    have hpositive := List.length_pos_of_ne_nil
      (hrows.groupsOfTask_ne_nil hgroupSize htask)
    exact_mod_cast hpositive.ne'
  have hpositive : 1 ≤ uniformGradient setting := one_le_uniformGradient
  rw [hrows.uniform_task huniform hgroupSize htask, hgroups, smul_eq_mul,
    inv_mul_cancel_left₀ hlength] at hmean
  nlinarith

end

theorem uniform_coherence (hgroupSize : 0 < groupSize)
    (hinclude : setting.includeGroups = true)
    (htask : entry.2 < (sortedTaskNames records).length)
    (hclamped : groupWeight records groupSize reduction entry.2 ≤ 1) :
    (expectedTask (uniformNetwork setting)
        (rows.filter fun row => row.valid) entry).coherence =
      some (1 / groupWeight records groupSize reduction entry.2) := by
  have hgradient : 1 ≤ uniformGradient setting := one_le_uniformGradient
  have hweight : 1 ≤ taskWeight records groupSize reduction entry.2 :=
    one_le_taskWeight hgroupSize htask
  have hcard := one_le_card htask
  have hpositive : 0 < groupWeight records groupSize reduction entry.2 := by
    unfold taskWeight at hweight
    by_contra hnot
    nlinarith
  have hnorms := ClampedMeans.sum_map_const fun label
    (hlabel : label ∈ groupsOfTask (rows.filter fun row => row.valid)
      entry.2) => show gradientNorm (groupMeanGradient (uniformNetwork setting)
        (rows.filter fun row => row.valid) label) =
      groupWeight records groupSize reduction entry.2 *
        uniformGradient setting by
    rw [hrows.uniform_group huniform hgroupSize htask hclamped hlabel,
      gradientNorm_eq, Real.norm_eq_abs, abs_of_nonneg (by positivity)]
  have hfloor : (1 : ℝ) / 10 ^ 30 ≤ #(taskGroupSet records entry.2) *
      (groupWeight records groupSize reduction entry.2 *
        uniformGradient setting) := by
    unfold taskWeight at hweight
    have hsmall : (1 : ℝ) / 10 ^ 30 ≤ 1 := by norm_num
    nlinarith
  rw [hrows.length_groupsOfTask hgroupSize] at hnorms
  rw [TaskReport.coherence, TaskReport.groupNorms, expectedTask,
    if_pos hinclude, Option.map_some, Option.map_some, List.map_map,
    Option.some.injEq, TaskReport.norm, gradientNorm_eq,
    hrows.uniform_task huniform hgroupSize htask, Real.norm_eq_abs,
    abs_of_nonneg (by linarith), hrows.length_groupsOfTask hgroupSize]
  have hsum : (List.map (gradientNorm ∘ groupMeanGradient
      (uniformNetwork setting) (rows.filter fun row => row.valid))
        (groupsOfTask (rows.filter fun row => row.valid) entry.2)).sum =
      #(taskGroupSet records entry.2) *
        (groupWeight records groupSize reduction entry.2 *
          uniformGradient setting) := hnorms
  rw [hsum, max_eq_left hfloor]
  field_simp

end GroupedRows

theorem uniformBatch_rows (data : DataProto ω) :
    ∀ row ∈ (uniformBatch data).rows, ∃ slot, row = uniformRow slot := by
  intro row hrow
  obtain ⟨slot, _, rfl⟩ := List.mem_map.mp hrow
  exact ⟨slot, rfl⟩

end Uniform

/-! ## When the diagnostics describe the update -/

section Result

variable {ω : Type} {records : List (GroupRecord ω)} {groupSize : ℕ}
  {reduction : String}

theorem groupWeights_iff (hgroupSize : 0 < groupSize) :
    (∀ task < (sortedTaskNames records).length,
      1 ≤ groupWeight records groupSize reduction task) ↔
      (reduction = "task_equal" → ∀ taskName ∈ records.map GroupRecord.name,
          (records.map GroupRecord.name).count taskName ≤ groupSize) := by
  constructor
  · intro hone hreduction taskName hname
    have hmem : taskName ∈ sortedTaskNames records := by
      rw [sortedTaskNames, mem_sort, List.mem_toFinset]
      exact hname
    obtain ⟨task, htask, rfl⟩ := List.getElem_of_mem hmem
    rw [← card_taskGroupSet htask]
    exact (one_le_groupWeight_iff hgroupSize htask).mp (hone task htask)
      hreduction
  · intro hcounts task htask
    rw [one_le_groupWeight_iff hgroupSize htask, card_taskGroupSet htask]
    intro hreduction
    apply hcounts hreduction
    have hmem : (sortedTaskNames records)[task] ∈
        (records.map GroupRecord.name).toFinset.sort (· ≤ ·) :=
      List.getElem_mem htask
    rw [mem_sort, List.mem_toFinset] at hmem
    exact hmem

variable {numSteps divisor dummies : ℕ} {valids : Tensor ℚ}
  {labelled compact : DataProto ω}

theorem LoadedInput.checkDiagnosticInput_ok
    (hloaded : LoadedInput records groupSize reduction numSteps divisor valids
      labelled compact dummies) (hcritic : setting.criticEnabled = false) :
    checkDiagnosticInput setting 1 compact (sortedTaskNames records) =
      .ok () := by
  have hweighted := hloaded.batch.weighted
  have hpresent : ∀ keys : List String,
      (∀ key ∈ keys, (labelled.batch.lookup key).isSome) →
        missingKeys compact keys = [] := by
    intro keys hkeys
    apply List.filter_eq_nil_iff.mpr
    intro key hkey
    obtain ⟨tensor, htensor⟩ := hloaded.present (hkeys key hkey)
    rw [htensor]
    exact Bool.false_ne_true
  have hrequired : missingKeys compact requiredKeys = [] := by
    apply hpresent
    intro key hkey
    simp only [requiredKeys, List.mem_cons, List.not_mem_nil, or_false] at hkey
    rcases hkey with rfl | rfl | rfl | rfl
    · exact hweighted.advantages
    · simp [hloaded.batch.group]
    · simp [hweighted.weights_lookup]
    · simp [hloaded.batch.task]
  have hvalids : missingKeys compact ["info.valids"] = [] := by
    apply hpresent
    simp [hweighted.valids_lookup]
  have hnames : sortedTaskNames records ≠ [] := by
    intro hnil
    apply zipIdx_ne_nil hloaded.records_ne
    rw [hnil]
    rfl
  simp only [checkDiagnosticInput, bind_eq_ok, require_eq_ok]
  exact ⟨(), trivial, (), hcritic, (), hrequired, (), hnames, hvalids⟩

theorem LoadedInput.report_ok {data : DataProto ω}
    (hloaded : LoadedInput records groupSize reduction numSteps divisor valids
      labelled compact dummies) (hgroupSize : 0 < groupSize)
    (hinput : AcceptedInput data (records.length * groupSize) numSteps valids)
    {setting : DiagnosticSetting} (hcritic : setting.criticEnabled = false)
    {Θ X E : Type} [NormedAddCommGroup E] [InnerProductSpace ℝ E]
    {network : PolicyNetwork setting.policy Θ X E}
    (hold : network.AtThetaOld) (batch : PreparedBatch compact X) :
    diagnoseTaskGradients network 1 (sortedTaskNames records) batch =
      .ok (expectedReport network records batch.rows) := by
  have hrows := hloaded.groupedRows hinput batch
  apply diagnoseTaskGradients_ok batch hold
    (hloaded.checkDiagnosticInput_ok hcritic)
  intro entry hentry
  exact hrows.groupsOfTask_ne_nil hgroupSize (mem_zipIdx_lt hentry)

variable [Inhabited ω] [DecidableEq ω] {library : TrainingLibrary ω}
  {data : DataProto ω} {rewardSource : String}

/-- The diagnostics describe the gradient of the update exactly if no group
that is compared with its task has a weight below one. -/
theorem diagnostics_describe_update_iff (hlibrary : library.Documented)
    (setting : DiagnosticSetting) (hcritic : setting.criticEnabled = false)
    (hgroupSize : 0 < groupSize)
    (hinput : AcceptedInput data (records.length * groupSize) numSteps valids)
    (hload : loadActorInput library data records groupSize rewardSource
      reduction 1 setting.microBatchSize = .ok compact) :
    DiagnosticsDescribeUpdate setting reduction compact
        (sortedTaskNames records) ↔
      (setting.includeGroups = true → reduction = "task_equal" →
        ∀ taskName ∈ records.map GroupRecord.name,
          (records.map GroupRecord.name).count taskName ≤ groupSize) := by
  obtain ⟨labelled, dummies, hloaded⟩ := loadActorInput_ok hlibrary hgroupSize
    hinput one_pos setting.micro_pos hload
  constructor
  · intro hdescribes hinclude
    apply (groupWeights_iff hgroupSize).mp
    intro task htask
    have hrows := hloaded.groupedRows hinput (uniformBatch compact)
    have hreport := hloaded.report_ok hgroupSize hinput hcritic
      uniformNetwork_atThetaOld (uniformBatch compact)
    obtain ⟨report, update, hdiagnosed, _, hdescribed⟩ := hdescribes _ _ _
      (uniformNetwork setting) (uniformBatch compact) uniformNetwork_atThetaOld
    rw [hreport] at hdiagnosed
    cases hdiagnosed
    have hentry : ((sortedTaskNames records)[task], task) ∈
        (sortedTaskNames records).zipIdx := by
      rw [List.mem_zipIdx_iff_getElem?]
      exact List.getElem?_eq_getElem htask
    have hmean := hdescribed.mean _ (List.mem_map_of_mem hentry)
    rw [expectedTask, if_pos hinclude] at hmean
    exact hrows.one_le_of_mean (uniformBatch_rows compact) hgroupSize htask
      (hmean _ rfl)
  · intro hcounts Θ X E _ _ network batch hold
    have hrows := hloaded.groupedRows hinput batch
    refine ⟨expectedReport network records batch.rows, _,
      hloaded.report_ok hgroupSize hinput hcritic hold batch,
      hrows.updateGradient_ok hgroupSize hloaded.records_ne, ?_⟩
    apply hrows.describesUpdate hgroupSize
    intro hinclude
    exact (groupWeights_iff hgroupSize).mpr (hcounts hinclude)

end Result

/-! ## Three groups of one task -/

noncomputable def vanillaDiagnostics : DiagnosticSetting where
  policy :=
    { variant := .vanilla
      samples := 1
      clipCoef := 1 / 5
      spoClipCoef := 1 / 5
      samples_pos := Nat.one_pos
      clip_pos := by norm_num
      clip_lt_one := by norm_num
      spo_pos := by norm_num }
  criticEnabled := false
  microBatchSize := 4
  diagnosticAtol := FpoSetting.identityAtol
  includeGroups := true
  micro_pos := by norm_num
  atol_le := le_refl FpoSetting.identityAtol

theorem diagnostics_describe_update_iff_two_tasks :
    ∃ compact, loadActorInput (rowLibrary String) twoTaskInput twoTaskRecords
        3 "process_score" "task_equal" 1 4 = .ok compact ∧
      DiagnosticsDescribeUpdate vanillaDiagnostics "task_equal" compact
        (sortedTaskNames twoTaskRecords) := by
  obtain ⟨outcome, houtcome⟩ := exists_eq_ok twoTask_accepted
  obtain ⟨compact, hload⟩ := loadActorInput_total
    RowLibrary.rowLibrary_documented (by decide) twoTask_input
    (by decide : 0 < 1) (by decide : 0 < 4) houtcome (by decide)
  refine ⟨compact, hload, ?_⟩
  exact (diagnostics_describe_update_iff RowLibrary.rowLibrary_documented
    vanillaDiagnostics rfl (by decide) twoTask_input hload).mpr
      fun _ _ => by decide

def oneTaskRecords : List (GroupRecord String) :=
  ["window-0", "window-1", "window-2"].map fun groupId =>
    { groupId := groupId
      groupKey := none
      rolloutPolicyVersion := 4
      rewardVector := some [0, 1]
      mixed := true
      taskName := some "fold"
      successes := some 1
      partialOnlyCount := some 0
      informativeReason := none }

def oneTaskInput : DataProto String where
  batch := (∅ : Dict (Tensor ℚ))
    |>.insert "action.action" (.cube 6 2 1 fun b s _ => b + s)
    |>.insert "info.valids" twoTaskValids
    |>.insert "info.action_valids" (.cube 6 2 1 fun b s _ =>
      twoTaskValids.entry [b, s])
    |>.insert "info.trajectory_process_score" (.vector 6 fun b =>
      (b % 2 : ℕ))
  nonTensorBatch := (∅ : Dict (Tensor String))
    |>.insert "obs.group_id" (.matrix 6 2 fun b _ =>
      s!"window-{b / 2}")
  metaInfo := ∅

theorem oneTask_accepted :
    (outcomeAdvantages (rowLibrary String) oneTaskInput none
      (some oneTaskRecords) 2 "process_score" "task_equal").isOk := by
  decide +kernel

theorem oneTask_input : AcceptedInput oneTaskInput 6 2 twoTaskValids where
  shaped := ⟨Dict.forall_lookup (by decide), Dict.forall_lookup (by decide)⟩
  action := ⟨.cube 6 2 1 fun b s _ => b + s, rfl, rfl⟩
  valids_lookup := rfl
  valids_shape := rfl
  mask := by decide +kernel
  each_valid := by decide +kernel
  actionValids := rfl

theorem oneTask_groupWeight
    (htask : task < (sortedTaskNames oneTaskRecords).length) :
    groupWeight oneTaskRecords 2 "task_equal" task = 2 / 3 := by
  have hname : ∀ name ∈ oneTaskRecords.map GroupRecord.name,
      (oneTaskRecords.map GroupRecord.name).count name = 3 := by decide
  have hmem : (sortedTaskNames oneTaskRecords)[task] ∈
      (oneTaskRecords.map GroupRecord.name).toFinset.sort (· ≤ ·) :=
    List.getElem_mem htask
  rw [mem_sort, List.mem_toFinset] at hmem
  rw [groupWeight, if_pos rfl, card_taskGroupSet htask, hname _ hmem]
  norm_num

/-- The task would be more coherent than equal gradients of its groups. -/
theorem task_more_coherent_than_groups :
    ∃ compact report, loadActorInput (rowLibrary String) oneTaskInput
        oneTaskRecords 2 "process_score" "task_equal" 1 4 = .ok compact ∧
      (uniformNetwork vanillaDiagnostics).AtThetaOld ∧
      diagnoseTaskGradients (uniformNetwork vanillaDiagnostics) 1
        (sortedTaskNames oneTaskRecords) (uniformBatch compact) =
          .ok report ∧
      ∃ task ∈ report.tasks, task.coherence = some (3 / 2) := by
  obtain ⟨outcome, houtcome⟩ := exists_eq_ok oneTask_accepted
  obtain ⟨compact, hload⟩ := loadActorInput_total
    RowLibrary.rowLibrary_documented (by decide) oneTask_input
    (by decide : 0 < 1) (by decide : 0 < 4) houtcome (by decide)
  obtain ⟨labelled, dummies, hloaded⟩ := loadActorInput_ok
    RowLibrary.rowLibrary_documented (by decide) oneTask_input
    (by decide : 0 < 1) (by decide : 0 < 4) hload
  have hrows := hloaded.groupedRows oneTask_input (uniformBatch compact)
  have htask : taskToIndex oneTaskRecords 0 <
      (sortedTaskNames oneTaskRecords).length := taskToIndex_lt (by decide)
  have hweight := oneTask_groupWeight htask
  have hentry : ((sortedTaskNames oneTaskRecords)[taskToIndex
      oneTaskRecords 0], taskToIndex oneTaskRecords 0) ∈
        (sortedTaskNames oneTaskRecords).zipIdx := by
    rw [List.mem_zipIdx_iff_getElem?]
    exact List.getElem?_eq_getElem htask
  have hcoherence := hrows.uniform_coherence (uniformBatch_rows compact)
    (by decide) (rfl : vanillaDiagnostics.includeGroups = true)
    (mem_zipIdx_lt hentry) (by rw [hweight]; norm_num)
  refine ⟨compact, _, hload, uniformNetwork_atThetaOld,
    hloaded.report_ok (by decide) oneTask_input rfl uniformNetwork_atThetaOld
      (uniformBatch compact), _, List.mem_map_of_mem hentry, ?_⟩
  rw [hcoherence, hweight]
  norm_num

end VerlVla
