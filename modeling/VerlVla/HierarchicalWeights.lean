import VerlVla.ChunkCompaction
import VerlVla.GrpoAdvantages
import VerlVla.RowLibrary

/-!
# The objective of the compacted batch

Summed over the rows that training replays, the loss weights form a mean over
the valid chunks of a trajectory inside a mean over the trajectories of a
group, taken over the groups or over the groups of every task.
-/

namespace VerlVla

open Finset NestedMeans

variable {ω : Type}

structure AcceptedInput (data : DataProto ω) (trajectories numSteps : ℕ)
    (valids : Tensor ℚ) : Prop where
  shaped : data.TrajectoryShaped trajectories numSteps
  action : ∃ action, data.batch.lookup "action.action" = some action ∧
    action.shape.take 2 = [trajectories, numSteps]
  valids_lookup : data.batch.lookup "info.valids" = some valids
  valids_shape : valids.shape = [trajectories, numSteps]
  mask : ∀ b < trajectories, ∀ s < numSteps,
    valids.entry [b, s] = 0 ∨ valids.entry [b, s] = 1
  each_valid : ∀ b < trajectories, ∃ s < numSteps, valids.entry [b, s] ≠ 0
  actionValids : (data.batch.lookup "info.action_valids").isSome

def validSteps (valids : Tensor ℚ) (trajectory : ℕ) : Finset ℕ :=
  {step ∈ range valids.steps | valids.entry [trajectory, step] ≠ 0}

/-! ## The weights of one trajectory -/

section Trajectory

variable {data : DataProto ω} {trajectories numSteps b : ℕ}
  {valids : Tensor ℚ}

theorem AcceptedInput.rows_steps
    (hinput : AcceptedInput data trajectories numSteps valids) :
    valids.rows = trajectories ∧ valids.steps = numSteps := by
  simp [Tensor.rows, Tensor.steps, hinput.valids_shape]

section

variable (hinput : AcceptedInput data trajectories numSteps valids)
  (hb : b < trajectories)

include hinput hb

theorem AcceptedInput.mask_step (hstep : step ∈ range valids.steps) :
    valids.entry [b, step] = 0 ∨ valids.entry [b, step] = 1 := by
  rw [hinput.rows_steps.2, mem_range] at hstep
  exact hinput.mask b hb step hstep

theorem validChunks_eq_card :
    validChunks valids b = #(validSteps valids b) := by
  rw [validChunks, validSteps, card_filter, Nat.cast_sum]
  apply sum_congr rfl
  intro step hstep
  rcases hinput.mask_step hb hstep with hzero | hone
  · simp [hzero]
  · simp [hone]

theorem card_validSteps_pos : 0 < #(validSteps valids b) := by
  obtain ⟨step, hstep, hvalid⟩ := hinput.each_valid b hb
  apply card_pos.mpr
  refine ⟨step, ?_⟩
  rw [validSteps, mem_filter, mem_range, hinput.rows_steps.2]
  exact ⟨hstep, hvalid⟩

theorem sum_lossWeight_mul (scales : List ℚ) (groupSize : ℕ) (f : ℕ → ℚ) :
    ∑ step ∈ range valids.steps,
        lossWeight valids scales groupSize b step * f step =
      scales.getD (b / groupSize) 0 * (validSteps valids b).expect f := by
  have hblock := sum_scaled_blocks {b} (validSteps valids)
    (fun i => scales.getD (i / groupSize) 0) (fun _ => f)
  simp only [sum_singleton] at hblock
  rw [← hblock, validSteps, sum_filter]
  apply sum_congr rfl
  intro step hstep
  rw [lossWeight, trajectoryBalancedWeight, validChunks_eq_card hinput hb]
  rcases hinput.mask_step hb hstep with hzero | hone
  · simp [hzero]
  · simp [hone, validSteps]

theorem sum_lossWeight (scales : List ℚ) (groupSize : ℕ) :
    ∑ step ∈ range valids.steps, lossWeight valids scales groupSize b step =
      scales.getD (b / groupSize) 0 := by
  have hsum := sum_lossWeight_mul hinput hb scales groupSize fun _ => 1
  have hnonempty : (validSteps valids b).Nonempty :=
    card_pos.mp (card_validSteps_pos hinput hb)
  simpa [expect_const hnonempty] using hsum

theorem sum_trajectoryBalancedWeight :
    ∑ step ∈ range valids.steps, trajectoryBalancedWeight valids b step =
      1 := by
  have hcard : validChunks valids b ≠ 0 := by
    rw [validChunks_eq_card hinput hb]
    exact_mod_cast (card_validSteps_pos hinput hb).ne'
  simp only [trajectoryBalancedWeight]
  rw [← sum_div]
  exact div_self hcard

theorem lossWeight_pos (hscale : 0 < scales.getD (b / groupSize) 0)
    (hvalid : valids.entry [b, step] = 1) :
    0 < lossWeight valids scales groupSize b step := by
  rw [lossWeight, trajectoryBalancedWeight, validChunks_eq_card hinput hb,
    hvalid]
  have hcard : (0 : ℚ) < #(validSteps valids b) := by
    exact_mod_cast card_validSteps_pos hinput hb
  exact mul_pos (div_pos one_pos hcard) hscale

end

theorem lossWeight_zero (hvalid : valids.entry [b, step] = 0) :
    lossWeight valids scales groupSize b step = 0 := by
  simp [lossWeight, trajectoryBalancedWeight, hvalid]

end Trajectory

/-! ## The scales of the groups -/

def taskOf (records : List (GroupRecord ω)) (group : ℕ) : String :=
  (records.map (·.taskName.getD "")).getD group ""

def scaleList (records : List (GroupRecord ω))
    (acceptedGroupReduction : String) : List ℚ :=
  if acceptedGroupReduction = "task_equal" then
    let taskNames := records.map (·.taskName.getD "")
    taskNames.map fun taskName => 1 / taskNames.count taskName
  else records.map fun _ => 1

section Scales

variable {records : List (GroupRecord ω)} {reduction : String}

theorem groupScales_ok (htask : reduction = "task_equal" →
      ∀ record ∈ records, record.taskName.getD "" ≠ "") :
    groupScales records reduction = .ok (scaleList records reduction) := by
  unfold groupScales scaleList
  split_ifs with hreduction
  · rw [require_of (htask hreduction)]
    rfl
  · rfl

theorem count_taskNames (group : ℕ) :
    (records.map (·.taskName.getD "")).count (taskOf records group) =
      #{other ∈ range records.length |
        taskOf records other = taskOf records group} := by
  rw [count_eq_card _ _ "", List.length_map]
  rfl

section

variable {group : ℕ} (hgroup : group < records.length)

include hgroup

theorem scaleList_task : (scaleList records "task_equal").getD group 0 =
      1 / #{other ∈ range records.length |
        taskOf records other = taskOf records group} := by
  rw [← count_taskNames]
  simp [scaleList, taskOf, List.getD_eq_getElem?_getD, hgroup]

theorem scaleList_group (hreduction : reduction ≠ "task_equal") :
    (scaleList records reduction).getD group 0 = 1 := by
  simp [scaleList, hreduction, List.getD_eq_getElem?_getD, hgroup]

theorem scaleList_pos : 0 < (scaleList records reduction).getD group 0 := by
  by_cases hreduction : reduction = "task_equal"
  · subst hreduction
    rw [scaleList_task hgroup]
    have hmem : group ∈ ({other ∈ range records.length |
        taskOf records other = taskOf records group} : Finset ℕ) := by
      simp [hgroup]
    have hcard : (0 : ℚ) < #{other ∈ range records.length |
        taskOf records other = taskOf records group} := by
      exact_mod_cast card_pos.mpr ⟨group, hmem⟩
    exact one_div_pos.mpr hcard
  · rw [scaleList_group hgroup hreduction]
    exact one_pos

end

end Scales

/-! ## The checks on the weights -/

theorem isclose_self (value : ℚ) (hatol : 0 ≤ atol) (hrtol : 0 ≤ rtol) :
    isclose value value atol rtol := by
  rw [isclose, sub_self, abs_zero]
  exact add_nonneg hatol (mul_nonneg hrtol (abs_nonneg value))

theorem defaultRtol_nonneg : 0 ≤ defaultRtol := by
  norm_num [defaultRtol]

theorem forM_ok {ε α : Type} {items : List α} {f : α → Except ε Unit}
    (hf : ∀ item ∈ items, f item = .ok ()) : items.forM f = .ok () := by
  induction items with
  | nil => rfl
  | cons item items ih =>
    have hitem := hf item List.mem_cons_self
    show (f item >>= fun _ => items.forM f) = .ok ()
    rw [hitem]
    exact ih fun other hother => hf other (List.mem_cons_of_mem item hother)

section Groups

variable {data : DataProto ω} {records : List (GroupRecord ω)}
  {groupSize numSteps : ℕ} {reduction : String} {valids : Tensor ℚ}

section

variable
  (hinput : AcceptedInput data (records.length * groupSize) numSteps valids)

include hinput

theorem groupWeightSum_eq (hgroup : group < records.length) (scales : List ℚ) :
    groupWeightSum valids scales groupSize group =
      scales.getD group 0 * groupSize := by
  have htrajectory : ∀ i ∈ range groupSize, ∑ step ∈ range valids.steps,
        lossWeight valids scales groupSize (group * groupSize + i) step =
          scales.getD group 0 := by
    intro i hi
    have hlt := mem_range.mp hi
    rw [sum_lossWeight hinput (slot_lt hgroup hlt),
      (Tensor.add_mul_div_mod hlt group).1]
  rw [groupWeightSum, sum_congr rfl htrajectory]
  simp [mul_comm]

theorem taskWeightSum_eq (htask : taskName ∈ records.map (·.taskName.getD "")) :
    taskWeightSum records valids (scaleList records "task_equal") groupSize
      taskName = groupSize := by
  obtain ⟨group, hgroup, hname⟩ := List.getElem_of_mem htask
  rw [List.length_map] at hgroup
  have hlabel : taskOf records group = taskName := by
    simp [taskOf, List.getD_eq_getElem?_getD, hgroup, ← hname]
  have hmembers : ∀ other ∈ ({other ∈ range records.length |
      taskOf records other = taskName} : Finset ℕ),
      groupWeightSum valids (scaleList records "task_equal") groupSize other =
        1 / #{other ∈ range records.length |
          taskOf records other = taskName} * groupSize := by
    intro other hother
    obtain ⟨hlt, hother⟩ := mem_filter.mp hother
    rw [mem_range] at hlt
    rw [groupWeightSum_eq hinput hlt, scaleList_task hlt, hother]
  have hcard : (#{other ∈ range records.length |
      taskOf records other = taskName} : ℚ) ≠ 0 := by
    have hmem : group ∈ ({other ∈ range records.length |
        taskOf records other = taskName} : Finset ℕ) := by
      simp [hgroup, hlabel]
    exact_mod_cast (card_pos.mpr ⟨group, hmem⟩).ne'
  calc taskWeightSum records valids (scaleList records "task_equal") groupSize
        taskName
      = ∑ other ∈ range records.length with taskOf records other = taskName,
          groupWeightSum valids (scaleList records "task_equal") groupSize
            other := rfl
    _ = groupSize := by
        rw [sum_congr rfl hmembers, sum_const, nsmul_eq_mul]
        field_simp

theorem hierarchicalWeights_ok (htask : reduction = "task_equal" →
      ∀ record ∈ records, record.taskName.getD "" ≠ "") :
    hierarchicalWeights data records groupSize reduction =
      .ok (valids, .matrix valids.rows valids.steps
        (lossWeight valids (scaleList records reduction) groupSize)) := by
  have hchunks : ∀ trajectory ∈ List.range valids.rows,
      0 < validChunks valids trajectory := by
    intro trajectory htrajectory
    rw [hinput.rows_steps.1, List.mem_range] at htrajectory
    rw [validChunks_eq_card hinput htrajectory]
    exact_mod_cast card_validSteps_pos hinput htrajectory
  have hbalanced : ∀ trajectory ∈ List.range valids.rows,
      isclose (∑ step ∈ range valids.steps,
        trajectoryBalancedWeight valids trajectory step) 1
        (1 / 1000000) defaultRtol := by
    intro trajectory htrajectory
    rw [hinput.rows_steps.1, List.mem_range] at htrajectory
    rw [sum_trajectoryBalancedWeight hinput htrajectory]
    exact isclose_self 1 (by norm_num) defaultRtol_nonneg
  have hgroups : ∀ group ∈ List.range records.length,
      isclose (groupWeightSum valids (scaleList records reduction) groupSize
        group) ((scaleList records reduction).getD group 0 * groupSize)
        (1 / 1000000) defaultRtol := by
    intro group hgroup
    rw [groupWeightSum_eq hinput (List.mem_range.mp hgroup)]
    exact isclose_self _ (by norm_num) defaultRtol_nonneg
  have htasks : (taskGroupCounts records reduction).forM
      (checkTaskWeight records valids (scaleList records reduction)
        groupSize) = .ok () := by
    apply forM_ok
    intro task hmem
    unfold taskGroupCounts at hmem
    split_ifs at hmem with hreduction
    · obtain ⟨taskName, hname, rfl⟩ := List.mem_map.mp hmem
      have hweight := taskWeightSum_eq hinput (List.mem_eraseDups.mp hname)
      subst hreduction
      unfold checkTaskWeight
      apply require_of
      rw [hweight]
      exact isclose_self _ (by norm_num) le_rfl
    · cases hmem
  simp only [hierarchicalWeights, bind_eq_ok, require_eq_ok, Dict.fetch_eq_ok]
  exact ⟨valids, hinput.valids_lookup, (), hchunks, (), hbalanced, _,
    groupScales_ok htask, (), hgroups, (), htasks, rfl⟩

end

end Groups

/-! ## The objective -/

def trajectoryMean (valids : Tensor ℚ) (loss : ℕ → ℕ → ℚ)
    (trajectory : ℕ) : ℚ :=
  (validSteps valids trajectory).expect (loss trajectory)

def groupMean (valids : Tensor ℚ) (groupSize : ℕ) (loss : ℕ → ℕ → ℚ)
    (group : ℕ) : ℚ :=
  (range groupSize).expect fun i =>
    trajectoryMean valids loss (group * groupSize + i)

def objective (records : List (GroupRecord ω)) (reduction : String)
    (groupSize : ℕ) (valids : Tensor ℚ) (loss : ℕ → ℕ → ℚ) : ℚ :=
  if reduction = "task_equal" then
    groupSize * ∑ task ∈ (range records.length).image (taskOf records),
      ({group ∈ range records.length |
        taskOf records group = task} : Finset ℕ).expect
          (groupMean valids groupSize loss)
  else
    groupSize * ∑ group ∈ range records.length,
      groupMean valids groupSize loss group

section Objective

variable {data : DataProto ω} {records : List (GroupRecord ω)}
  {groupSize numSteps : ℕ} {reduction : String} {valids : Tensor ℚ}

theorem sum_group_weights
    (hinput : AcceptedInput data (records.length * groupSize) numSteps valids)
    (scales : List ℚ) (loss : ℕ → ℕ → ℚ) (hgroup : group < records.length) :
    ∑ i ∈ range groupSize, ∑ step ∈ range numSteps,
        lossWeight valids scales groupSize (group * groupSize + i) step *
          loss (group * groupSize + i) step =
      scales.getD group 0 *
        (groupSize * groupMean valids groupSize loss group) := by
  have htrajectory : ∀ i ∈ range groupSize, ∑ step ∈ range numSteps,
        lossWeight valids scales groupSize (group * groupSize + i) step *
          loss (group * groupSize + i) step =
        scales.getD group 0 *
          trajectoryMean valids loss (group * groupSize + i) := by
    intro i hi
    have hlt := mem_range.mp hi
    have hsum := sum_lossWeight_mul hinput (slot_lt hgroup hlt) scales
      groupSize (loss (group * groupSize + i))
    rw [hinput.rows_steps.2, (Tensor.add_mul_div_mod hlt group).1] at hsum
    exact hsum
  rw [sum_congr rfl htrajectory, ← mul_sum, groupMean,
    ← sum_range_eq_card_mul_expect]

theorem sum_lossWeights_eq_objective
    (hinput : AcceptedInput data (records.length * groupSize) numSteps valids)
    (loss : ℕ → ℕ → ℚ) :
    ∑ b ∈ range (records.length * groupSize), ∑ step ∈ range numSteps,
        lossWeight valids (scaleList records reduction) groupSize b step *
          loss b step =
      objective records reduction groupSize valids loss := by
  rw [sum_range_blocks]
  unfold objective
  split_ifs with hreduction
  · subst hreduction
    rw [← sum_div_fibre, mul_sum]
    apply sum_congr rfl
    intro group hgroup
    have hlt := mem_range.mp hgroup
    rw [sum_group_weights hinput _ loss hlt, scaleList_task hlt]
    ring
  · rw [mul_sum]
    apply sum_congr rfl
    intro group hgroup
    have hlt := mem_range.mp hgroup
    rw [sum_group_weights hinput _ loss hlt,
      scaleList_group hlt hreduction, one_mul]

/-! ## The weighted actor input -/

def groupFields : List String :=
  ["fpo.trajectory_group_advantage", "fpo.advantages", "fpo.loss_weights"]

theorem weightedBatch_lookup_ne (advantages valids lossWeights : Tensor ℚ)
    (hkey : key ∉ groupFields) :
    (weightedBatch batch advantages valids lossWeights).lookup key =
      batch.lookup key := by
  simp only [groupFields, List.mem_cons, List.not_mem_nil, or_false,
    not_or] at hkey
  obtain ⟨hadvantage, hchunk, hweight⟩ := hkey
  rw [weightedBatch, AList.lookup_insert_ne hweight,
    AList.lookup_insert_ne hchunk, AList.lookup_insert_ne hadvantage]

theorem weightedBatch_weights (batch : Dict (Tensor ℚ))
    (advantages valids lossWeights : Tensor ℚ) :
    (weightedBatch batch advantages valids lossWeights).lookup
      "fpo.loss_weights" = some lossWeights :=
  AList.lookup_insert _

theorem weightedBatch_advantages (batch : Dict (Tensor ℚ))
    (advantages valids lossWeights : Tensor ℚ) :
    (weightedBatch batch advantages valids lossWeights).lookup
      "fpo.advantages" = some (.matrix valids.rows valids.steps
        fun trajectory step =>
          advantages.entry [trajectory] * valids.entry [trajectory, step]) := by
  rw [weightedBatch, AList.lookup_insert_ne (by decide), AList.lookup_insert]

theorem weightedBatch_group (batch : Dict (Tensor ℚ))
    (advantages valids lossWeights : Tensor ℚ) :
    (weightedBatch batch advantages valids lossWeights).lookup
      "fpo.trajectory_group_advantage" = some advantages := by
  rw [weightedBatch, AList.lookup_insert_ne (by decide),
    AList.lookup_insert_ne (by decide), AList.lookup_insert]

theorem weighted_of_accepted (reduction : String)
    (hinput : AcceptedInput data (records.length * groupSize) numSteps valids)
    (hrecords : records ≠ []) (hgroupSize : 0 < groupSize)
    (hadvantages : advantages.shape = [records.length * groupSize])
    (metaInfo : Dict MetaValue) :
    Weighted
      { data with
        batch := weightedBatch data.batch advantages valids
          (.matrix valids.rows valids.steps
            (lossWeight valids (scaleList records reduction) groupSize))
        metaInfo := metaInfo }
      (records.length * groupSize) numSteps valids
      (.matrix valids.rows valids.steps
        (lossWeight valids (scaleList records reduction) groupSize)) := by
  obtain ⟨hrows, hsteps⟩ := hinput.rows_steps
  have hscale : ∀ b < records.length * groupSize,
      0 < (scaleList records reduction).getD (b / groupSize) 0 := by
    intro b hb
    exact scaleList_pos ((Nat.div_lt_iff_lt_mul hgroupSize).mpr hb)
  have hother : ∀ key, key ∉ groupFields →
      (weightedBatch data.batch advantages valids
        (.matrix valids.rows valids.steps (lossWeight valids
          (scaleList records reduction) groupSize))).lookup key =
        data.batch.lookup key :=
    fun key hkey => weightedBatch_lookup_ne _ _ _ hkey
  have hpositive : 0 < records.length * groupSize :=
    Nat.mul_pos (List.length_pos_of_ne_nil hrecords) hgroupSize
  constructor
  · constructor
    · intro key tensor htensor
      by_cases hkey : key ∈ groupFields
      · simp only [groupFields, List.mem_cons, List.not_mem_nil,
          or_false] at hkey
        rcases hkey with rfl | rfl | rfl
        · rw [weightedBatch_group, Option.some.injEq] at htensor
          subst htensor
          exact .inl hadvantages
        · rw [weightedBatch_advantages, Option.some.injEq] at htensor
          subst htensor
          right
          simp [Tensor.matrix, hrows, hsteps]
        · rw [weightedBatch_weights, Option.some.injEq] at htensor
          subst htensor
          right
          simp [Tensor.matrix, hrows, hsteps]
      · rw [hother key hkey] at htensor
        exact hinput.shaped.tensors key tensor htensor
    · exact hinput.shaped.arrays
  · obtain ⟨action, haction, hshape⟩ := hinput.action
    refine ⟨action, ?_, hshape⟩
    rw [hother _ (by decide)]
    exact haction
  · rw [hother _ (by decide)]
    exact hinput.valids_lookup
  · exact hinput.valids_shape
  · exact weightedBatch_weights _ _ _ _
  · simp [Tensor.matrix, hrows, hsteps]
  · exact hinput.mask
  · intro b hb s _ hvalid
    exact lossWeight_pos hinput hb (hscale b hb) hvalid
  · intro b _ s _ hvalid
    exact lossWeight_zero hvalid
  · obtain ⟨s, hs, hvalid⟩ := hinput.each_valid 0 hpositive
    exact ⟨0, hpositive, s, hs, hvalid⟩
  · simp [weightedBatch_advantages]
  · rw [hother _ (by decide)]
    exact hinput.actionValids

end Objective

/-! ## From accepted groups to replay -/

structure ReplayBatch (data weighted compact : DataProto ω)
    (outcome : OutcomeAdvantages ω) (reduction : String)
    (groupSize numSteps : ℕ) (valids : Tensor ℚ) (slots : List (ℕ × ℕ))
    (divisor dummies : ℕ) : Prop where
  objective : ∃ weights,
    compact.batch.lookup "fpo.loss_weights" = some weights ∧
    ∀ loss : DataProto.Row ω → ℚ, ∑ k ∈ range compact.length,
          weights.entry [k] * loss (compact.row k) =
        objective outcome.records reduction groupSize valids fun b s =>
          loss (weighted.slot (outcome.records.length * groupSize)
            numSteps b s)
  mem_slots : ∀ b s, (b, s) ∈ slots ↔
    b < outcome.records.length * groupSize ∧ s < numSteps ∧
      valids.entry [b, s] ≠ 0
  ordered : slots.Pairwise fun slot later =>
    slot.1 < later.1 ∨ slot.1 = later.1 ∧ slot.2 < later.2
  kept : ∀ (k : ℕ) (hk : k < slots.length),
    compact.row k = weighted.slot (outcome.records.length * groupSize)
      numSteps slots[k].1 slots[k].2
  own_advantage : ∃ advantages,
    compact.batch.lookup "fpo.advantages" = some advantages ∧
    ∀ (k : ℕ) (hk : k < slots.length),
      advantages.entry [k] = outcome.advantages.entry [slots[k].1]
  same_tensors : ∀ key ∉ groupFields,
    weighted.batch.lookup key = data.batch.lookup key
  same_arrays : weighted.nonTensorBatch = data.nonTensorBatch
  length : compact.length = slots.length + dummies
  divisible : divisor ∣ compact.length
  few : dummies < divisor
  blanked : ∀ key ∈ blankedFields, ∃ tensor,
    compact.batch.lookup key = some tensor ∧
    ∀ k, slots.length ≤ k → k < compact.length →
      ∀ rest, tensor.entry (k :: rest) = 0

section Replay

variable [Inhabited ω] [DecidableEq ω] {library : TrainingLibrary ω}
  {data : DataProto ω} {groupRecord : Option (GroupRecord ω)}
  {groupRecords : Option (List (GroupRecord ω))} {groupSize numSteps : ℕ}
  {rewardSource reduction : String} {outcome : OutcomeAdvantages ω}
  {valids : Tensor ℚ}

omit [Inhabited ω] in
theorem outcomeAdvantages_inv
    (haccepted : outcomeAdvantages library data groupRecord groupRecords
      groupSize rewardSource reduction = .ok outcome) :
    outcome.records = assembledRecords groupRecord groupRecords ∧
      outcome.records ≠ [] ∧
      outcome.advantages.shape = [outcome.records.length * groupSize] := by
  simp only [outcomeAdvantages, bind_eq_ok, require_eq_ok,
    Dict.fetch_eq_ok] at haccepted
  obtain ⟨_, _, _, _, _, _, _, hversion, _, _, _, _, _, _, _, _, hresult⟩ :=
    haccepted
  obtain rfl := (Except.ok.inj hresult).symm
  refine ⟨rfl, ?_, rfl⟩
  intro hnil
  simp only at hnil
  simp [hnil] at hversion

omit [Inhabited ω] [DecidableEq ω] in
theorem replayBatch_of_compacted
    (hinput : AcceptedInput data (outcome.records.length * groupSize)
      numSteps valids)
    (hlossWeights : lossWeights = .matrix valids.rows valids.steps
      (lossWeight valids (scaleList outcome.records reduction) groupSize))
    (hdata : weighted = { data with
      batch := weightedBatch data.batch outcome.advantages valids lossWeights
      metaInfo := metaInfo })
    (hweighted : Weighted weighted (outcome.records.length * groupSize)
      numSteps valids lossWeights) (hcompacted : Compacted weighted compact
      (outcome.records.length * groupSize) numSteps
      (validPositions (outcome.records.length * groupSize) numSteps valids)
      divisor dummies) :
    ReplayBatch data weighted compact outcome reduction groupSize numSteps
      valids
      (validSlots (outcome.records.length * groupSize) numSteps valids)
      divisor dummies := by
  have hslots : (validSlots (outcome.records.length * groupSize)
      numSteps valids).length = (validPositions
        (outcome.records.length * groupSize) numSteps valids).length :=
    List.length_map _
  have hpresent : ∀ key ∈ blankedFields, ∃ tensor,
      compact.batch.lookup key = some tensor := by
    intro key hkey
    apply hcompacted.present hweighted.positions_ne_nil
    simp only [blankedFields, List.mem_cons, List.not_mem_nil,
      or_false] at hkey
    rcases hkey with rfl | rfl | rfl | rfl
    · simp [hweighted.valids_lookup]
    · simp [hweighted.weights_lookup]
    · exact hweighted.advantages
    · exact hweighted.actionValids
  have hkept : ∀ (k : ℕ) (hk : k < (validSlots
      (outcome.records.length * groupSize) numSteps valids).length),
      compact.row k = weighted.slot (outcome.records.length * groupSize)
        numSteps
        (validSlots (outcome.records.length * groupSize) numSteps valids)[k].1
        (validSlots (outcome.records.length * groupSize) numSteps
          valids)[k].2 := by
    intro k hk
    rw [hcompacted.kept k (by rwa [← hslots])]
    simp [validSlots]
  constructor
  case objective =>
    obtain ⟨weights, hweights⟩ :=
      hpresent "fpo.loss_weights" (by simp [blankedFields])
    refine ⟨weights, hweights, ?_⟩
    intro loss
    rw [hcompacted.sum_weights hweighted hweights loss]
    subst hlossWeights
    exact sum_lossWeights_eq_objective hinput fun b s =>
      loss (weighted.slot (outcome.records.length * groupSize) numSteps b s)
  case mem_slots => exact fun b s => mem_validSlots
  case ordered => exact validSlots_ordered
  case kept => exact hkept
  case own_advantage =>
    obtain ⟨advantages, hadvantages⟩ :=
      hpresent "fpo.advantages" (by simp [blankedFields])
    refine ⟨advantages, hadvantages, ?_⟩
    intro k hk
    have hbatch : weighted.batch = weightedBatch data.batch
        outcome.advantages valids lossWeights := by rw [hdata]
    have hfield := weightedBatch_advantages data.batch outcome.advantages
      valids lossWeights
    rw [← hbatch] at hfield
    have hshape : [valids.rows, valids.steps] =
        [outcome.records.length * groupSize, numSteps] := by
      rw [hinput.rows_steps.1, hinput.rows_steps.2]
    have hentry := entry_of_slot (hkept k hk) hfield hshape hadvantages
    obtain ⟨hb, hs, hvalid⟩ := mem_validSlots.mp (List.getElem_mem hk)
    have hone := (hinput.mask _ hb _ hs).resolve_left hvalid
    simp only [List.get_eq_getElem] at hone
    rw [hentry]
    show outcome.advantages.entry [_] * valids.entry [_, _] = _
    simp only [List.getD_cons_zero, List.getD_cons_succ]
    rw [hone, mul_one]
  case same_tensors =>
    intro key hkey
    rw [hdata]
    exact weightedBatch_lookup_ne _ _ _ hkey
  case same_arrays => rw [hdata]
  case length =>
    rw [hslots]
    exact hcompacted.length
  case divisible =>
    rw [hcompacted.length]
    exact hcompacted.divisible
  case few => exact hcompacted.few
  case blanked =>
    intro key hkey
    obtain ⟨tensor, htensor⟩ := hpresent key hkey
    refine ⟨tensor, htensor, ?_⟩
    intro k hlower hupper
    rw [hslots] at hlower
    rw [hcompacted.length] at hupper
    exact hcompacted.blanked key hkey tensor htensor k hlower hupper

/-- Whatever the groups, their trajectories and the micro batches, training
replays the nested mean of the configured reduction. -/
theorem hierarchical_loss_weights (hlibrary : library.Documented)
    (hgroupSize : 0 < groupSize)
    (haccepted : outcomeAdvantages library data groupRecord groupRecords
      groupSize rewardSource reduction = .ok outcome)
    (hinput : AcceptedInput data (outcome.records.length * groupSize)
      numSteps valids)
    (htask : reduction = "task_equal" →
      ∀ record ∈ outcome.records, record.taskName.getD "" ≠ "")
    {actorWorldSize microBatchSize : ℕ}
    (hworld : 0 < actorWorldSize) (hmicro : 0 < microBatchSize) :
    ∃ weighted diagnostics compact slots dummies,
      applyGrpoOutcomeAdvantages library data groupRecord groupRecords
        groupSize rewardSource reduction = .ok (weighted, diagnostics) ∧
      compactValidPolicyChunksForFpo library weighted actorWorldSize
        microBatchSize = .ok compact ∧
      ReplayBatch data weighted compact outcome reduction groupSize numSteps
        valids slots (actorWorldSize * microBatchSize) dummies := by
  obtain ⟨_, hrecords, hshape⟩ := outcomeAdvantages_inv haccepted
  have hweighted := weighted_of_accepted reduction hinput hrecords hgroupSize
    hshape (advantageMetaInfo data.metaInfo outcome.records groupSize
      rewardSource reduction)
  obtain ⟨compact, dummies, hcompact, hcompacted⟩ :=
    compactValidPolicyChunksForFpo_spec hlibrary hweighted hworld hmicro
  refine ⟨_, advantageDiagnostics library outcome groupSize, compact, _,
    dummies, ?_, hcompact,
    replayBatch_of_compacted hinput rfl rfl hweighted hcompacted⟩
  unfold applyGrpoOutcomeAdvantages
  rw [haccepted]
  show (hierarchicalWeights _ _ _ _ >>= _) = _
  rw [hierarchicalWeights_ok hinput htask]
  rfl

end Replay

/-! ## Two tasks of three trajectories -/

def twoTaskRecords : List (GroupRecord String) :=
  [("window-0", "fold"), ("window-1", "stack")].map fun names =>
    { groupId := names.1
      groupKey := none
      rolloutPolicyVersion := 4
      rewardVector := some [0, 1 / 2, 1]
      mixed := true
      taskName := some names.2
      successes := some 1
      partialOnlyCount := some 1
      informativeReason := none }

/-- Every other trajectory ends with its first chunk. -/
def twoTaskValids : Tensor ℚ :=
  .matrix 6 2 fun b s => if s = 1 ∧ b % 2 = 1 then 0 else 1

def twoTaskInput : DataProto String where
  batch := (∅ : Dict (Tensor ℚ))
    |>.insert "action.action" (.cube 6 2 1 fun b s _ => b + s)
    |>.insert "info.valids" twoTaskValids
    |>.insert "info.action_valids" (.cube 6 2 1 fun b s _ =>
      twoTaskValids.entry [b, s])
    |>.insert "info.trajectory_process_score" (.vector 6 fun b =>
      (b % 3 : ℕ) / 2)
  nonTensorBatch := (∅ : Dict (Tensor String))
    |>.insert "obs.group_id" (.matrix 6 2 fun b _ =>
      if b < 3 then "window-0" else "window-1")
  metaInfo := ∅

theorem twoTask_accepted :
    (outcomeAdvantages (rowLibrary String) twoTaskInput none
      (some twoTaskRecords) 3 "process_score" "task_equal").isOk := by
  decide +kernel

theorem twoTask_shaped : twoTaskInput.TrajectoryShaped 6 2 :=
  ⟨Dict.forall_lookup (by decide), Dict.forall_lookup (by decide)⟩

theorem twoTask_input : AcceptedInput twoTaskInput 6 2 twoTaskValids where
  shaped := twoTask_shaped
  action := ⟨.cube 6 2 1 fun b s _ => b + s, rfl, rfl⟩
  valids_lookup := rfl
  valids_shape := rfl
  mask := by decide +kernel
  each_valid := by decide +kernel
  actionValids := rfl

theorem hierarchical_loss_weights_two_tasks :
    ∃ outcome weighted diagnostics compact slots dummies,
      applyGrpoOutcomeAdvantages (rowLibrary String) twoTaskInput none
        (some twoTaskRecords) 3 "process_score" "task_equal" =
          .ok (weighted, diagnostics) ∧
      compactValidPolicyChunksForFpo (rowLibrary String) weighted 2 4 =
        .ok compact ∧
      ReplayBatch twoTaskInput weighted compact outcome "task_equal" 3 2
        twoTaskValids slots 8 dummies := by
  obtain ⟨outcome, houtcome⟩ := exists_eq_ok twoTask_accepted
  have hrecords := (outcomeAdvantages_inv houtcome).1
  have hlength : outcome.records.length * 3 = 6 := by rw [hrecords]; rfl
  have htask : "task_equal" = "task_equal" →
      ∀ record ∈ outcome.records, record.taskName.getD "" ≠ "" := by
    rw [hrecords]
    decide
  obtain ⟨weighted, diagnostics, compact, slots, dummies, happly, hcompact,
      hreplay⟩ :=
    hierarchical_loss_weights RowLibrary.rowLibrary_documented
      (by decide) houtcome (by rw [hlength]; exact twoTask_input) htask
      (by decide : 0 < 2) (by decide : 0 < 4)
  exact ⟨outcome, weighted, diagnostics, compact, slots, dummies, happly,
    hcompact, hreplay⟩

end VerlVla
