import VerlVla.HierarchicalWeights
import VerlVla.TaskDiagnostics

/-!
# Rows of the accepted groups

After compaction the valid rows of a group carry the weight that the reduction
gives it, under the label of the group and the label of its task.
-/

namespace VerlVla

open Finset

variable {ω : Type}

/-! ## Labelled input -/

section Labels

variable {data : DataProto ω} {batchSize numSteps : ℕ}
  {valids weights : Tensor ℚ}

def weightedKeys : List String :=
  ["action.action", "info.valids", "fpo.loss_weights", "fpo.advantages",
    "info.action_valids"]

theorem Weighted.insert (hweighted : Weighted data batchSize numSteps valids
      weights) (hkey : key ∉ weightedKeys)
    (hshape : tensor.shape = [batchSize, numSteps]) :
    Weighted { data with batch := data.batch.insert key tensor } batchSize
      numSteps valids weights := by
  have hother : ∀ other ∈ weightedKeys,
      (data.batch.insert key tensor).lookup other =
        data.batch.lookup other := by
    intro other hother
    apply AList.lookup_insert_ne
    rintro rfl
    exact hkey hother
  constructor
  · constructor
    · intro other found hfound
      by_cases heq : other = key
      · subst heq
        rw [AList.lookup_insert, Option.some.injEq] at hfound
        subst hfound
        right
        rw [hshape]
        rfl
      · rw [AList.lookup_insert_ne heq] at hfound
        exact hweighted.shaped.tensors other found hfound
    · exact hweighted.shaped.arrays
  · rw [hother "action.action" (by simp [weightedKeys])]
    exact hweighted.action
  · rw [hother "info.valids" (by simp [weightedKeys])]
    exact hweighted.valids_lookup
  · exact hweighted.valids_shape
  · rw [hother "fpo.loss_weights" (by simp [weightedKeys])]
    exact hweighted.weights_lookup
  · exact hweighted.weights_shape
  · exact hweighted.mask
  · exact hweighted.weight_pos
  · exact hweighted.weight_zero
  · exact hweighted.some_valid
  · rw [hother "fpo.advantages" (by simp [weightedKeys])]
    exact hweighted.advantages
  · rw [hother "info.action_valids" (by simp [weightedKeys])]
    exact hweighted.actionValids

variable {records : List (GroupRecord ω)} {groupSize : ℕ}

structure LabelledBatch (data : DataProto ω)
    (records : List (GroupRecord ω)) (groupSize numSteps : ℕ)
    (valids weights : Tensor ℚ) : Prop where
  weighted : Weighted data (records.length * groupSize) numSteps valids weights
  group : data.batch.lookup "fpo.group_index" =
    some (.matrix (records.length * groupSize) numSteps fun b _ =>
      (b / groupSize : ℕ))
  task : data.batch.lookup "fpo.task_index" =
    some (.matrix (records.length * groupSize) numSteps fun b _ =>
      taskToIndex records (b / groupSize))

theorem labelGroups_ok
    (hweighted : Weighted data (records.length * groupSize) numSteps valids
      weights) (hlabel : labelGroups data records groupSize = .ok labelled) :
    LabelledBatch labelled records groupSize numSteps valids weights := by
  simp only [labelGroups, bind_eq_ok, Dict.fetch_eq_ok] at hlabel
  obtain ⟨found, hfound, _, _, hresult⟩ := hlabel
  rw [hweighted.valids_lookup, Option.some.injEq] at hfound
  subst hfound
  have hsteps : valids.steps = numSteps := by
    simp [Tensor.steps, hweighted.valids_shape]
  rw [hsteps] at hresult
  obtain rfl := (Except.ok.inj hresult).symm
  constructor
  · have hgroup : "fpo.group_index" ∉ weightedKeys := by simp [weightedKeys]
    have htask : "fpo.task_index" ∉ weightedKeys := by simp [weightedKeys]
    exact (hweighted.insert hgroup rfl).insert htask rfl
  · exact (AList.lookup_insert_ne (by simp)).trans (AList.lookup_insert _)
  · exact AList.lookup_insert _

end Labels

/-! ## Rows of a loaded input -/

section Loaded

variable [Inhabited ω] [DecidableEq ω] {library : TrainingLibrary ω}
  {data compact : DataProto ω} {records : List (GroupRecord ω)}
  {groupSize numSteps worldSize microBatchSize : ℕ}
  {rewardSource reduction : String} {valids : Tensor ℚ}

structure LoadedInput (records : List (GroupRecord ω)) (groupSize : ℕ)
    (reduction : String) (numSteps divisor : ℕ) (valids : Tensor ℚ)
    (labelled compact : DataProto ω) (dummies : ℕ) : Prop where
  records_ne : records ≠ []
  known : reduction = "group_equal" ∨ reduction = "task_equal"
  batch : LabelledBatch labelled records groupSize numSteps valids
    (.matrix valids.rows valids.steps
      (lossWeight valids (scaleList records reduction) groupSize))
  compacted : Compacted labelled compact (records.length * groupSize) numSteps
    (validPositions (records.length * groupSize) numSteps valids) divisor
    dummies

omit [Inhabited ω] [DecidableEq ω] in
theorem groupScales_named
    (hscales : groupScales records reduction = .ok scales)
    (hreduction : reduction = "task_equal") :
    ∀ record ∈ records, record.taskName.getD "" ≠ "" := by
  rw [groupScales, if_pos hreduction, require_bind_eq_ok] at hscales
  exact hscales.1

theorem loadActorInput_ok (hlibrary : library.Documented)
    (hgroupSize : 0 < groupSize)
    (hinput : AcceptedInput data (records.length * groupSize) numSteps valids)
    (hworld : 0 < worldSize) (hmicro : 0 < microBatchSize)
    (hload : loadActorInput library data records groupSize rewardSource
      reduction worldSize microBatchSize = .ok compact) :
    ∃ labelled dummies, LoadedInput records groupSize reduction numSteps
      (worldSize * microBatchSize) valids labelled compact dummies := by
  simp only [loadActorInput, bind_eq_ok] at hload
  obtain ⟨⟨weighted, diagnostics⟩, happly, labelled, hlabel, hcompact⟩ := hload
  simp only [applyGrpoOutcomeAdvantages, bind_eq_ok] at happly
  obtain ⟨outcome, houtcome, ⟨found, lossWeights⟩, hweights, hresult⟩ := happly
  obtain ⟨hrecords, hne, hshape⟩ := outcomeAdvantages_inv houtcome
  have hrecords : outcome.records = records := hrecords
  rw [hrecords] at hweights hne hshape
  have hnamed : reduction = "task_equal" →
      ∀ record ∈ records, record.taskName.getD "" ≠ "" := by
    intro hreduction
    simp only [hierarchicalWeights, bind_eq_ok] at hweights
    obtain ⟨_, _, _, _, _, _, _, hscales, _⟩ := hweights
    exact groupScales_named hscales hreduction
  rw [hierarchicalWeights_ok hinput hnamed] at hweights
  obtain ⟨rfl, rfl⟩ := Prod.mk.inj (Except.ok.inj hweights)
  obtain ⟨rfl, _⟩ := Prod.mk.inj (Except.ok.inj hresult)
  have hbatch := labelGroups_ok (weighted_of_accepted reduction hinput hne
    hgroupSize hshape _) hlabel
  obtain ⟨compacted, dummies, hok, hspec⟩ :=
    compactValidPolicyChunksForFpo_spec hlibrary hbatch.weighted hworld hmicro
  rw [hcompact] at hok
  cases hok
  have hknown : reduction = "group_equal" ∨ reduction = "task_equal" := by
    simp only [outcomeAdvantages, bind_eq_ok, require_eq_ok] at houtcome
    obtain ⟨_, _, _, hknown, _⟩ := houtcome
    exact hknown
  exact ⟨labelled, dummies, hne, hknown, hbatch, hspec⟩

omit [Inhabited ω] [DecidableEq ω] in
theorem labelGroups_total
    (hweighted : Weighted data (records.length * groupSize) numSteps valids
      weights) (hnames : ∀ record ∈ records, record.taskName.isSome) :
    ∃ labelled, labelGroups data records groupSize = .ok labelled := by
  simp only [labelGroups, bind_eq_ok, Dict.fetch_eq_ok, require_eq_ok]
  exact ⟨_, valids, hweighted.valids_lookup, (), hnames, rfl⟩

theorem loadActorInput_total (hlibrary : library.Documented)
    (hgroupSize : 0 < groupSize)
    (hinput : AcceptedInput data (records.length * groupSize) numSteps valids)
    (hworld : 0 < worldSize) (hmicro : 0 < microBatchSize)
    (houtcome : outcomeAdvantages library data none (some records) groupSize
      rewardSource reduction = .ok outcome)
    (hnames : ∀ record ∈ records, record.taskName.getD "" ≠ "") :
    ∃ compact, loadActorInput library data records groupSize rewardSource
      reduction worldSize microBatchSize = .ok compact := by
  obtain ⟨hrecords, hne, hshape⟩ := outcomeAdvantages_inv houtcome
  replace hrecords : outcome.records = records := hrecords
  subst hrecords
  have hsome : ∀ record ∈ outcome.records, record.taskName.isSome := by
    intro record hrecord
    have hname := hnames record hrecord
    cases htask : record.taskName with
    | none => simp [htask] at hname
    | some name => rfl
  have hweighted := weighted_of_accepted reduction hinput hne hgroupSize
    hshape (advantageMetaInfo data.metaInfo outcome.records groupSize
      rewardSource reduction)
  obtain ⟨labelled, hlabel⟩ := labelGroups_total hweighted hsome
  obtain ⟨compact, _, hcompact, _⟩ := compactValidPolicyChunksForFpo_spec
    hlibrary (labelGroups_ok hweighted hlabel).weighted hworld hmicro
  have hweights := hierarchicalWeights_ok hinput
    fun (_ : reduction = "task_equal") => hnames
  simp only [loadActorInput, applyGrpoOutcomeAdvantages, bind_eq_ok]
  exact ⟨compact, (_, advantageDiagnostics library outcome groupSize),
    ⟨outcome, houtcome, _, hweights, rfl⟩, labelled, hlabel, hcompact⟩

end Loaded

/-! ## Slots after compaction -/

section Slots

variable {records : List (GroupRecord ω)}
  {groupSize numSteps divisor dummies : ℕ} {reduction : String}
  {valids : Tensor ℚ} {labelled compact : DataProto ω}

def rowGroup (row : DataProto.Row ω) (group : ℕ) : ℚ :=
  match row.tensors "fpo.group_index" with
  | none => 0
  | some tensor => if tensor.entry [] = group then 1 else 0

theorem truncate_natCast (n : ℕ) : truncate n = n := by
  simp [truncate]

theorem slotEntry_of_lookup {data : DataProto ω} {tensor : Tensor ℚ}
    (hlookup : data.batch.lookup key = some tensor) (row : ℕ) :
    data.slotEntry key row = tensor.entry [row] := by
  rw [DataProto.slotEntry, hlookup]

namespace LoadedInput

variable (hloaded : LoadedInput records groupSize reduction numSteps divisor
  valids labelled compact dummies)
include hloaded

theorem present (hkey : (labelled.batch.lookup key).isSome) :
    ∃ tensor, compact.batch.lookup key = some tensor :=
  hloaded.compacted.present hloaded.batch.weighted.positions_ne_nil hkey

theorem slotEntry_kept {source : Tensor ℚ}
    (hsource : labelled.batch.lookup key = some source)
    (hshape : source.shape = [records.length * groupSize, numSteps])
    (hk : k < (validPositions (records.length * groupSize) numSteps
      valids).length) :
    compact.slotEntry key k = source.entry
      [(validPositions (records.length * groupSize) numSteps
          valids)[k] / numSteps,
        (validPositions (records.length * groupSize) numSteps
          valids)[k] % numSteps] := by
  have hsome : (labelled.batch.lookup key).isSome := by
    rw [hsource]
    rfl
  obtain ⟨target, htarget⟩ := hloaded.present hsome
  rw [slotEntry_of_lookup htarget]
  exact entry_of_slot (hloaded.compacted.kept k hk) hsource hshape htarget

theorem kept_slot
    (hk : k < (validPositions (records.length * groupSize) numSteps
      valids).length) :
    (compact.labelledSlot k).valid = true ∧ ∃ group < records.length,
      compact.slotEntry "fpo.group_index" k = (group : ℕ) ∧
      (compact.labelledSlot k).groupIndex = group ∧
      (compact.labelledSlot k).taskIndex = taskToIndex records group := by
  have hweighted := hloaded.batch.weighted
  obtain ⟨hlt, hvalid⟩ := mem_validPositions.mp (List.getElem_mem hk)
  have hentry := hloaded.slotEntry_kept hweighted.valids_lookup
    hweighted.valids_shape hk
  have hgroup := hloaded.slotEntry_kept hloaded.batch.group rfl hk
  have htask := hloaded.slotEntry_kept hloaded.batch.task rfl hk
  have htrajectory := (div_mod_lt hlt).1
  constructor
  · simp only [DataProto.labelledSlot, decide_eq_true_eq]
    rw [hentry]
    exact hvalid
  · have hlt := Nat.div_lt_of_lt_mul (htrajectory.trans_eq (Nat.mul_comm _ _))
    refine ⟨_, hlt, hgroup, ?_, ?_⟩
    · exact (congrArg truncate hgroup).trans (truncate_natCast _)
    · exact (congrArg truncate htask).trans (truncate_natCast _)

theorem dummy_slot
    (hlower : (validPositions (records.length * groupSize) numSteps
      valids).length ≤ k) (hk : k < compact.length) :
    (compact.labelledSlot k).valid = false ∧
      (compact.labelledSlot k).weight = 0 := by
  have hweighted := hloaded.batch.weighted
  have hupper := hk
  rw [hloaded.compacted.length] at hupper
  have hblank : ∀ key ∈ ["info.valids", "fpo.loss_weights"],
      (labelled.batch.lookup key).isSome → compact.slotEntry key k = 0 := by
    intro key hkey hsome
    obtain ⟨tensor, htensor⟩ := hloaded.present hsome
    rw [slotEntry_of_lookup htensor]
    apply hloaded.compacted.blanked key _ tensor htensor k hlower hupper
    simp only [List.mem_cons, List.not_mem_nil, or_false] at hkey
    rcases hkey with rfl | rfl
    · simp [blankedFields]
    · simp [blankedFields]
  have hvalids := hblank "info.valids" (by simp)
    (by simp [hweighted.valids_lookup])
  have hweights := hblank "fpo.loss_weights" (by simp)
    (by simp [hweighted.weights_lookup])
  simp [DataProto.labelledSlot, hvalids, hweights]

/-! ### Totals -/

theorem counted_slot (group : ℕ) (hk : k < compact.length) :
    (if (compact.labelledSlot k).groupIndex = group ∧
        (compact.labelledSlot k).valid = true
      then (compact.labelledSlot k).weight else 0) =
      compact.slotEntry "fpo.loss_weights" k *
        rowGroup (compact.row k) group := by
  obtain ⟨labels, hlabels⟩ := hloaded.present
    (by rw [hloaded.batch.group]; rfl :
      (labelled.batch.lookup "fpo.group_index").isSome)
  have hrow : rowGroup (compact.row k) group =
      if compact.slotEntry "fpo.group_index" k = group then 1 else 0 := by
    simp only [rowGroup, DataProto.row, hlabels, Option.map_some,
      DataProto.slotEntry]
    rfl
  rw [hrow]
  by_cases hkept : k < (validPositions (records.length * groupSize) numSteps
      valids).length
  · obtain ⟨hvalid, own, _, hentry, hlabel, _⟩ := hloaded.kept_slot hkept
    rw [hvalid, hentry, hlabel]
    by_cases hown : own = group
    · subst hown
      simp [DataProto.labelledSlot]
    · simp [hown]
  · obtain ⟨hvalid, hweight⟩ := hloaded.dummy_slot (by omega) hk
    have hentry : compact.slotEntry "fpo.loss_weights" k = 0 := hweight
    rw [hvalid, hentry]
    simp

theorem group_total {data : DataProto ω}
    (hinput : AcceptedInput data (records.length * groupSize) numSteps valids)
    {group : ℕ} (hgroup : group < records.length) :
    (((compact.labelledSlots.filter fun slot => slot.valid).filter
        fun slot => slot.groupIndex = (group : ℤ)).map fun slot =>
          slot.weight).sum =
      (scaleList records reduction).getD group 0 * groupSize := by
  have hweighted := hloaded.batch.weighted
  obtain ⟨weights, hweights⟩ := hloaded.present
    (by rw [hweighted.weights_lookup]; rfl :
      (labelled.batch.lookup "fpo.loss_weights").isSome)
  have hslot : ∀ b s, rowGroup (labelled.slot (records.length * groupSize)
      numSteps b s) group = if b / groupSize = group then 1 else 0 := by
    intro b s
    simp only [rowGroup, DataProto.slot, hloaded.batch.group,
      Option.map_some, Tensor.matrix]
    simp only [List.take_succ_cons, List.take_nil, if_true, Tensor.row]
    simp
  have hcount : ∀ k ∈ range compact.length,
      (if (compact.labelledSlot k).groupIndex = group ∧
          (compact.labelledSlot k).valid = true
        then (compact.labelledSlot k).weight else 0) =
        weights.entry [k] * rowGroup (compact.row k) group := by
    intro k hk
    rw [hloaded.counted_slot group (mem_range.mp hk),
      slotEntry_of_lookup hweights]
  have hblocks : ∀ other ∈ range records.length,
      ∑ i ∈ range groupSize, ∑ s ∈ range numSteps,
        lossWeight valids (scaleList records reduction) groupSize
            (other * groupSize + i) s *
          (if (other * groupSize + i) / groupSize = group then 1 else 0) =
        if other = group then groupWeightSum valids
          (scaleList records reduction) groupSize other else 0 := by
    intro other _
    have hindex : ∀ i ∈ range groupSize,
        (other * groupSize + i) / groupSize = other := fun i hi =>
      (Tensor.add_mul_div_mod (mem_range.mp hi) other).1
    rw [groupWeightSum, hinput.rows_steps.2]
    by_cases hother : other = group
    · subst hother
      rw [if_pos rfl]
      apply sum_congr rfl
      intro i hi
      simp only [hindex i hi, if_true, mul_one]
    · rw [if_neg hother]
      apply sum_eq_zero
      intro i hi
      simp only [hindex i hi, hother, if_false, mul_zero, sum_const_zero]
  calc (((compact.labelledSlots.filter fun slot => slot.valid).filter
        fun slot => slot.groupIndex = (group : ℤ)).map fun slot => slot.weight).sum
      = ∑ k ∈ range compact.length,
          if (compact.labelledSlot k).groupIndex = group ∧
            (compact.labelledSlot k).valid = true
          then (compact.labelledSlot k).weight else 0 := by
        rw [List.filter_filter, DataProto.labelledSlots, List.filter_map,
          List.map_map, ← sum_filter]
        rw [← NestedMeans.sum_map_filter_range]
        simp [Function.comp_def]
    _ = ∑ k ∈ range compact.length,
          weights.entry [k] * rowGroup (compact.row k) group :=
        sum_congr rfl hcount
    _ = ∑ b ∈ range (records.length * groupSize), ∑ s ∈ range numSteps,
          lossWeight valids (scaleList records reduction) groupSize b s *
            (if b / groupSize = group then 1 else 0) := by
        rw [hloaded.compacted.sum_weights hweighted hweights
          fun row => rowGroup row group]
        apply sum_congr rfl
        intro b _
        apply sum_congr rfl
        intro s _
        rw [hslot]
        rfl
    _ = ∑ other ∈ range records.length, if other = group then
          groupWeightSum valids (scaleList records reduction) groupSize other
          else 0 := by
        rw [NestedMeans.sum_range_blocks]
        exact sum_congr rfl hblocks
    _ = (scaleList records reduction).getD group 0 * groupSize := by
        rw [sum_ite_eq', if_pos (mem_range.mpr hgroup),
          groupWeightSum_eq hinput hgroup]

end LoadedInput

end Slots

/-! ## Prepared rows -/

section Prepared

variable {X : Type}

structure GroupedRows (rows : List (DiagnosticRow X))
    (records : List (GroupRecord ω)) (groupSize : ℕ) (reduction : String) :
    Prop where
  labelled : ∀ row ∈ rows, row.valid = true → ∃ group < records.length,
    row.groupIndex = group ∧ row.taskIndex = taskToIndex records group
  total : ∀ group < records.length, (((rows.filter fun row => row.valid).filter
      fun row => row.groupIndex = (group : ℤ)).map fun row =>
        row.weight).sum =
      ((scaleList records reduction).getD group 0 * groupSize : ℚ)
  idle : ∀ row ∈ rows, row.valid = false → row.weight = 0

variable {records : List (GroupRecord ω)}
  {groupSize numSteps divisor dummies : ℕ} {reduction : String}
  {valids : Tensor ℚ} {data labelled compact : DataProto ω}

theorem PreparedBatch.slot_of_mem (batch : PreparedBatch data X)
    (hrow : row ∈ batch.rows) :
    ∃ k < data.length, row.toLabelledSlot = (data.labelledSlot k).toReal := by
  have hmem : row.toLabelledSlot ∈
      data.labelledSlots.map LabelledSlot.toReal := by
    rw [← batch.slots]
    exact List.mem_map_of_mem hrow
  obtain ⟨slot, hslot, heq⟩ := List.mem_map.mp hmem
  obtain ⟨k, hk, rfl⟩ := List.mem_map.mp hslot
  exact ⟨k, List.mem_range.mp hk, heq.symm⟩

theorem PreparedBatch.sum_weights (batch : PreparedBatch data X) (group : ℤ) :
    (((batch.rows.filter fun row => row.valid).filter
        fun row => row.groupIndex = group).map fun row => row.weight).sum =
      ((((data.labelledSlots.filter fun slot => slot.valid).filter
        fun slot => slot.groupIndex = group).map fun slot =>
          slot.weight).sum : ℚ) := by
  have hrows := congrArg (fun slots : List (LabelledSlot ℝ) =>
    (((slots.filter fun slot => slot.valid).filter
      fun slot => slot.groupIndex = group).map fun slot =>
        slot.weight).sum) batch.slots
  simp only [List.filter_map, List.map_map] at hrows
  refine hrows.trans ?_
  rw [Rat.cast_list_sum, List.map_map]
  rfl

theorem LoadedInput.groupedRows (hloaded : LoadedInput records groupSize
      reduction numSteps divisor valids labelled compact dummies)
    (hinput : AcceptedInput data (records.length * groupSize) numSteps valids)
    (batch : PreparedBatch compact X) :
    GroupedRows batch.rows records groupSize reduction := by
  constructor
  · intro row hrow hvalid
    obtain ⟨k, hk, hslot⟩ := batch.slot_of_mem hrow
    by_cases hkept : k < (validPositions (records.length * groupSize)
        numSteps valids).length
    · obtain ⟨_, group, hgroup, _, hlabel, htask⟩ := hloaded.kept_slot hkept
      refine ⟨group, hgroup, ?_, ?_⟩
      · rw [hslot]
        exact hlabel
      · rw [hslot]
        exact htask
    · obtain ⟨hdummy, _⟩ := hloaded.dummy_slot (by omega) hk
      have hnot : row.valid = false := by
        rw [hslot]
        exact hdummy
      simp [hnot] at hvalid
  · intro group hgroup
    rw [batch.sum_weights, hloaded.group_total hinput hgroup]
  · intro row hrow hvalid
    obtain ⟨k, hk, hslot⟩ := batch.slot_of_mem hrow
    by_cases hkept : k < (validPositions (records.length * groupSize)
        numSteps valids).length
    · obtain ⟨hkeptValid, _⟩ := hloaded.kept_slot hkept
      have hkeeps : row.valid = true := by
        rw [hslot]
        exact hkeptValid
      simp [hvalid] at hkeeps
    · obtain ⟨_, hweight⟩ := hloaded.dummy_slot (by omega) hk
      rw [hslot]
      exact (congrArg Rat.cast hweight).trans Rat.cast_zero

end Prepared

end VerlVla
