import Mathlib.Data.List.GetD
import VerlVla.ReplaySampling

/-!
# The law of a sample

From every reachable pool with stored rows a sample of the requested size is
drawn.  Its valid rows are different stored rows, split between the polarities
and the tasks as the counts say.
-/

namespace VerlVla

open List hiding cons count head keys length nil product
namespace ReplayPool

variable {τ D : Type}

/-! ## Reachable pools -/

/-- What calls of `add_batch`, and saving and loading, make of a new pool. -/
inductive Reachable [Inhabited D] (normalizeTaskId : τ → String) :
    ReplayPool D → Prop
  | create {capacity : ℕ} (hcapacity : 0 < capacity) (positiveOnly : Bool) :
      Reachable normalizeTaskId (create capacity positiveOnly)
  | addBatch {pool next : ReplayPool D} {batch : PoolBatch τ D}
      (hpool : Reachable normalizeTaskId pool)
      (hadd : pool.addBatch normalizeTaskId batch = .ok next) :
      Reachable normalizeTaskId next
  | load {pool : ReplayPool D} (hpool : Reachable normalizeTaskId pool) :
      Reachable normalizeTaskId pool.load

structure Sound [Inhabited D] (pool : ReplayPool D) : Prop where
  capacity : 0 < pool.singlePoolCapacity
  positiveSize : pool.positiveSize = totalSize pool.taskPools true
  negativeSize : pool.negativeSize = totalSize pool.taskPools false
  size : pool.size = pool.positiveSize + pool.negativeSize
  rings : ∀ task positive, ∃ rows, Ring.Holds
    (ringCapacity pool.singlePoolCapacity pool.positiveOnly positive)
    (pool.ring task positive) rows ∧ ∀ row ∈ rows, row.isValid = true

theorem isValid_relabel (positiveOnly : Bool) (row : ReplayRow D) :
    (row.relabel positiveOnly).isValid = row.isValid := by
  cases positiveOnly <;> rfl

theorem isValid_of_mem_block {positiveOnly : Bool}
    (hrow : row ∈ block normalizeTaskId positiveOnly batch task positive) :
    row.isValid = true := by
  rw [block] at hrow
  split_ifs at hrow
  · obtain ⟨entry, hentry, rfl⟩ := mem_map.mp hrow
    obtain ⟨source, hsource, rfl⟩ := mem_map.mp (mem_filter.mp hentry).1
    rw [isValid_relabel]
    exact (mem_filter.mp hsource).2
  · cases hrow

section Sound

variable [Inhabited D] {normalizeTaskId : τ → String}
  {pool next : ReplayPool D}

theorem Sound.addBatch (hsound : Sound pool)
    (hadd : pool.addBatch normalizeTaskId batch = .ok next) :
    Sound next := by
  obtain ⟨hcapacity, honly⟩ := addBatch_config hadd
  constructor
  case capacity =>
    rw [hcapacity]
    exact hsound.capacity
  case positiveSize =>
    rcases addBatch_cases hadd with ⟨_, rfl⟩ | ⟨_, _, rfl⟩ | ⟨_, rfl⟩
    · exact hsound.positiveSize
    · exact hsound.positiveSize
    · rfl
  case negativeSize =>
    rcases addBatch_cases hadd with ⟨_, rfl⟩ | ⟨_, _, rfl⟩ | ⟨_, rfl⟩
    · exact hsound.negativeSize
    · exact hsound.negativeSize
    · rfl
  case size =>
    rcases addBatch_cases hadd with ⟨_, rfl⟩ | ⟨_, _, rfl⟩ | ⟨_, rfl⟩
    · exact hsound.size
    · exact hsound.size
    · rfl
  case rings =>
    intro task positive
    obtain ⟨rows, hholds, hvalid⟩ := hsound.rings task positive
    rw [ring_addBatch hadd, hcapacity, honly]
    by_cases hallocated : (positive || !pool.positiveOnly) = true
    · rw [ringCapacity, if_pos hallocated] at hholds ⊢
      refine ⟨_, holds_insertBlockToPool hsound.capacity hholds _, ?_⟩
      intro row hrow
      rcases mem_append.mp hrow with hrow | hrow
      · exact hvalid row hrow
      · exact isValid_of_mem_block (mem_of_mem_take hrow)
    · simp only [Bool.or_eq_true, Bool.not_eq_true', not_or,
        Bool.not_eq_true, Bool.not_eq_false] at hallocated
      rw [hallocated.1, hallocated.2, block_positiveOnly]
      rw [hallocated.1, hallocated.2] at hholds
      exact ⟨rows, hholds, hvalid⟩

theorem Reachable.sound (hpool : Reachable normalizeTaskId pool) :
    Sound pool := by
  induction hpool with
  | create hcapacity positiveOnly =>
    constructor
    case capacity => exact hcapacity
    case positiveSize => rfl
    case negativeSize => rfl
    case size => rfl
    case rings =>
      intro task positive
      refine ⟨[], ?_, by simp⟩
      exact holds_addAll normalizeTaskId hcapacity positiveOnly [] task
        positive
  | addBatch _ hadd ih => exact ih.addBatch hadd
  | load _ ih =>
    exact ⟨ih.capacity, rfl, rfl, rfl, ih.rings⟩

theorem isValid_rowAt (hsound : Sound pool) {slot : ReplaySlot}
    (hslot : slot.index < (pool.ring slot.task slot.positive).size) :
    (pool.rowAt slot).isValid = true := by
  obtain ⟨rows, hholds, hvalid⟩ := hsound.rings slot.task slot.positive
  have hpositive : 0 < ringCapacity pool.singlePoolCapacity
      pool.positiveOnly slot.positive := by
    have hsize := hholds.size
    omega
  have hcells : slot.index <
      (pool.ring slot.task slot.positive).cells.length := by
    have hsize := hholds.size
    rw [hholds.cells]
    omega
  have hmem : pool.rowAt slot ∈
      (pool.ring slot.task slot.positive).stored := by
    rw [rowAt, getD_eq_getElem _ _ hcells, Ring.stored, mem_take_iff_getElem]
    exact ⟨slot.index, by omega, rfl⟩
  rw [(hholds.stored_perm hpositive).mem_iff] at hmem
  exact hvalid _ (mem_of_mem_drop hmem)

end Sound

/-! ## One polarity -/

structure ValidDraws [Inhabited D] (pool : ReplayPool D) (batchSize : ℕ)
    (draws : SampleDraws) : Prop where
  task : ∀ positive task, (draws.task positive task).Perm
    (range (pool.ring task positive).size)
  shuffle : draws.shuffle.Perm (range batchSize)

def taskCount (slots : List ReplaySlot) (task : String) : ℕ :=
  slots.countP fun slot => slot.task = task

/-- Different stored rows of one polarity, fairly split between the tasks. -/
structure PolarityLaw [Inhabited D] (pool : ReplayPool D) (positive : Bool)
    (count : ℕ) (slots : List ReplaySlot) : Prop where
  length : slots.length = count
  nodup : slots.Nodup
  polarity : ∀ slot ∈ slots, slot.positive = positive
  stored : ∀ slot ∈ slots, slot.index < (pool.ring slot.task positive).size
  fair : ∀ ahead behind,
    taskCount slots behind < (pool.ring behind positive).size →
      taskCount slots ahead ≤ taskCount slots behind + 1

section Shares

variable {pool : ReplayPool D} {positive : Bool}

theorem available_taskShares : Share.available (pool.taskShares positive) =
      totalSize pool.taskPools positive := by
  unfold Share.available taskShares totalSize
  rw [map_map]
  induction pool.taskPools.entries with
  | nil => rfl
  | cons entry entries ih =>
    by_cases hsize : 0 < (entry.2.ring positive).size
    · simp [hsize, ← ih]
    · have hzero : (entry.2.ring positive).size = 0 := by omega
      simp [hzero, ← ih]

theorem level_taskShares : Share.Level 0 (pool.taskShares positive) := by
  intro share hshare
  obtain ⟨entry, _, rfl⟩ := mem_map.mp hshare
  simp

theorem total_taskShares : Share.total (pool.taskShares positive) = 0 := by
  simp [Share.total, taskShares, Function.comp_def]

theorem nodup_keys_taskShares :
    ((Share.sizes (pool.taskShares positive)).map (·.1)).Nodup := by
  have hkeys : (Share.sizes (pool.taskShares positive)).map (·.1) =
      (pool.taskPools.entries.filter fun entry =>
        0 < (entry.2.ring positive).size).map Sigma.fst := by
    simp [Share.sizes, taskShares, Function.comp_def]
  rw [hkeys]
  exact pool.taskPools.nodupKeys.sublist filter_sublist

/-- Enough rows are handed out fairly, never more than a task has. -/
theorem allocateCountsAcrossTasks_spec
    (hcount : count ≤ totalSize pool.taskPools positive) :
    ∃ allocation, allocateCountsAcrossTasks (pool.taskShares positive)
        count = .ok allocation ∧
      Share.sizes allocation = Share.sizes (pool.taskShares positive) ∧
      Share.total allocation = count ∧
      (∀ share ∈ allocation, share.count ≤ share.size) ∧
      Share.Fair allocation := by
  rw [← available_taskShares] at hcount
  have htotal : Share.total (pool.taskShares positive) + count ≤
      Share.available (pool.taskShares positive) := by
    rw [total_taskShares, Nat.zero_add]
    exact hcount
  obtain ⟨allocation, hloop, hsizes, hsum, rounds, hbetween⟩ :=
    Share.allocateLoop_spec level_taskShares (le_refl count) htotal
  rw [total_taskShares, Nat.zero_add] at hsum
  refine ⟨allocation, ?_, hsizes, hsum, hbetween.count_le, hbetween.fair⟩
  rw [allocateCountsAcrossTasks, require_of hcount, hloop]
  rfl

end Shares

section Polarity

variable [Inhabited D] {pool : ReplayPool D} {draws : SampleDraws}
  {positive : Bool}

/-- The shares are the tasks with rows, each with the size of its ring. -/
theorem mem_sizes_taskShares {size : ℕ} :
    (task, size) ∈ Share.sizes (pool.taskShares positive) ↔
      size = (pool.ring task positive).size ∧ 0 < size := by
  have hlookup : ∀ state, ⟨task, state⟩ ∈ pool.taskPools.entries →
      pool.ring task positive = state.ring positive := by
    intro state hmem
    rw [ring, AList.mem_lookup_iff.mpr hmem, Option.getD_some]
  constructor
  · intro hmem
    obtain ⟨share, hshare, heq⟩ := mem_map.mp hmem
    obtain ⟨⟨name, state⟩, hentry, rfl⟩ := mem_map.mp hshare
    obtain ⟨hentry, hpositive⟩ := mem_filter.mp hentry
    cases heq
    rw [hlookup state hentry]
    exact ⟨rfl, by simpa using hpositive⟩
  · rintro ⟨rfl, hsize⟩
    cases hstate : pool.taskPools.lookup task with
    | none =>
      rw [ring, hstate] at hsize
      cases positive <;> cases hsize
    | some state =>
      have hentry := AList.mem_lookup_iff.mp hstate
      rw [hlookup state hentry] at hsize ⊢
      refine mem_map.mpr ⟨⟨task, _, 0⟩, ?_, rfl⟩
      exact mem_map.mpr ⟨⟨task, state⟩,
        mem_filter.mpr ⟨hentry, by simpa using hsize⟩, rfl⟩

structure Selects (pool : ReplayPool D) (draws : SampleDraws)
    (positive : Bool) (allocation : List (Share String)) : Prop where
  draws : ∀ task, (draws.task positive task).Perm
    (range (pool.ring task positive).size)
  size : ∀ share ∈ allocation, share.size = (pool.ring share.key positive).size
  count : ∀ share ∈ allocation, share.count ≤ share.size
  keys : (allocation.map (·.key)).Nodup

section Selects

theorem Selects.single (hselects : Selects pool draws positive allocation)
    (hshare : share ∈ allocation) :
    (sampleFromSingleTaskPool draws positive share).length = share.count ∧
      (sampleFromSingleTaskPool draws positive share).Nodup ∧
      ∀ slot ∈ sampleFromSingleTaskPool draws positive share,
        slot.task = share.key ∧ slot.positive = positive ∧
          slot.index < (pool.ring share.key positive).size := by
  have hperm := hselects.draws share.key
  have hsize := hselects.size share hshare
  have hcount := hselects.count share hshare
  refine ⟨?_, ?_, ?_⟩
  · rw [sampleFromSingleTaskPool, length_map, length_take,
      hperm.length_eq, length_range]
    omega
  · apply Nodup.map
    · intro first second hslots
      simpa using hslots
    · exact ((hperm.nodup_iff.mpr nodup_range).sublist (take_sublist _ _))
  · intro slot hslot
    obtain ⟨index, hindex, rfl⟩ := mem_map.mp hslot
    refine ⟨rfl, rfl, ?_⟩
    exact mem_range.mp (hperm.mem_iff.mp (mem_of_mem_take hindex))

theorem Selects.tail (hselects :
    Selects pool draws positive (share :: allocation)) :
    Selects pool draws positive allocation :=
  ⟨hselects.draws,
    fun other hother => hselects.size other (mem_cons_of_mem _ hother),
    fun other hother => hselects.count other (mem_cons_of_mem _ hother),
    (nodup_cons.mp hselects.keys).2⟩

section

variable (hselects : Selects pool draws positive allocation)

include hselects

theorem Selects.mem (hslot : slot ∈ allocation.flatMap
      (sampleFromSingleTaskPool draws positive)) :
    slot.positive = positive ∧
      slot.index < (pool.ring slot.task positive).size ∧
      ∃ share ∈ allocation, share.key = slot.task := by
  obtain ⟨share, hshare, hslot⟩ := mem_flatMap.mp hslot
  obtain ⟨htask, hpositive, hindex⟩ := (hselects.single hshare).2.2 slot hslot
  refine ⟨hpositive, ?_, share, hshare, htask.symm⟩
  rw [htask]
  exact hindex

theorem Selects.length :
    (allocation.flatMap (sampleFromSingleTaskPool draws positive)).length =
      Share.total allocation := by
  induction allocation with
  | nil => rfl
  | cons share allocation ih =>
    rw [flatMap_cons, length_append, ih hselects.tail,
      (hselects.single mem_cons_self).1]
    simp [Share.total]

theorem Selects.nodup : (allocation.flatMap
      (sampleFromSingleTaskPool draws positive)).Nodup := by
  induction allocation with
  | nil => exact nodup_nil
  | cons share allocation ih =>
    rw [flatMap_cons]
    obtain ⟨_, hnodup, hslots⟩ := hselects.single mem_cons_self
    apply hnodup.append (ih hselects.tail)
    intro slot hhead htail
    obtain ⟨_, _, other, hother, hkey⟩ := hselects.tail.mem htail
    apply (nodup_cons.mp hselects.keys).1
    exact mem_map.mpr ⟨other, hother, hkey.trans (hslots slot hhead).1⟩

theorem Selects.taskCount_eq_zero
    (htask : ∀ share ∈ allocation, share.key ≠ task) :
    taskCount (allocation.flatMap
      (sampleFromSingleTaskPool draws positive)) task = 0 := by
  rw [taskCount, countP_eq_zero]
  intro slot hslot hmatch
  obtain ⟨_, _, share, hshare, hkey⟩ := hselects.mem hslot
  exact htask share hshare (hkey.trans (by simpa using hmatch))

theorem Selects.taskCount (hshare : share ∈ allocation) :
    taskCount (allocation.flatMap
      (sampleFromSingleTaskPool draws positive)) share.key = share.count := by
  induction allocation with
  | nil => cases hshare
  | cons head allocation ih =>
    rw [flatMap_cons, ReplayPool.taskCount, countP_append]
    obtain ⟨hlength, _, hslots⟩ := hselects.single mem_cons_self
    have hfresh := (nodup_cons.mp hselects.keys).1
    rcases mem_cons.mp hshare with rfl | hshare
    · have hall : (sampleFromSingleTaskPool draws positive share).countP
          (fun slot => slot.task = share.key) = share.count := by
        rw [← hlength, countP_eq_length]
        intro slot hslot
        simpa using (hslots slot hslot).1
      have hnone : ReplayPool.taskCount (allocation.flatMap
          (sampleFromSingleTaskPool draws positive)) share.key = 0 :=
        hselects.tail.taskCount_eq_zero fun other hother hkey =>
          hfresh (mem_map.mpr ⟨other, hother, hkey⟩)
      rw [ReplayPool.taskCount] at hnone
      rw [hall, hnone, Nat.add_zero]
    · have hnone : (sampleFromSingleTaskPool draws positive head).countP
          (fun slot => slot.task = share.key) = 0 := by
        rw [countP_eq_zero]
        intro slot hslot hmatch
        have htask : slot.task = share.key := by simpa using hmatch
        exact hfresh (mem_map.mpr
          ⟨share, hshare, htask.symm.trans (hslots slot hslot).1⟩)
      rw [hnone, Nat.zero_add]
      exact ih hselects.tail hshare

end

end Selects

/-- A polarity that can supply the rows supplies them fairly. -/
theorem sampleFromTaskPools_law
    (hdraws : ∀ task, (draws.task positive task).Perm
      (range (pool.ring task positive).size))
    (hcount : count ≤ totalSize pool.taskPools positive) :
    ∃ slots, sampleFromTaskPools pool draws count positive = .ok slots ∧
      PolarityLaw pool positive count slots := by
  by_cases hzero : count = 0
  · subst hzero
    refine ⟨[], if_pos rfl, ?_⟩
    constructor <;> simp [taskCount]
  · obtain ⟨allocation, hallocation, hsizes, htotal, hle, hfair⟩ :=
      allocateCountsAcrossTasks_spec hcount
    have hmem : ∀ share ∈ allocation,
        share.size = (pool.ring share.key positive).size ∧ 0 < share.size := by
      intro share hshare
      apply mem_sizes_taskShares.mp
      rw [← hsizes]
      exact mem_map_of_mem
        (f := fun share : Share String => (share.key, share.size)) hshare
    have hkeys : (allocation.map (·.key)).Nodup := by
      have hnodup : ((Share.sizes (pool.taskShares positive)).map
          (·.1)).Nodup := nodup_keys_taskShares
      rw [← hsizes, Share.sizes, map_map] at hnodup
      exact hnodup
    have hselects : Selects pool draws positive allocation :=
      ⟨hdraws, fun share hshare => (hmem share hshare).1, hle, hkeys⟩
    refine ⟨allocation.flatMap (sampleFromSingleTaskPool draws positive),
      ?_, ?_⟩
    · rw [sampleFromTaskPools, if_neg hzero, hallocation]
      rfl
    · constructor
      case length =>
        rw [hselects.length, htotal]
      case nodup => exact hselects.nodup
      case polarity => exact fun slot hslot => (hselects.mem hslot).1
      case stored => exact fun slot hslot => (hselects.mem hslot).2.1
      case fair =>
        intro ahead behind hroom
        have hbehind : ∃ share ∈ allocation, share.key = behind := by
          have hsize : (behind, (pool.ring behind positive).size) ∈
              Share.sizes allocation := by
            rw [hsizes, mem_sizes_taskShares]
            exact ⟨rfl, by omega⟩
          obtain ⟨share, hshare, heq⟩ := mem_map.mp hsize
          exact ⟨share, hshare, (Prod.mk.inj heq).1⟩
        obtain ⟨last, hlast, rfl⟩ := hbehind
        rw [hselects.taskCount hlast] at hroom ⊢
        by_cases hahead : ∃ share ∈ allocation, share.key = ahead
        · obtain ⟨first, hfirst, rfl⟩ := hahead
          rw [hselects.taskCount hfirst]
          apply hfair first hfirst last hlast
          rw [hselects.size last hlast]
          exact hroom
        · rw [hselects.taskCount_eq_zero]
          · exact Nat.zero_le _
          · intro share hshare hkey
            exact hahead ⟨share, hshare, hkey⟩

end Polarity

/-! ## A whole sample -/

def ofPolarity (slots : List ReplaySlot) (positive : Bool) : List ReplaySlot :=
  slots.filter fun slot => slot.positive = positive

/-- What a sample of this size is made of, if `target` positive rows are
asked for. -/
structure SampleLaw [Inhabited D] (pool : ReplayPool D) (batchSize : ℕ)
    (target : ℤ) (rows : List (ReplayRow D)) (slots : List ReplaySlot) :
    Prop where
  content : ∃ padding : ReplayRow D, padding.valid = 0 ∧
    rows.Perm (slots.map pool.rowAt ++
      replicate (batchSize - slots.length) padding)
  length : rows.length = batchSize
  valid : ∀ slot ∈ slots, (pool.rowAt slot).isValid = true
  nodup : slots.Nodup
  stored : ∀ slot ∈ slots,
    slot.index < (pool.ring slot.task slot.positive).size
  counts : CountLaw pool.positiveSize pool.negativeSize batchSize target
    (ofPolarity slots true).length (ofPolarity slots false).length
  total : slots.length = min batchSize pool.size
  fair : ∀ positive ahead behind,
    taskCount (ofPolarity slots positive) behind <
        (pool.ring behind positive).size →
      taskCount (ofPolarity slots positive) ahead ≤
        taskCount (ofPolarity slots positive) behind + 1

section Sample

variable [Inhabited D] {normalizeTaskId : τ → String} {pool : ReplayPool D}
  {draws : SampleDraws} {batchSize : ℕ}

theorem select_perm {rows : List (ReplayRow D)} {positions : List ℕ}
    (hpositions : positions.Perm (range rows.length)) :
    (positions.map fun i => rows.getD i default).Perm rows := by
  have hall : (range rows.length).map (fun i => rows.getD i default) =
      rows := by
    apply ext_getElem
    · simp
    · intro i _ hi
      rw [getElem_map, getElem_range, getD_eq_getElem _ _ hi]
  have hmap := hpositions.map fun i => rows.getD i default
  rw [hall] at hmap
  exact hmap

theorem length_padSampledBatch {rows : List (ReplayRow D)}
    (hlength : rows.length ≤ batchSize) :
    (padSampledBatch rows batchSize).length = batchSize := by
  simp [padSampledBatch, Nat.add_sub_cancel' hlength]

theorem ofPolarity_append
    (hpositives : ∀ slot ∈ positives, slot.positive = true)
    (hnegatives : ∀ slot ∈ negatives, slot.positive = false) :
    ofPolarity (positives ++ negatives) true = positives ∧
      ofPolarity (positives ++ negatives) false = negatives := by
  have hall : ∀ {slots : List ReplaySlot} {positive : Bool},
      (∀ slot ∈ slots, slot.positive = positive) →
      ofPolarity slots positive = slots ∧
        ofPolarity slots (!positive) = [] := by
    intro slots positive hslots
    constructor
    · rw [ofPolarity, filter_eq_self]
      intro slot hslot
      simpa using hslots slot hslot
    · rw [ofPolarity, filter_eq_nil_iff]
      intro slot hslot
      simp [hslots slot hslot]
  have hfirst := hall hpositives
  have hlast := hall hnegatives
  unfold ofPolarity at hfirst hlast ⊢
  rw [filter_append, filter_append]
  constructor
  · rw [hfirst.1]
    simpa using hlast.2
  · rw [hlast.1]
    simpa using hfirst.2

/-- A positive-only pool has no negative rows. -/
theorem Sound.negativeSize_eq_zero (hsound : Sound pool)
    (honly : pool.positiveOnly = true) : pool.negativeSize = 0 := by
  rw [hsound.negativeSize, totalSize, sum_eq_zero_iff]
  intro size hsize
  obtain ⟨⟨task, state⟩, hentry, rfl⟩ := mem_map.mp hsize
  obtain ⟨rows, hholds, _⟩ := hsound.rings task false
  have hring : pool.ring task false = state.ring false := by
    rw [ring, AList.mem_lookup_iff.mpr hentry, Option.getD_some]
  have hzero := hholds.size
  rw [ringCapacity, honly, hring] at hzero
  simpa using hzero

/-- Every sample from a reachable pool with stored rows obeys the law, with
the ratio clamped to the unit interval. -/
theorem sampleBatch_law {product : Product} (hproduct : product.Bounded)
    (hpool : Reachable normalizeTaskId pool) (hsize : 0 < pool.size)
    (hbatch : 0 < batchSize) (ratio : ℚ)
    (hdraws : ValidDraws pool batchSize draws) :
    ∃ rows info slots,
      pool.sampleBatch product batchSize ratio draws = .ok (rows, info) ∧
      SampleLaw pool batchSize
        (pyRound (product batchSize (clampedRatio ratio))) rows slots := by
  have hsound := hpool.sound
  obtain ⟨htarget, hround⟩ := targetPositive_le hproduct pool.positiveOnly
    batchSize ratio
  have hcounts := sampleCounts_law htarget pool.positiveSize
    pool.negativeSize
  rw [hround] at hcounts
  have hpositive := hcounts.positive_le
  rw [hsound.positiveSize] at hpositive
  have hnegative := hcounts.negative_le
  rw [hsound.negativeSize] at hnegative
  obtain ⟨positives, hpositives, hplaw⟩ :=
    sampleFromTaskPools_law (hdraws.task true) hpositive
  obtain ⟨negatives, hnegatives, hnlaw⟩ :=
    sampleFromTaskPools_law (hdraws.task false) hnegative
  rw [← hsound.positiveSize] at hpositives hplaw
  rw [← hsound.negativeSize] at hnegatives hnlaw
  have hlength : (positives ++ negatives).length =
      min batchSize pool.size := by
    rw [length_append, hplaw.length, hnlaw.length, hcounts.total, hsound.size]
  have hshort : ((positives ++ negatives).map pool.rowAt).length ≤
      batchSize := by
    rw [length_map, hlength]
    exact Nat.min_le_left _ _
  have hpadded := length_padSampledBatch hshort
  have hshuffle := hdraws.shuffle
  rw [← hpadded] at hshuffle
  obtain ⟨hofPositive, hofNegative⟩ :=
    ofPolarity_append hplaw.polarity hnlaw.polarity
  have hresult : pool.sampleBatch product batchSize ratio draws =
      .ok (draws.shuffle.map fun i => (padSampledBatch
          ((positives ++ negatives).map pool.rowAt) batchSize).getD i default,
        pool.sampleInfo ((sampleCounts pool.positiveSize pool.negativeSize
          batchSize (targetPositive product pool.positiveOnly batchSize
            ratio)).1 / (max batchSize 1 : ℕ))) := by
    have hsome : 0 < (sampleCounts pool.positiveSize pool.negativeSize
        batchSize (targetPositive product pool.positiveOnly batchSize
          ratio)).1 + (sampleCounts pool.positiveSize pool.negativeSize
        batchSize (targetPositive product pool.positiveOnly batchSize
          ratio)).2 := by
      rw [hcounts.total, ← hsound.size]
      omega
    rw [sampleBatch, if_neg (by omega)]
    simp only [hpositives, hnegatives, require_of hsome]
    rfl
  refine ⟨_, _, positives ++ negatives, hresult, ?_⟩
  have hperm := select_perm hshuffle
  have hstored : ∀ slot ∈ positives ++ negatives,
      slot.index < (pool.ring slot.task slot.positive).size := by
    intro slot hslot
    rcases mem_append.mp hslot with hslot | hslot
    · rw [hplaw.polarity slot hslot]
      exact hplaw.stored slot hslot
    · rw [hnlaw.polarity slot hslot]
      exact hnlaw.stored slot hslot
  constructor
  case content =>
    refine ⟨{ ((positives ++ negatives).map pool.rowAt).headD default with
      valid := 0 }, rfl, ?_⟩
    have hmapped : (positives ++ negatives).length =
        ((positives ++ negatives).map pool.rowAt).length := by
      rw [length_map]
    rw [hmapped]
    exact hperm
  case length => rw [hperm.length_eq, hpadded]
  case valid => exact fun slot hslot => isValid_rowAt hsound (hstored slot hslot)
  case nodup =>
    apply hplaw.nodup.append hnlaw.nodup
    intro slot hfirst hlast
    have hsame := hplaw.polarity slot hfirst
    rw [hnlaw.polarity slot hlast] at hsame
    cases hsame
  case stored => exact hstored
  case counts =>
    rw [hofPositive, hofNegative, hplaw.length, hnlaw.length]
    cases honly : pool.positiveOnly with
    | false =>
        rw [honly] at hcounts
        exact hcounts
    | true =>
        have hzero := hsound.negativeSize_eq_zero honly
        rw [honly, hzero] at hcounts
        rw [hzero]
        exact hcounts.of_no_negatives (hproduct.target batchSize ratio).2
  case total => exact hlength
  case fair =>
    intro positive
    cases positive with
    | true =>
        rw [hofPositive]
        exact hplaw.fair
    | false =>
        rw [hofNegative]
        exact hnlaw.fair

end Sample

/-! ## A ratio outside the unit interval -/

def exactProduct : Product := fun batchSize ratio => batchSize * ratio

theorem exactProduct_bounded : exactProduct.Bounded := by
  intro batchSize ratio hnonneg hle
  have hsize : (0 : ℚ) ≤ batchSize := Nat.cast_nonneg batchSize
  constructor
  · exact mul_nonneg hsize hnonneg
  · exact mul_le_of_le_one_right hsize hle

def fiveSuccesses : ReplayPool ℕ :=
  (create 8 false).addAll id [successBatch [0, 1, 2, 3, 4]]

theorem fiveSuccesses_added : (create 8 false : ReplayPool ℕ).addBatch id
    (successBatch [0, 1, 2, 3, 4]) = .ok fiveSuccesses := by
  rfl

theorem fiveSuccesses_reachable :
    Reachable (id : String → String) fiveSuccesses :=
  .addBatch (.create (by decide) false) fiveSuccesses_added

/-- The draws that leave every order as it is. -/
def identityDraws (pool : ReplayPool ℕ) (batchSize : ℕ) : SampleDraws where
  task positive task := range (pool.ring task positive).size
  shuffle := range batchSize

theorem identityDraws_valid (pool : ReplayPool ℕ) (batchSize : ℕ) :
    ValidDraws pool batchSize (identityDraws pool batchSize) :=
  ⟨fun _ _ => Perm.refl _, Perm.refl _⟩

/-- With ratio two, twice the batch is asked for; the pool could supply that
many positive rows. -/
theorem clamped_ratio_misses_target :
    ∃ rows info, fiveSuccesses.sampleBatch exactProduct 2 2
        (identityDraws fiveSuccesses 2) = .ok (rows, info) ∧
      ∀ slots, ¬SampleLaw fiveSuccesses 2 (pyRound (exactProduct 2 2)) rows
        slots := by
  have hsome : (fiveSuccesses.sampleBatch exactProduct 2 2
      (identityDraws fiveSuccesses 2)).toOption.isSome := by
    decide +kernel
  refine ⟨_, _, ok_get_toOption hsome, ?_⟩
  intro slots hlaw
  have hround : pyRound (exactProduct 2 2) = 4 := by decide +kernel
  have hpositive : fiveSuccesses.positiveSize = 5 := by decide +kernel
  have htotal := hlaw.counts.total
  have hshort := hlaw.counts.positive_short
  rw [hround, hpositive] at hshort
  rw [hpositive] at htotal
  omega

theorem sampleBatch_law_half : ∃ rows info slots,
    fiveSuccesses.sampleBatch exactProduct 8 (1 / 2)
        (identityDraws fiveSuccesses 8) = .ok (rows, info) ∧
      SampleLaw fiveSuccesses 8
        (pyRound (exactProduct 8 (clampedRatio (1 / 2)))) rows slots :=
  sampleBatch_law exactProduct_bounded fiveSuccesses_reachable
    (by decide +kernel) (by decide) (1 / 2)
    (identityDraws_valid fiveSuccesses 8)

end ReplayPool
end VerlVla
