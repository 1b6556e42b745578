import VerlVla.ReplayPool

/-!
# The most recent transitions

Every ring of the pool holds the last transitions that were written to it.  A
block that is longer than the capacity is cut before it is written, so the
ring holds the most recent transitions of its task and polarity as long as no
block is that long.
-/

namespace VerlVla

open List hiding cons nil
namespace ReplayPool

variable {τ D : Type}

/-! ## One batch -/

section Blocks

variable {capacity : ℕ} {positiveOnly : Bool} {task : String}
  {positive : Bool}

theorem ring_insertGroup {group : TaskGroup D} {state : DualPoolState D}
    (hnegative : positiveOnly = true → group.negative = []) :
    (insertGroup capacity positiveOnly group state).ring positive =
      insertBlockToPool capacity (state.ring positive)
        (group.rows positive) := by
  cases positive with
  | true => rfl
  | false =>
    cases positiveOnly with
    | false => rfl
    | true =>
      rw [TaskGroup.rows, if_neg Bool.false_ne_true, hnegative rfl]
      rfl

theorem blockOf_positiveOnly (entries : List (ReplayRow D × String)) :
    blockOf true entries task false = [] := by
  simp [blockOf, ReplayRow.isPositive]

theorem blockOf_of_not_mem {entries : List (ReplayRow D × String)}
    (hmem : ¬∃ entry ∈ entries, entry.2 = task) :
    blockOf positiveOnly entries task positive = [] := by
  rw [blockOf, map_eq_nil_iff, filter_eq_nil_iff]
  intro entry hentry hmatch
  simp only [decide_eq_true_eq] at hmatch
  exact hmem ⟨entry, hentry, hmatch.1⟩

end Blocks

section Batch

variable [Inhabited D] {normalizeTaskId : τ → String}
  {pool next : ReplayPool D} {batch : PoolBatch τ D}
  {capacity : ℕ} {positiveOnly : Bool} {task : String} {positive : Bool}

/-- Every task that has a group gets it inserted, and no other pool
changes. -/
theorem lookup_insertTasks {entries : List (Σ _ : String, TaskGroup D)}
    (hnodup : entries.NodupKeys) (pools : Dict (DualPoolState D)) :
    (entries.foldl (insertTask capacity positiveOnly) pools).lookup task =
      match dlookup task entries with
      | none => pools.lookup task
      | some group => some (insertGroup capacity positiveOnly group
          ((pools.lookup task).getD
            (emptyTaskPool capacity positiveOnly))) := by
  induction entries generalizing pools with
  | nil => rfl
  | cons entry entries ih =>
    obtain ⟨hfresh, hrest⟩ := nodupKeys_cons.mp hnodup
    rw [foldl_cons, ih hrest, insertTask, Dict.lookup_modify,
      Dict.lookup_setDefault, Dict.lookup_setDefault]
    obtain ⟨name, group⟩ := entry
    by_cases htask : task = name
    · subst htask
      have hnone : dlookup task entries = none := dlookup_eq_none.mpr hfresh
      rw [hnone, dlookup_cons_eq]
      simp
    · rw [dlookup_cons_ne _ _ htask, if_neg htask, if_neg htask]

section

variable (hadd : pool.addBatch normalizeTaskId batch = .ok next)

include hadd

theorem addBatch_cases : (batch.rows = [] ∧ next = pool) ∨
    (batch.taskIds.length = batch.rows.length ∧
      validEntries normalizeTaskId pool.positiveOnly batch = [] ∧
      next = { pool with
        invalidSample :=
          if pool.size = 0 ∧ pool.invalidSample.isNone then batch.rows.head?
          else pool.invalidSample }) ∨
    (batch.taskIds.length = batch.rows.length ∧ next = { pool with
        taskPools := (groupRows pool.positiveOnly (validEntries
          normalizeTaskId pool.positiveOnly batch)).entries.foldl
            (insertTask pool.singlePoolCapacity pool.positiveOnly)
            pool.taskPools }.refreshGlobalStats) := by
  unfold addBatch at hadd
  by_cases hempty : batch.rows.isEmpty
  · rw [if_pos hempty] at hadd
    cases hadd
    exact .inl ⟨List.isEmpty_iff.mp hempty, rfl⟩
  · rw [if_neg hempty, require_bind_eq_ok] at hadd
    obtain ⟨hlength, hadd⟩ := hadd
    by_cases hvalid :
        (validEntries normalizeTaskId pool.positiveOnly batch).isEmpty
    · simp only [hvalid, if_true] at hadd
      cases hadd
      exact .inr (.inl ⟨hlength, List.isEmpty_iff.mp hvalid, rfl⟩)
    · simp only [hvalid, Bool.false_eq_true, if_false] at hadd
      cases hadd
      exact .inr (.inr ⟨hlength, rfl⟩)

theorem addBatch_config : next.singlePoolCapacity = pool.singlePoolCapacity ∧
      next.positiveOnly = pool.positiveOnly := by
  rcases addBatch_cases hadd with ⟨_, rfl⟩ | ⟨_, _, rfl⟩ | ⟨_, rfl⟩
  · exact ⟨rfl, rfl⟩
  · exact ⟨rfl, rfl⟩
  · exact ⟨rfl, rfl⟩

theorem ring_addBatch :
    next.ring task positive = insertBlockToPool pool.singlePoolCapacity
      (pool.ring task positive)
      (block normalizeTaskId pool.positiveOnly batch task positive) := by
  rcases addBatch_cases hadd with ⟨hempty, rfl⟩ | ⟨hlength, hnone, rfl⟩ |
    ⟨hlength, rfl⟩
  · have hblock : block normalizeTaskId next.positiveOnly batch task
        positive = [] := by
      simp [block, validEntries, hempty, blockOf]
    rw [hblock]
    rfl
  · rw [block, if_pos hlength, hnone]
    rfl
  · rw [block, if_pos hlength]
    unfold ring refreshGlobalStats
    dsimp only
    rw [lookup_insertTasks (groupRows _ _).nodupKeys]
    have hlookup : dlookup task (groupRows pool.positiveOnly
        (validEntries normalizeTaskId pool.positiveOnly batch)).entries = _ :=
      lookup_groupRows
    rw [hlookup]
    split_ifs with hmem
    · dsimp only
      rw [Option.getD_some, ring_insertGroup]
      · cases positive with
        | true | false => rfl
      · intro honly
        rw [honly]
        exact blockOf_positiveOnly _
    · rw [blockOf_of_not_mem hmem]
      rfl

end

end Batch

/-! ## Whole runs -/

/-- The rows of one task and polarity that were ever added. -/
def history (normalizeTaskId : τ → String) (positiveOnly : Bool)
    (batches : List (PoolBatch τ D)) (task : String) (positive : Bool) :
    List (ReplayRow D) :=
  (batches.map fun batch =>
    block normalizeTaskId positiveOnly batch task positive).flatten

/-- Those that were written; a block is cut at the capacity. -/
def written (normalizeTaskId : τ → String) (positiveOnly : Bool)
    (capacity : ℕ) (batches : List (PoolBatch τ D)) (task : String)
    (positive : Bool) : List (ReplayRow D) :=
  (batches.map fun batch =>
    (block normalizeTaskId positiveOnly batch task positive).take
      capacity).flatten

def ringCapacity (capacity : ℕ) (positiveOnly positive : Bool) : ℕ :=
  if positive || !positiveOnly then capacity else 0

theorem block_positiveOnly {normalizeTaskId : τ → String}
    (batch : PoolBatch τ D) :
    block normalizeTaskId true batch task false = [] := by
  rw [block]
  split_ifs
  · exact blockOf_positiveOnly _
  · rfl

theorem holds_insertBlockToPool {ring : Ring (ReplayRow D)}
    (hcapacity : 0 < capacity) (hholds : ring.Holds capacity rows)
    (source : List (ReplayRow D)) :
    (insertBlockToPool capacity ring source).Holds capacity
      (rows ++ source.take capacity) := by
  cases source with
  | nil => simpa [insertBlockToPool] using hholds
  | cons row source => exact hholds.insert (row :: source) hcapacity

section Runs

variable [Inhabited D] (normalizeTaskId : τ → String)

theorem block_of_error {pool : ReplayPool D} {batch : PoolBatch τ D}
    (hadd : pool.addBatch normalizeTaskId batch = .error error) :
    block normalizeTaskId pool.positiveOnly batch task positive = [] := by
  unfold addBatch at hadd
  by_cases hempty : batch.rows.isEmpty
  · rw [if_pos hempty] at hadd
    cases hadd
  · rw [if_neg hempty, bind_eq_error] at hadd
    rcases hadd with hlength | ⟨_, _, hadd⟩
    · exact if_neg (require_eq_error.mp hlength).1
    · dsimp only at hadd
      split_ifs at hadd <;> cases hadd

theorem addOne (pool : ReplayPool D) (batch : PoolBatch τ D) :
    let next := (pool.addBatch normalizeTaskId batch).toOption.getD pool
    next.singlePoolCapacity = pool.singlePoolCapacity ∧
      next.positiveOnly = pool.positiveOnly ∧
      ∀ task positive, next.ring task positive =
        insertBlockToPool pool.singlePoolCapacity (pool.ring task positive)
          (block normalizeTaskId pool.positiveOnly batch task positive) := by
  cases hadd : pool.addBatch normalizeTaskId batch with
  | error error =>
    refine ⟨rfl, rfl, ?_⟩
    intro task positive
    rw [block_of_error normalizeTaskId hadd]
    rfl
  | ok next =>
    obtain ⟨hcapacity, honly⟩ := addBatch_config hadd
    exact ⟨hcapacity, honly, fun _ _ => ring_addBatch hadd⟩

theorem addAll_snoc (pool : ReplayPool D)
    (batches : List (PoolBatch τ D)) (batch : PoolBatch τ D) :
    pool.addAll normalizeTaskId (batches ++ [batch]) =
      ((pool.addAll normalizeTaskId batches).addBatch normalizeTaskId
        batch).toOption.getD (pool.addAll normalizeTaskId batches) := by
  rw [addAll, foldl_append]
  rfl

theorem addAll_config (pool : ReplayPool D) (batches : List (PoolBatch τ D)) :
    (pool.addAll normalizeTaskId batches).singlePoolCapacity =
        pool.singlePoolCapacity ∧
      (pool.addAll normalizeTaskId batches).positiveOnly =
        pool.positiveOnly := by
  induction batches using reverseRecOn with
  | nil => exact ⟨rfl, rfl⟩
  | append_singleton batches batch ih =>
    obtain ⟨hcapacity, honly, _⟩ := addOne normalizeTaskId
      (pool.addAll normalizeTaskId batches) batch
    rw [addAll_snoc]
    exact ⟨hcapacity.trans ih.1, honly.trans ih.2⟩

theorem holds_addAll (hcapacity : 0 < capacity) (positiveOnly : Bool)
    (batches : List (PoolBatch τ D)) (task : String) (positive : Bool) :
    Ring.Holds (ringCapacity capacity positiveOnly positive)
      (((create capacity positiveOnly).addAll normalizeTaskId batches).ring
        task positive)
      (written normalizeTaskId positiveOnly capacity batches task
        positive) := by
  induction batches using reverseRecOn with
  | nil =>
    cases positive with
    | true => exact Ring.holds_create capacity
    | false =>
      cases positiveOnly with
      | false => exact Ring.holds_create capacity
      | true => exact Ring.holds_create 0
  | append_singleton batches batch ih =>
    have hconfig := addAll_config normalizeTaskId
      (create capacity positiveOnly : ReplayPool D) batches
    have hring := (addOne normalizeTaskId
      ((create capacity positiveOnly : ReplayPool D).addAll
        normalizeTaskId batches) batch).2.2 task positive
    rw [hconfig.1, hconfig.2] at hring
    rw [addAll_snoc, hring]
    have hwritten : written normalizeTaskId positiveOnly capacity
        (batches ++ [batch]) task positive =
        written normalizeTaskId positiveOnly capacity batches task
          positive ++ (block normalizeTaskId positiveOnly batch task
            positive).take capacity := by
      simp [written]
    rw [hwritten]
    by_cases hallocated : (positive || !positiveOnly) = true
    · rw [ringCapacity, if_pos hallocated] at ih ⊢
      exact holds_insertBlockToPool hcapacity ih _
    · have hnone : block normalizeTaskId positiveOnly batch task
          positive = [] := by
        simp only [Bool.or_eq_true, Bool.not_eq_true', not_or,
          Bool.not_eq_true, Bool.not_eq_false] at hallocated
        rw [hallocated.1, hallocated.2]
        exact block_positiveOnly batch
      show Ring.Holds _ (insertBlockToPool capacity _
        (block normalizeTaskId positiveOnly batch task positive)) _
      rw [hnone, take_nil, append_nil]
      exact ih

/-- The ring holds the most recent rows of the history, in insertion order
from the write position on. -/
structure MostRecent (capacity : ℕ) (ring : Ring (ReplayRow D))
    (rows : List (ReplayRow D)) : Prop where
  size : ring.size = min capacity rows.length
  stored : ring.stored = (rows.drop (rows.length - capacity)).rotate
    (ring.size - ring.position)
  perm : ring.stored.Perm (rows.drop (rows.length - capacity))

theorem mostRecent_written (hcapacity : 0 < capacity) (positiveOnly : Bool)
    (batches : List (PoolBatch τ D)) (task : String) (positive : Bool) :
    MostRecent capacity
      (((create capacity positiveOnly).addAll normalizeTaskId batches).ring
        task positive)
      (written normalizeTaskId positiveOnly capacity batches task
        positive) := by
  have hholds := holds_addAll normalizeTaskId hcapacity positiveOnly batches
    task positive
  by_cases hallocated : (positive || !positiveOnly) = true
  · rw [ringCapacity, if_pos hallocated] at hholds
    exact ⟨hholds.size, hholds.stored hcapacity, hholds.stored_perm hcapacity⟩
  · simp only [Bool.or_eq_true, Bool.not_eq_true', not_or,
      Bool.not_eq_true, Bool.not_eq_false] at hallocated
    obtain ⟨rfl, rfl⟩ := hallocated
    have hnone : written normalizeTaskId true capacity batches task false =
        [] := by
      simp [written, block_positiveOnly]
    have hsize := hholds.size
    rw [ringCapacity, hnone] at hsize
    have hstored : (((create capacity true).addAll normalizeTaskId
        batches).ring task false).stored = [] := by
      rw [Ring.stored, hsize]
      rfl
    rw [hnone]
    constructor
    case size => simpa using hsize
    case stored => simpa using hstored
    case perm => simp [hstored]

/-- While no batch has more rows of one task and polarity than the capacity,
every ring holds the most recent rows that were ever added, and a batch
without rows of a task and polarity does not change its stored rows. -/
theorem pool_holds_most_recent {capacity : ℕ} (hcapacity : 0 < capacity)
    (positiveOnly : Bool) (batches : List (PoolBatch τ D))
    (hblocks : ∀ batch ∈ batches, ∀ task positive,
      (block normalizeTaskId positiveOnly batch task positive).length ≤
        capacity) :
    (∀ task positive, MostRecent capacity
      (((create capacity positiveOnly).addAll normalizeTaskId batches).ring
        task positive)
      (history normalizeTaskId positiveOnly batches task positive)) ∧
    ∀ batch task positive,
      block normalizeTaskId positiveOnly batch task positive = [] →
      (((create capacity positiveOnly).addAll normalizeTaskId
        (batches ++ [batch])).ring task positive).stored =
      (((create capacity positiveOnly).addAll normalizeTaskId
        batches).ring task positive).stored := by
  constructor
  · intro task positive
    have hwritten : written normalizeTaskId positiveOnly capacity batches
        task positive =
        history normalizeTaskId positiveOnly batches task positive := by
      rw [written, history]
      congr 1
      apply map_congr_left
      intro batch hbatch
      exact take_of_length_le (hblocks batch hbatch task positive)
    rw [← hwritten]
    exact mostRecent_written normalizeTaskId hcapacity positiveOnly batches
      task positive
  · intro batch task positive hnone
    have hconfig := addAll_config normalizeTaskId
      (create capacity positiveOnly : ReplayPool D) batches
    have hring := (addOne normalizeTaskId
      ((create capacity positiveOnly : ReplayPool D).addAll
        normalizeTaskId batches) batch).2.2 task positive
    rw [hconfig.2] at hring
    rw [addAll_snoc, hring]
    show (insertBlockToPool _ _ (block normalizeTaskId positiveOnly batch
      task positive)).stored = _
    rw [hnone]
    rfl

end Runs

/-! ## A block longer than the capacity -/

def successRow (data : ℕ) : ReplayRow ℕ where
  valid := 1
  successMask := [1]
  data := data

def successBatch (rows : List ℕ) : PoolBatch String ℕ where
  rows := rows.map successRow
  taskIds := rows.map fun _ => "0"

/-- Of three rows the pool keeps the first two. -/
theorem long_block_keeps_oldest :
    (((create 2 false).addAll id [successBatch [0, 1, 2]]).ring "0"
      true).stored = [successRow 0, successRow 1] ∧
    ¬MostRecent 2
      (((create 2 false).addAll id [successBatch [0, 1, 2]]).ring "0" true)
      (history id false [successBatch [0, 1, 2]] "0" true) := by
  have hstored : (((create 2 false).addAll id
      [successBatch [0, 1, 2]]).ring "0" true).stored =
        [successRow 0, successRow 1] := by
    decide +kernel
  constructor
  · exact hstored
  · intro hrecent
    have hperm := hrecent.perm
    rw [hstored] at hperm
    have hmem := hperm.mem_iff (a := successRow 0)
    revert hmem
    decide +kernel

theorem pool_holds_most_recent_wrapped : MostRecent 2
    (((create 2 false).addAll id
      [successBatch [0, 1], successBatch [2]]).ring "0" true)
    (history id false [successBatch [0, 1], successBatch [2]] "0" true) := by
  have hblocks : ∀ batch ∈ [successBatch [0, 1], successBatch [2]],
      ∀ task positive, (block id false batch task positive).length ≤ 2 := by
    intro batch hbatch task positive
    have hlength : batch.rows.length ≤ 2 := by
      revert batch
      decide +kernel
    have hvalid : (validEntries id false batch).length ≤
        batch.rows.length := by
      rw [validEntries, length_map]
      have hzip := length_filter_le
        (fun entry : ReplayRow ℕ × String => entry.1.isValid)
        (batch.rows.zip batch.taskIds)
      rw [length_zip] at hzip
      exact hzip.trans (Nat.min_le_left _ _)
    rw [block]
    split_ifs
    · rw [blockOf, length_map]
      exact (length_filter_le _ _).trans (hvalid.trans hlength)
    · exact Nat.zero_le 2
  exact (pool_holds_most_recent id (by decide) false _ hblocks).1 "0" true

end ReplayPool
end VerlVla
