import Mathlib.Data.Rat.Defs
import VerlVla.RingBuffer
import VerlVla.Tensor

/-!
# The SAC replay pool

Transitions are kept by task and by polarity, each in a ring of its own.  A
positive-only pool relabels every transition as a success and has no negative
rings.
-/

namespace VerlVla

variable {τ D : Type}

structure ReplayRow (D : Type) where
  valid : ℚ
  successMask : List ℚ
  data : D
  deriving DecidableEq

namespace ReplayRow

instance [Inhabited D] : Inhabited (ReplayRow D) where
  default :=
    { valid := 0
      successMask := []
      data := default }

def isValid (row : ReplayRow D) : Bool := row.valid ≠ 0

def isSuccess (row : ReplayRow D) : Bool :=
  row.successMask.any fun flag => flag ≠ 0

/-- The row as the pool stores it. -/
def relabel (positiveOnly : Bool) (row : ReplayRow D) : ReplayRow D :=
  if positiveOnly then
    { row with successMask := row.successMask.map fun _ => 1 }
  else row

def isPositive (positiveOnly : Bool) (row : ReplayRow D) : Bool :=
  positiveOnly || row.isSuccess

end ReplayRow

structure DualPoolState (D : Type) where
  positive : Ring (ReplayRow D)
  negative : Ring (ReplayRow D)

def DualPoolState.ring (state : DualPoolState D) (positive : Bool) :
    Ring (ReplayRow D) :=
  if positive then state.positive else state.negative

structure ReplayPool (D : Type) where
  singlePoolCapacity : ℕ
  positiveOnly : Bool
  taskPools : Dict (DualPoolState D)
  size : ℕ
  positiveSize : ℕ
  negativeSize : ℕ
  invalidSample : Option (ReplayRow D)

structure PoolBatch (τ D : Type) where
  rows : List (ReplayRow D)
  taskIds : List τ

inductive AddError
  | taskIdsLength (taskIds batch : ℕ)
  deriving DecidableEq

structure TaskGroup (D : Type) where
  positive : List (ReplayRow D)
  negative : List (ReplayRow D)

def TaskGroup.rows (group : TaskGroup D) (positive : Bool) :
    List (ReplayRow D) :=
  if positive then group.positive else group.negative

def TaskGroup.append (positiveOnly : Bool) (row : ReplayRow D)
    (group : TaskGroup D) : TaskGroup D :=
  if row.isPositive positiveOnly then
    { group with positive := group.positive ++ [row] }
  else { group with negative := group.negative ++ [row] }

namespace ReplayPool

def create (singlePoolCapacity : ℕ) (positiveOnly : Bool) : ReplayPool D where
  singlePoolCapacity := singlePoolCapacity
  positiveOnly := positiveOnly
  taskPools := ∅
  size := 0
  positiveSize := 0
  negativeSize := 0
  invalidSample := none

/-! ## Adding a batch -/

def groupRow (positiveOnly : Bool) (groups : Dict (TaskGroup D))
    (entry : ReplayRow D × String) : Dict (TaskGroup D) :=
  (groups.setDefault entry.2 ⟨[], []⟩).modify entry.2
    (TaskGroup.append positiveOnly entry.1)

def groupRows (positiveOnly : Bool) (rows : List (ReplayRow D × String)) :
    Dict (TaskGroup D) :=
  rows.foldl (groupRow positiveOnly) ∅

def insertBlockToPool (capacity : ℕ) (ring : Ring (ReplayRow D))
    (source : List (ReplayRow D)) : Ring (ReplayRow D) :=
  if source.isEmpty then ring else ring.insert capacity source

def emptyTaskPool [Inhabited D] (capacity : ℕ) (positiveOnly : Bool) :
    DualPoolState D where
  positive := Ring.create capacity
  negative := Ring.create (if positiveOnly then 0 else capacity)

def insertGroup (capacity : ℕ) (positiveOnly : Bool) (group : TaskGroup D)
    (state : DualPoolState D) : DualPoolState D where
  positive := insertBlockToPool capacity state.positive group.positive
  negative := if positiveOnly then state.negative
    else insertBlockToPool capacity state.negative group.negative

def insertTask [Inhabited D] (capacity : ℕ) (positiveOnly : Bool)
    (pools : Dict (DualPoolState D)) (entry : Σ _ : String, TaskGroup D) :
    Dict (DualPoolState D) :=
  (pools.setDefault entry.1 (emptyTaskPool capacity positiveOnly)).modify
    entry.1 (insertGroup capacity positiveOnly entry.2)

def totalSize (pools : Dict (DualPoolState D)) (positive : Bool) : ℕ :=
  (pools.entries.map fun entry => (entry.2.ring positive).size).sum

def refreshGlobalStats (pool : ReplayPool D) : ReplayPool D := { pool with
    positiveSize := totalSize pool.taskPools true
    negativeSize := totalSize pool.taskPools false
    size := totalSize pool.taskPools true + totalSize pool.taskPools false }

def validEntries (normalizeTaskId : τ → String) (positiveOnly : Bool)
    (batch : PoolBatch τ D) : List (ReplayRow D × String) :=
  ((batch.rows.zip batch.taskIds).filter fun entry => entry.1.isValid).map
    fun entry => (entry.1.relabel positiveOnly, normalizeTaskId entry.2)

def addBatch [Inhabited D] (normalizeTaskId : τ → String)
    (pool : ReplayPool D) (batch : PoolBatch τ D) :
    Except AddError (ReplayPool D) :=
  if batch.rows.isEmpty then .ok pool
  else do
    require (batch.taskIds.length = batch.rows.length)
      (.taskIdsLength batch.taskIds.length batch.rows.length)
    let rows := validEntries normalizeTaskId pool.positiveOnly batch
    if rows.isEmpty then
      pure { pool with
        invalidSample :=
          if pool.size = 0 ∧ pool.invalidSample.isNone then batch.rows.head?
          else pool.invalidSample }
    else
      let taskPools := (groupRows pool.positiveOnly rows).entries.foldl
        (insertTask pool.singlePoolCapacity pool.positiveOnly) pool.taskPools
      pure { pool with taskPools := taskPools }.refreshGlobalStats

/-- A call that raises leaves the pool as it was. -/
def addAll [Inhabited D] (normalizeTaskId : τ → String)
    (pool : ReplayPool D) (batches : List (PoolBatch τ D)) :
    ReplayPool D :=
  batches.foldl (fun pool batch =>
    (pool.addBatch normalizeTaskId batch).toOption.getD pool) pool

/-! ## One ring -/

def ring [Inhabited D] (pool : ReplayPool D) (task : String)
    (positive : Bool) : Ring (ReplayRow D) :=
  ((pool.taskPools.lookup task).getD
    (emptyTaskPool pool.singlePoolCapacity pool.positiveOnly)).ring positive

def blockOf (positiveOnly : Bool) (entries : List (ReplayRow D × String))
    (task : String) (positive : Bool) : List (ReplayRow D) :=
  (entries.filter fun entry =>
    entry.2 = task ∧ entry.1.isPositive positiveOnly = positive).map (·.1)

def block (normalizeTaskId : τ → String) (positiveOnly : Bool)
    (batch : PoolBatch τ D) (task : String) (positive : Bool) :
    List (ReplayRow D) :=
  if batch.taskIds.length = batch.rows.length then
    blockOf positiveOnly (validEntries normalizeTaskId positiveOnly batch)
      task positive
  else []

section Blocks

variable {positiveOnly : Bool} {entries : List (ReplayRow D × String)}
  {task : String} {positive : Bool}

theorem blockOf_append (later : List (ReplayRow D × String)) :
    blockOf positiveOnly (entries ++ later) task positive =
      blockOf positiveOnly entries task positive ++
        blockOf positiveOnly later task positive := by
  rw [blockOf, List.filter_append, List.map_append]
  rfl

theorem lookup_groupRows : (groupRows positiveOnly entries).lookup task =
    if ∃ entry ∈ entries, entry.2 = task then
      some ⟨blockOf positiveOnly entries task true,
        blockOf positiveOnly entries task false⟩
    else none := by
  induction entries using List.reverseRecOn with
  | nil => simp [groupRows]
  | append_singleton entries entry ih =>
    have hfold : groupRows positiveOnly (entries ++ [entry]) =
        groupRow positiveOnly (groupRows positiveOnly entries) entry := by
      rw [groupRows, List.foldl_append]
      rfl
    rw [hfold, groupRow, Dict.lookup_modify]
    by_cases htask : task = entry.2
    · have hmem : ∃ other ∈ entries ++ [entry], other.2 = task :=
        ⟨entry, by simp, htask.symm⟩
      rw [if_pos htask, if_pos hmem, Dict.lookup_setDefault, if_pos rfl,
        ← htask, ih, blockOf_append, blockOf_append]
      have hblocks : (if ∃ other ∈ entries, other.2 = task then
          some (⟨blockOf positiveOnly entries task true,
            blockOf positiveOnly entries task false⟩ : TaskGroup D)
          else none).getD ⟨[], []⟩ =
          ⟨blockOf positiveOnly entries task true,
            blockOf positiveOnly entries task false⟩ := by
        split_ifs with hany
        · rfl
        · have hnone : ∀ positive,
              blockOf positiveOnly entries task positive = [] := by
            intro positive
            rw [blockOf, List.map_eq_nil_iff, List.filter_eq_nil_iff]
            intro other hother hmatch
            simp only [decide_eq_true_eq] at hmatch
            exact hany ⟨other, hother, hmatch.1⟩
          rw [hnone, hnone]
          rfl
      rw [hblocks, Option.map_some, TaskGroup.append]
      cases hpositive : entry.1.isPositive positiveOnly with
      | true | false => simp [blockOf, htask, hpositive]
    · have hblock : ∀ positive,
          blockOf positiveOnly [entry] task positive = [] := by
        intro positive
        simp [blockOf, Ne.symm htask]
      have hmem : (∃ other ∈ entries ++ [entry], other.2 = task) ↔
          ∃ other ∈ entries, other.2 = task := by
        simp [Ne.symm htask]
      rw [if_neg htask, Dict.lookup_setDefault, if_neg htask, ih,
        blockOf_append, blockOf_append, hblock, hblock, List.append_nil,
        List.append_nil]
      simp only [hmem]

end Blocks

end ReplayPool
end VerlVla
