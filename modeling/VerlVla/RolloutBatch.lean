import Mathlib.Algebra.BigOperators.Fin
import Mathlib.Data.Rat.Floor
import VerlVla.Tensor

/-!
# Rollout batches

A `DataProto` groups tensors, arrays of objects and meta information under
named fields, all with one leading row per trajectory or per policy chunk.
This module flattens trajectories into chunks and compacts the valid chunks
for fixed-noise replay.  Floating point values are read as exact rationals.
-/

namespace VerlVla

inductive MetaValue where
  | flag (value : Bool)
  | integer (value : ℤ)
  | number (value : ℚ)
  | text (value : String)
  | counts (value : List (String × ℕ))
  | integers (value : List ℤ)
  deriving DecidableEq

structure DataProto (ω : Type) where
  batch : Dict (Tensor ℚ)
  nonTensorBatch : Dict (Tensor ω)
  metaInfo : Dict MetaValue

/-! ## Errors -/

inductive TrainingError (ω : Type) where
  | library (message : String)
  | missingField (key : String)
  | tooFewAxes (key : String)
  | nonPositiveSizes (actorWorldSize microBatchSize : ℤ)
  | validsNotTrajectoryShaped
  | weightsNotTrajectoryShaped
  | validChunkWithoutWeight
  | weightOnPadding
  | noValidChunk
  | notDivisible
  | validCountChanged
  | validMaskDisagrees
  | groupsNotAligned (rollouts endObservations : ℕ)
  | terminalTensorMissing (field : String) (group : ℕ)
  | terminalArrayMissing (field : String) (group : ℕ)
  | fieldContract (group : ℕ)
  | noPolicyCalls (group : ℕ)
  | tensorLeading (key : String) (group batchSize steps : ℕ)
      (shape : List ℕ)
  | terminalTensorShape (field : String) (group : ℕ)
      (shape expected : List ℕ)
  | arrayLeading (key : String) (group batchSize steps : ℕ)
      (shape : List ℕ)
  | terminalArrayShape (key : String) (group : ℕ)
      (shape expected : List ℕ)
  | recordsAmbiguous
  | unknownReduction (reduction : String)
  | trajectoryCount (expected groups groupSize got : ℕ)
  | mixedPolicyVersions (versions : List ℤ)
  | groupIdsDisagree
  | rewardFieldMissing (source key : String)
  | outcomeShape (expected : ℕ) (shape : List ℕ)
  | rewardsDisagree (groupId : ω)
  | successWithoutPositiveAdvantage
  | failureWithoutNegativeAdvantage
  | advantagesNotNormalized (groupId : ω)
  | trajectoryWithoutValidChunk
  | trajectoryWeight
  | taskNameMissing
  | groupWeights
  | taskWeight (task : String) (weight : ℚ) (groupSize : ℕ)
  | observationShape (key field : String) (shape endShape : List ℕ)
  | processScoreMissing
  | rewardChunkLength (got actionLength : ℕ)
  | nativeActionHorizon (horizon actionLength : ℕ)
  | scoreShape (scores dones : List ℕ)

namespace DataProto

variable {ω : Type}

def length (data : DataProto ω) : ℕ :=
  match data.batch.entries, data.nonTensorBatch.entries with
  | ⟨_, tensor⟩ :: _, _ => tensor.rows
  | [], ⟨_, array⟩ :: _ => array.rows
  | [], [] => 0

/-- Every field has this many leading rows. -/
structure HasRows (data : DataProto ω) (n : ℕ) : Prop where
  tensors : ∀ key tensor, data.batch.lookup key = some tensor →
    tensor.shape.head? = some n
  arrays : ∀ key array, data.nonTensorBatch.lookup key = some array →
    array.shape.head? = some n

structure SameFields (data other : DataProto ω) : Prop where
  tensors : ∀ key, (data.batch.lookup key).map (·.shape.tail) =
    (other.batch.lookup key).map (·.shape.tail)
  arrays : ∀ key, (data.nonTensorBatch.lookup key).map (·.shape.tail) =
    (other.nonTensorBatch.lookup key).map (·.shape.tail)
  metaInfo : data.metaInfo = other.metaInfo

structure Row (ω : Type) where
  tensors : String → Option (Tensor ℚ)
  arrays : String → Option (Tensor ω)

def row (data : DataProto ω) (i : ℕ) : Row ω where
  tensors key := (data.batch.lookup key).map (·.row i)
  arrays key := (data.nonTensorBatch.lookup key).map (·.row i)

def tensorsAt (protos : List (DataProto ω)) (key : String) :
    Option (List (Tensor ℚ)) :=
  protos.mapM fun data => data.batch.lookup key

def arraysAt (protos : List (DataProto ω)) (key : String) :
    Option (List (Tensor ω)) :=
  protos.mapM fun data => data.nonTensorBatch.lookup key

theorem rows_of_head {α : Type} {tensor : Tensor α} {n : ℕ}
    (hhead : tensor.shape.head? = some n) : tensor.rows = n := by
  obtain ⟨_ | ⟨size, sizes⟩, entry⟩ := tensor
  · cases hhead
  · exact Option.some.inj hhead

theorem HasRows.length_eq {data : DataProto ω} {n : ℕ} (hrows : data.HasRows n)
    (htensor : data.batch.lookup key = some tensor) :
    data.length = n := by
  have hmem := AList.mem_lookup_iff.mp (Option.mem_def.mpr htensor)
  unfold length
  cases hentries : data.batch.entries with
  | nil =>
    simp [hentries] at hmem
  | cons entry entries =>
    have hfirst : entry ∈ data.batch.entries := by
      rw [hentries]
      exact List.mem_cons_self
    apply rows_of_head
    exact hrows.tensors entry.1 entry.2 (AList.mem_lookup_iff.mpr hfirst)

end DataProto

/-! ## The training library -/

/-- What the trainer calls outside this repository. -/
structure TrainingLibrary (ω : Type) where
  fromDict : Dict (Tensor ℚ) → Dict (Tensor ω) → Dict MetaValue →
    Except (TrainingError ω) (DataProto ω)
  selectIdxs : DataProto ω → List ℕ → DataProto ω
  concat : List (DataProto ω) → Except (TrainingError ω) (DataProto ω)
  /-- Token-level rewards, response mask and group index. -/
  computeGrpoOutcomeAdvantage : Tensor ℚ → Tensor ℚ → List ω → Tensor ℚ
  std : List ℚ → ℚ

structure TrainingLibrary.Documented {ω : Type} [Inhabited ω]
    (library : TrainingLibrary ω) : Prop where
  fromDict_ok : ∀ (data : DataProto ω) (n : ℕ), data.HasRows n →
    library.fromDict data.batch data.nonTensorBatch data.metaInfo = .ok data
  selectIdxs_batch : ∀ data indices key,
    (library.selectIdxs data indices).batch.lookup key =
      (data.batch.lookup key).map (·.selectRows indices)
  selectIdxs_nonTensorBatch : ∀ data indices key,
    (library.selectIdxs data indices).nonTensorBatch.lookup key =
      (data.nonTensorBatch.lookup key).map (·.selectRows indices)
  selectIdxs_metaInfo : ∀ data indices,
    (library.selectIdxs data indices).metaInfo = data.metaInfo
  concat_ok : ∀ protos : List (DataProto ω), protos ≠ [] →
    (∀ data ∈ protos, ∃ n, data.HasRows n) →
    (∀ data ∈ protos, ∀ other ∈ protos, data.SameFields other) →
    ∃ joined, library.concat protos = .ok joined ∧
      (∀ key, joined.batch.lookup key =
        (DataProto.tensorsAt protos key).map Tensor.catRows) ∧
      (∀ key, joined.nonTensorBatch.lookup key =
        (DataProto.arraysAt protos key).map Tensor.catRows) ∧
      ∀ data ∈ protos, joined.metaInfo = data.metaInfo

variable {ω : Type}

namespace DataProto

theorem SameFields.symm {data other : DataProto ω}
    (hsame : data.SameFields other) : other.SameFields data where
  tensors key := (hsame.tensors key).symm
  arrays key := (hsame.arrays key).symm
  metaInfo := hsame.metaInfo.symm

theorem SameFields.refl (data : DataProto ω) : data.SameFields data :=
  ⟨fun _ => rfl, fun _ => rfl, rfl⟩

end DataProto

section Library

variable [Inhabited ω] {library : TrainingLibrary ω}

section

variable (hlibrary : library.Documented) (data : DataProto ω)
  (indices : List ℕ)

include hlibrary

theorem selectIdxs_hasRows :
    (library.selectIdxs data indices).HasRows indices.length := by
  constructor
  · intro key tensor htensor
    rw [hlibrary.selectIdxs_batch, Option.map_eq_some_iff] at htensor
    obtain ⟨original, _, rfl⟩ := htensor
    rfl
  · intro key array harray
    rw [hlibrary.selectIdxs_nonTensorBatch, Option.map_eq_some_iff] at harray
    obtain ⟨original, _, rfl⟩ := harray
    rfl

theorem row_selectIdxs (i : ℕ) : (library.selectIdxs data indices).row i =
      data.row (indices.getD i 0) := by
  unfold DataProto.row
  congr 1
  · funext key
    rw [hlibrary.selectIdxs_batch, Option.map_map]
    rfl
  · funext key
    rw [hlibrary.selectIdxs_nonTensorBatch, Option.map_map]
    rfl

theorem selectIdxs_sameFields :
    data.SameFields (library.selectIdxs data indices) := by
  constructor
  · intro key
    rw [hlibrary.selectIdxs_batch, Option.map_map]
    rfl
  · intro key
    rw [hlibrary.selectIdxs_nonTensorBatch, Option.map_map]
    rfl
  · exact (hlibrary.selectIdxs_metaInfo data indices).symm

end

theorem stacked_field {α σ : Type} [Inhabited α] (size : σ → ℕ)
    {field : σ → Option (Tensor α)} {items : List σ}
    {joined : Option (Tensor α)}
    (hrows : ∀ item ∈ items, ∀ tensor, field item = some tensor →
      tensor.shape.head? = some (size item))
    (hsame : ∀ item ∈ items, ∀ other ∈ items,
      (field item).map (·.shape.tail) = (field other).map (·.shape.tail))
    (hjoined : joined = (items.mapM field).map Tensor.catRows)
    {before after : List σ} {item : σ}
    (hitems : items = before ++ item :: after) :
    joined.map (·.shape) = (field item).map (fun tensor =>
        (items.map size).sum :: tensor.shape.tail) ∧
      ∀ i < size item, joined.map (·.row ((before.map size).sum + i)) =
        (field item).map (·.row i) := by
  have hmem : item ∈ items := by simp [hitems]
  cases hfield : field item with
  | none =>
    have hnone : items.mapM field = none := by
      have hall : ∀ other ∈ items, field other = none := by
        intro other hother
        have h := hsame other hother item hmem
        rw [hfield] at h
        exact Option.map_eq_none_iff.mp h
      cases hcases : items with
      | nil => simp [hcases] at hmem
      | cons first rest =>
        rw [List.mapM_cons, hall first (by simp [hcases])]
        rfl
    rw [hjoined, hnone]
    exact ⟨rfl, fun _ _ => rfl⟩
  | some tensor =>
    have htail : ∀ other ∈ items, ∃ found, field other = some found ∧
        found.shape = size other :: tensor.shape.tail := by
      intro other hother
      have h := hsame other hother item hmem
      rw [hfield] at h
      obtain ⟨found, hfound, hshape⟩ := Option.map_eq_some_iff.mp h
      refine ⟨found, hfound, ?_⟩
      obtain ⟨rest, hrest⟩ := List.head?_eq_some_iff.mp
        (hrows other hother found hfound)
      rw [hrest] at hshape ⊢
      exact congrArg (size other :: ·) hshape
    let found : σ → Tensor α := fun other => (field other).getD default
    have hfound : ∀ other ∈ items, field other = some (found other) ∧
        (found other).shape = (found other).rows :: tensor.shape.tail ∧
        (found other).rows = size other := by
      intro other hother
      obtain ⟨value, hvalue, hshape⟩ := htail other hother
      have hget : found other = value := by simp [found, hvalue]
      rw [hget]
      simp [hvalue, hshape, Tensor.rows]
    have hall : items.mapM field = some (items.map found) :=
      Tensor.mapM_eq_some_map fun other hother => (hfound other hother).1
    have hshapes : ∀ other ∈ items.map found,
        other.shape = other.rows :: tensor.shape.tail := by
      intro other hother
      obtain ⟨source, hsource, rfl⟩ := List.mem_map.mp hother
      exact (hfound source hsource).2.1
    have hsizes : ∀ list : List σ, (∀ other ∈ list, other ∈ items) →
        (list.map found).map Tensor.rows = list.map size := by
      intro list hlist
      rw [List.map_map]
      apply List.map_congr_left
      intro other hother
      exact (hfound other (hlist other hother)).2.2
    have hitem : found item = tensor := by simp [found, hfield]
    rw [hjoined, hall]
    constructor
    · have hne : items.map found ≠ [] := by simp [hitems]
      simp only [Option.map_some]
      rw [Tensor.shape_catRows hne hshapes, hsizes items fun _ h => h]
    · intro i hi
      have hi' : i < tensor.rows := by
        rw [← hitem, (hfound item hmem).2.2]
        exact hi
      have hbefore := hsizes before fun other hother => by
        simp [hitems, hother]
      simp only [Option.map_some, Option.some.injEq]
      rw [hitems, List.map_append, List.map_cons, hitem] at hshapes ⊢
      rw [← hbefore]
      exact Tensor.row_catRows hshapes hi'

theorem concat_rows {σ : Type} (hlibrary : library.Documented)
    (proto : σ → DataProto ω) (size : σ → ℕ) {items : List σ}
    (hne : items ≠ [])
    (hrows : ∀ item ∈ items, (proto item).HasRows (size item))
    (hsame : ∀ item ∈ items, ∀ other ∈ items,
      (proto item).SameFields (proto other)) :
    ∃ joined, library.concat (items.map proto) = .ok joined ∧
      joined.HasRows (items.map size).sum ∧
      (∀ item ∈ items, joined.SameFields (proto item)) ∧
      ∀ before item after, items = before ++ item :: after → ∀ i < size item,
          joined.row ((before.map size).sum + i) = (proto item).row i := by
  obtain ⟨joined, hjoined, hbatch, harrays, hmeta⟩ :=
    hlibrary.concat_ok (items.map proto) (by simpa using hne)
      (by simpa using fun item hitem => ⟨size item, hrows item hitem⟩)
      (by simpa using hsame)
  have htensor : ∀ key before item after, items = before ++ item :: after →
      _ := fun key before item after hsplit =>
    stacked_field size
      (fun other hother tensor => (hrows other hother).tensors key tensor)
      (fun other hother third hthird =>
        (hsame other hother third hthird).tensors key)
      ((hbatch key).trans (by rw [DataProto.tensorsAt, List.mapM_map]; rfl))
      hsplit
  have harray : ∀ key before item after, items = before ++ item :: after →
      _ := fun key before item after hsplit =>
    stacked_field size
      (fun other hother array => (hrows other hother).arrays key array)
      (fun other hother third hthird =>
        (hsame other hother third hthird).arrays key)
      ((harrays key).trans (by rw [DataProto.arraysAt, List.mapM_map]; rfl))
      hsplit
  obtain ⟨first, rest, hfirst⟩ := List.exists_cons_of_ne_nil hne
  refine ⟨joined, hjoined, ⟨?_, ?_⟩, ?_, ?_⟩
  · intro key tensor hlookup
    have hshape := (htensor key [] first rest hfirst).1
    rw [hlookup] at hshape
    obtain ⟨source, _, hsource⟩ := Option.map_eq_some_iff.mp hshape.symm
    exact (congrArg List.head? hsource).symm
  · intro key array hlookup
    have hshape := (harray key [] first rest hfirst).1
    rw [hlookup] at hshape
    obtain ⟨source, _, hsource⟩ := Option.map_eq_some_iff.mp hshape.symm
    exact (congrArg List.head? hsource).symm
  · intro item hitem
    obtain ⟨before, after, hsplit⟩ := List.append_of_mem hitem
    refine ⟨?_, ?_, hmeta (proto item) (List.mem_map_of_mem hitem)⟩
    · intro key
      have hshape := congrArg (Option.map List.tail)
        (htensor key before item after hsplit).1
      simpa [Option.map_map, Function.comp_def] using hshape
    · intro key
      have hshape := congrArg (Option.map List.tail)
        (harray key before item after hsplit).1
      simpa [Option.map_map, Function.comp_def] using hshape
  · intro before item after hsplit i hi
    unfold DataProto.row
    congr 1
    · funext key
      exact (htensor key before item after hsplit).2 i hi
    · funext key
      exact (harray key before item after hsplit).2 i hi

end Library

def flattenTrajectories (library : TrainingLibrary ω)
    (data : DataProto ω) (referenceKey : String) :
    Except (TrainingError ω) (DataProto ω) := do
  let reference ← data.batch.fetch .missingField referenceKey
  require (2 ≤ reference.shape.length) (.tooFewAxes referenceKey)
  let batchSize := reference.rows
  let numSteps := reference.steps
  let newBatchFields := data.batch.map fun _ tensor =>
    if tensor.shape.take 2 = [batchSize, numSteps] then tensor.mergeLeading
    else tensor.repeatInterleave numSteps
  let newNonTensorFields := data.nonTensorBatch.map fun _ array =>
    if array.shape.take 2 = [batchSize, numSteps] then array.mergeLeading
    else array.repeatRows numSteps
  library.fromDict newBatchFields newNonTensorFields data.metaInfo

/-! ## Compaction of the valid chunks -/

def blankedFields : List String :=
  ["info.valids", "fpo.loss_weights", "fpo.advantages", "info.action_valids"]

def blankRows (start : ℕ) (batch : Dict (Tensor ℚ)) (key : String) :
    Except (TrainingError ω) (Dict (Tensor ℚ)) := do
  let tensor ← batch.fetch .missingField key
  pure (batch.insert key (tensor.zeroRowsFrom start))

/-- Append copies of the first row and blank what the objective reads. -/
def appendSyncDummies (library : TrainingLibrary ω)
    (compact : DataProto ω) (syncDummyCount : ℕ) :
    Except (TrainingError ω) (DataProto ω) :=
  if syncDummyCount = 0 then .ok compact
  else do
    let dummyIndices := List.replicate syncDummyCount 0
    let joined ← library.concat
      [compact, library.selectIdxs compact dummyIndices]
    let start := joined.length - syncDummyCount
    let batch ← blankedFields.foldlM (blankRows start) joined.batch
    pure { joined with batch := batch }

/-- Python's `int` drops the fractional part. -/
def truncate (value : ℚ) : ℤ := value.num.tdiv value.den

def compactionMetaInfo (metaInfo : Dict MetaValue)
    (originalSlots validCount syncDummyCount compactedSlots : ℕ) :
    Dict MetaValue :=
  metaInfo
    |>.insert "fpo_preflattened_valid_chunks" (.flag true)
    |>.insert "fpo_original_physical_slots" (.integer originalSlots)
    |>.insert "fpo_valid_policy_chunks" (.integer validCount)
    |>.insert "fpo_sync_dummy_slots" (.integer syncDummyCount)
    |>.insert "fpo_compacted_physical_slots" (.integer compactedSlots)

def compactValidPolicyChunksForFpo (library : TrainingLibrary ω)
    (data : DataProto ω) (actorWorldSize microBatchSize : ℤ) :
    Except (TrainingError ω) (DataProto ω) := do
  require (0 < actorWorldSize ∧ 0 < microBatchSize)
    (.nonPositiveSizes actorWorldSize microBatchSize)
  let trajectoryValids ← data.batch.fetch .missingField "info.valids"
  require (trajectoryValids.shape.length = 2) .validsNotTrajectoryShaped
  let trajectoryWeights ← data.batch.fetch .missingField "fpo.loss_weights"
  require (trajectoryWeights.shape = trajectoryValids.shape)
    .weightsNotTrajectoryShaped
  let flat ← flattenTrajectories library data "action.action"
  let valids ← flat.batch.fetch .missingField "info.valids"
  let weights ← flat.batch.fetch .missingField "fpo.loss_weights"
  require (∀ i ∈ List.range valids.rows,
    valids.entry [i] ≠ 0 → 0 < weights.entry [i]) .validChunkWithoutWeight
  require (∀ i ∈ List.range valids.rows,
    valids.entry [i] = 0 → weights.entry [i] = 0) .weightOnPadding
  let validIndices :=
    (List.range valids.rows).filter fun i => valids.entry [i] ≠ 0
  require (validIndices ≠ []) .noValidChunk
  let selected := library.selectIdxs flat validIndices
  let validCount := selected.length
  let originalSlots := flat.length
  let divisor := actorWorldSize * microBatchSize
  let syncDummyCount := (-(validCount : ℤ) % divisor).toNat
  let compact ← appendSyncDummies library selected syncDummyCount
  require ((compact.length : ℤ) % divisor = 0) .notDivisible
  let compactValids ← compact.batch.fetch .missingField "info.valids"
  let compactWeights ← compact.batch.fetch .missingField "fpo.loss_weights"
  require (truncate (∑ i ∈ Finset.range compactValids.rows,
    compactValids.entry [i]) = validCount) .validCountChanged
  require (∀ i ∈ List.range compactValids.rows,
    (0 < compactWeights.entry [i] ↔ compactValids.entry [i] ≠ 0))
    .validMaskDisagrees
  pure { compact with
    metaInfo := compactionMetaInfo compact.metaInfo originalSlots validCount
      syncDummyCount compact.length }

end VerlVla
