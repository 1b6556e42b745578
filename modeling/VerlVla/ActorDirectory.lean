import Mathlib.Data.Finset.Sort
import Mathlib.Data.Finset.Union
import VerlVla.BatchSlices
import VerlVla.ReshardingCheckpoints
import VerlVla.StepDirectories

/-!
# The actor directory of a step

Trainers of any size save into one directory, and a save may be interrupted
after any of its files.  Trainers and collectors read the directory by rules of
their own.
-/

namespace VerlVla

open Finset

/-! ## Tensors and shards -/

/-- A tensor by its rows, and whether the ranks of a group share them. -/
structure ModelTensor (α : Type) where
  name : String
  sharded : Bool
  rows : List α

inductive StoredTensor (α : Type)
  | plain (rows : List α)
  | dtensor (globalRows : ℕ) (localRows : List α)

namespace StoredTensor

variable {α : Type}

def localRows : StoredTensor α → List α
  | .plain rows => rows
  | .dtensor _ rows => rows

def sharded : StoredTensor α → Bool
  | .plain _ => false
  | .dtensor _ _ => true

end StoredTensor

abbrev StateDict (α : Type) : Type := List (String × StoredTensor α)

/-- A file that a save began to write. -/
inductive Written (β : Type)
  | torn
  | complete (content : β)

section Sharding

variable {α : Type}

/-- The ranks that share a tensor, all of them for a size of minus one. -/
def fsdpGroup (fsdpSize : ℤ) (world : ℕ) : ℕ :=
  if 0 < fsdpSize ∧ fsdpSize.toNat ∣ world then fsdpSize.toNat else world

def rowsPerShard (rows group : ℕ) : ℕ := (rows + group - 1) / group

def shardRows (group shard : ℕ) (rows : List α) : List α :=
  let size := rowsPerShard rows.length group
  sliceRows (shard * size, shard * size + size) rows

def ModelTensor.stored (group shard : ℕ) (tensor : ModelTensor α) :
    StoredTensor α :=
  if tensor.sharded then
    .dtensor tensor.rows.length (shardRows group shard tensor.rows)
  else .plain tensor.rows

/-- What a rank holds; the groups of a larger run are replicas. -/
def rankState (group rank : ℕ) (model : List (ModelTensor α)) : StateDict α :=
  model.map fun tensor => (tensor.name, tensor.stored group (rank % group))

def gatherTensor (group : ℕ) (states : ℕ → StateDict α)
    (entry : (String × StoredTensor α) × ℕ) : ModelTensor α where
  name := entry.1.1
  sharded := entry.1.2.sharded
  rows := if entry.1.2.sharded then
      (List.range group).flatMap fun shard =>
        match (states shard)[entry.2]? with
        | none => []
        | some stored => stored.2.localRows
    else entry.1.2.localRows

def gatherStates (group : ℕ) (states : ℕ → StateDict α) :
    List (ModelTensor α) :=
  (states 0).zipIdx.map (gatherTensor group states)

def Written.content {β : Type} (default : β) : Written β → β
  | .torn => default
  | .complete content => content

def shardStates {world : ℕ} (shards : Fin world → Written (StateDict α))
    (rank : ℕ) : StateDict α :=
  if h : rank < world then (shards ⟨rank, h⟩).content [] else []

theorem fsdpGroup_pos (fsdpSize : ℤ) (hworld : 0 < world) :
    0 < fsdpGroup fsdpSize world := by
  unfold fsdpGroup
  by_cases hsize : 0 < fsdpSize ∧ fsdpSize.toNat ∣ world
  · rw [if_pos hsize]
    omega
  · rw [if_neg hsize]
    exact hworld

theorem fsdpGroup_le (fsdpSize : ℤ) (hworld : 0 < world) :
    fsdpGroup fsdpSize world ≤ world := by
  unfold fsdpGroup
  by_cases hsize : 0 < fsdpSize ∧ fsdpSize.toNat ∣ world
  · rw [if_pos hsize]
    exact Nat.le_of_dvd hworld hsize.2
  · rw [if_neg hsize]

theorem flatMap_shardRows (hgroup : 0 < group) (rows : List α) :
    (List.range group).flatMap (fun shard => shardRows group shard rows) =
      rows := by
  have hcover : rows.length ≤ group * rowsPerShard rows.length group := by
    have hsplit := Nat.div_add_mod (rows.length + group - 1) group
    have hrest := Nat.mod_lt (rows.length + group - 1) hgroup
    unfold rowsPerShard
    omega
  have hslices := flatMap_sliceRows (rowsPerShard rows.length group) group rows
  rw [List.take_of_length_le hcover] at hslices
  exact hslices

theorem shardRows_eq_self
    (hlength : (shardRows group 0 rows).length = rows.length) :
    shardRows group 0 rows = rows := by
  have hleading : shardRows group 0 rows =
      rows.take (rowsPerShard rows.length group) := by
    simp [shardRows, sliceRows]
  rw [hleading] at hlength ⊢
  apply List.take_of_length_le
  rw [List.length_take] at hlength
  omega

theorem gatherTensor_stored (hgroup : 0 < group)
    (hstates : ∀ rank < group, states rank = rankState group rank model)
    (hindex : index < model.length) :
    gatherTensor group states
        ((model[index].name, model[index].stored group 0), index) =
      model[index] := by
  have hshards : ∀ shard ∈ List.range group, (match (states shard)[index]? with
        | none => []
        | some stored => stored.2.localRows) =
      (model[index].stored group shard).localRows := by
    intro shard hshard
    have hbound := List.mem_range.mp hshard
    rw [hstates shard hbound, rankState, List.getElem?_map,
      List.getElem?_eq_getElem hindex, Nat.mod_eq_of_lt hbound]
    rfl
  have hrows := List.flatMap_congr hshards
  unfold gatherTensor
  rw [hrows]
  cases htensor : model[index] with
  | mk name sharded rows =>
    cases sharded with
    | false => rfl
    | true =>
      have hall := flatMap_shardRows hgroup rows
      simp only [ModelTensor.stored, StoredTensor.sharded,
        StoredTensor.localRows, if_true, hall]

theorem gatherStates_rankState (hgroup : 0 < group)
    (model : List (ModelTensor α))
    (hstates : ∀ rank < group, states rank = rankState group rank model) :
    gatherStates group states = model := by
  have hzero := hstates 0 hgroup
  rw [gatherStates, hzero]
  apply List.ext_getElem
  · simp [rankState]
  · intro index _ hindex
    rw [List.getElem_map, List.getElem_zipIdx, Nat.zero_add]
    simp only [rankState, List.getElem_map, Nat.zero_mod]
    exact gatherTensor_stored hgroup hstates hindex

/-- Full tensors laid over the ranks of a run and gathered again. -/
def actorSharding (fsdpSize : ℤ) :
    Sharding (List (ModelTensor α)) (Written (StateDict α)) where
  distribute world model rank :=
    .complete (rankState (fsdpGroup fsdpSize world) rank model)
  gather world shards :=
    gatherStates (fsdpGroup fsdpSize world) (shardStates shards)
  gather_distribute world model hworld := by
    apply gatherStates_rankState (fsdpGroup_pos fsdpSize hworld)
    intro rank hrank
    have hlt := hrank.trans_le (fsdpGroup_le fsdpSize hworld)
    rw [shardStates, dif_pos hlt]
    rfl

end Sharding

/-! ## Saves -/

inductive WriteProgress
  | untouched
  | torn
  | complete
  deriving DecidableEq

structure ActorDirectory (α O B S R : Type) extends
    CheckpointFiles (List (ModelTensor α)) O (Written (StateDict α)) B S R
    where
  listing : Finset (ℕ × ℕ)
  listed : ∀ world rank,
    (world, rank) ∈ listing ↔ (model world rank).isSome = true

/-- A save by a trainer in its state, with how far it came with each file.  A
torn file of an optimizer or of extra state is no file, since neither loads. -/
structure SaveAttempt (α O S R : Type) where
  worldSize : ℕ
  world_pos : 0 < worldSize
  fsdpSize : ℤ
  snapshot : TrainingSnapshot (List (ModelTensor α)) O S R
  modelProgress : ℕ → WriteProgress
  optimizerProgress : ℕ → WriteProgress
  extraProgress : ℕ → WriteProgress
  configWritten : Bool

section Saves

variable {α O B S R : Type}

def ActorDirectory.empty : ActorDirectory α O B S R where
  toCheckpointFiles := CheckpointFiles.empty
  listing := ∅
  listed _ _ := by simp [CheckpointFiles.empty]

namespace SaveAttempt

variable (optimizers : ℤ → Sharding O B) (attempt : SaveAttempt α O S R)

def progressed {V : Type} (progress : ℕ → WriteProgress)
    (value : Fin attempt.worldSize → V) (torn : Option V)
    (files : ℕ → ℕ → Option V) : ℕ → ℕ → Option V := fun size rank =>
  if h : size = attempt.worldSize ∧ rank < attempt.worldSize then
    match progress rank with
    | .untouched => files size rank
    | .torn => torn
    | .complete => some (value ⟨rank, h.2⟩)
  else files size rank

def writtenShards : Finset (ℕ × ℕ) := ({rank ∈ range attempt.worldSize |
    attempt.modelProgress rank ≠ .untouched}).image (attempt.worldSize, ·)

def ranks : RankStates (Written (StateDict α)) B S R attempt.worldSize :=
  CheckpointFiles.ranksOf (actorSharding attempt.fsdpSize)
    (optimizers attempt.fsdpSize) attempt.worldSize attempt.snapshot

def files (directory : ActorDirectory α O B S R) :
    CheckpointFiles (List (ModelTensor α)) O (Written (StateDict α)) B S R :=
  { directory.toCheckpointFiles with
    model := attempt.progressed attempt.modelProgress
      (attempt.ranks optimizers).model (some .torn) directory.model
    optimizer := attempt.progressed attempt.optimizerProgress
      (attempt.ranks optimizers).optimizer none directory.optimizer
    extra := attempt.progressed attempt.extraProgress
      (attempt.ranks optimizers).extra none directory.extra
    fsdpConfig := if attempt.configWritten then some attempt.worldSize
      else directory.fsdpConfig }

theorem mem_writtenShards :
    (world, rank) ∈ attempt.writtenShards ↔ world = attempt.worldSize ∧
      rank < attempt.worldSize ∧
      attempt.modelProgress rank ≠ .untouched := by
  rw [writtenShards, mem_image]
  constructor
  · rintro ⟨written, hwritten, heq⟩
    cases heq
    rw [mem_filter, mem_range] at hwritten
    exact ⟨rfl, hwritten⟩
  · rintro ⟨rfl, hrank⟩
    exact ⟨rank, mem_filter.mpr ⟨mem_range.mpr hrank.1, hrank.2⟩, rfl⟩

theorem model_isSome (directory : ActorDirectory α O B S R) (world rank : ℕ) :
    ((attempt.files optimizers directory).model world rank).isSome = true ↔
      (world, rank) ∈ directory.listing ∪ attempt.writtenShards := by
  rw [mem_union, directory.listed, attempt.mem_writtenShards]
  simp only [files, progressed]
  by_cases hown : world = attempt.worldSize ∧ rank < attempt.worldSize
  · rw [dif_pos hown]
    cases hprogress : attempt.modelProgress rank with
    | untouched => simp
    | torn | complete => simp [hown]
  · rw [dif_neg hown]
    constructor
    · exact Or.inl
    · rintro (hold | ⟨hworld, hrank, _⟩)
      · exact hold
      · exact absurd ⟨hworld, hrank⟩ hown

def apply (directory : ActorDirectory α O B S R) : ActorDirectory α O B S R
    where
  toCheckpointFiles := attempt.files optimizers directory
  listing := directory.listing ∪ attempt.writtenShards
  listed world rank :=
    (attempt.model_isSome optimizers directory world rank).symm

def directory (attempts : List (SaveAttempt α O S R)) :
    ActorDirectory α O B S R :=
  attempts.foldl (fun directory attempt => attempt.apply optimizers directory)
    .empty

/-- A save that wrote all of its files. -/
structure Completed : Prop where
  model : ∀ rank < attempt.worldSize, attempt.modelProgress rank = .complete
  optimizer : ∀ rank < attempt.worldSize,
    attempt.optimizerProgress rank = .complete
  extra : ∀ rank < attempt.worldSize, attempt.extraProgress rank = .complete
  config : attempt.configWritten = true

end SaveAttempt

end Saves

/-! ## What collectors read -/

inductive ActorReadError
  | notFound
  | mixedWorldSizes (worldSizes : List ℕ)
  | incompleteRanks (worldSize : ℕ) (found : List ℕ)
  | unreadable (worldSize rank : ℕ)
  | shardedTensor (name : String) (globalRows localRows : ℕ)
  | missingScopes (scopes : List String)
  | refused (text : String)

structure NativePayload (α : Type) where
  mot : List (String × List α)
  proprioEncoder : List (String × List α)
  step : ℕ
  torchDtype : String

section Reading

variable {α O B S R : Type}

def resolveActorCheckpoint (directory : ActorDirectory α O B S R) :
    Except ActorReadError (ℕ × ℕ) :=
  if (1, 0) ∈ directory.listing then .ok (1, 0)
  else if directory.listing = ∅ then .error .notFound
  else
    match (directory.listing.image Prod.fst).sort (· ≤ ·) with
    | [saved] => do
      let ranks := directory.listing.image Prod.snd
      require (ranks = range saved)
        (.incompleteRanks saved (ranks.sort (· ≤ ·)))
      pure (saved, 0)
    | worldSizes => .error (.mixedWorldSizes worldSizes)

def loadVerlActorState (directory : ActorDirectory α O B S R)
    (shard : ℕ × ℕ) : Except ActorReadError (StateDict α) :=
  match directory.model shard.1 shard.2 with
  | some (.complete state) => .ok state
  | _ => .error (.unreadable shard.1 shard.2)

/-- A tensor that this rank holds as a whole. -/
def nativeLocalTensor (name : String) : StoredTensor α →
    Except ActorReadError (List α)
  | .plain rows => .ok rows
  | .dtensor globalRows rows => do
    require (rows.length = globalRows)
      (.shardedTensor name globalRows rows.length)
    pure rows

def motPrefix : String := "policy.mot."

def proprioPrefix : String := "policy.proprio_encoder."

def startsWith (pattern name : String) : Bool :=
  pattern.toList.isPrefixOf name.toList

def removePattern (pattern name : String) : String :=
  String.ofList (name.toList.drop pattern.length)

def localTensors (pattern : String) (state : StateDict α) :
    Except ActorReadError (List (String × List α)) :=
  (state.filter fun entry => startsWith pattern entry.1).mapM fun entry => do
    let rows ← nativeLocalTensor entry.1 entry.2
    pure (removePattern pattern entry.1, rows)

def missingScopes (mot : List (String × List α)) : List String :=
  ["mixtures.video.", "mixtures.action."].filter fun scope =>
    !mot.any fun entry => startsWith scope entry.1

def buildNativeFastwamPayload (state : StateDict α) (step : ℕ)
    (torchDtype : String) : Except ActorReadError (NativePayload α) := do
  let mot ← localTensors motPrefix state
  let proprio ← localTensors proprioPrefix state
  require (mot.length ≠ 0)
    (.refused "Actor checkpoint contains no policy.mot.* tensors.")
  require (missingScopes mot = []) (.missingScopes (missingScopes mot))
  require (proprio.length ≠ 0)
    (.refused "Actor checkpoint contains no policy.proprio_encoder.* tensors.")
  pure ⟨mot, proprio, step, torchDtype⟩

def loadActorIntoNativePolicy (digits : DecimalDigits) (source : List Char)
    (directory : ActorDirectory α O B S R) :
    Except ActorReadError (NativePayload α) := do
  let shard ← resolveActorCheckpoint directory
  let state ← loadVerlActorState directory shard
  buildNativeFastwamPayload state ((firstStep digits source).getD 0)
    "torch.bfloat16"

end Reading

end VerlVla
