import VerlVla.BatchSlices
import VerlVla.Checks

/-!
# Shared inference over merged requests

The requests of several simulators are merged into one observation, which the
model answers in micro-batches.  A row of a tensor is opaque but for its shape.
-/

namespace VerlVla

inductive IpcIdentityField
  | taskId
  | suiteId
  | evalEpisodeId
  | layoutId
  | environmentSeed
  | policySeed
  deriving DecidableEq

def ipcIdentityFields : List IpcIdentityField :=
  [.taskId, .suiteId, .evalEpisodeId, .layoutId, .environmentSeed, .policySeed]

structure RoboDojoRow (A : Type) where
  camHead : A
  camLeftWrist : A
  camRightWrist : A
  state : A

/-- The observation of a vector of robots, as a simulator sends it. -/
structure IpcObservation (A : Type) where
  observation : List (RoboDojoRow A)
  task : List String
  identity : IpcIdentityField → Option (List ℤ)

inductive TensorKey
  | action
  | fullAction
  | flowGrpo (name : String)
  | other (name : String)
  deriving DecidableEq

abbrev TensorDict (V : Type) : Type := List (TensorKey × List V)

inductive InferenceError
  | noRequests
  | fieldsDiffer (index : ℕ)
  | unequalRows
  | fieldSize (field : IpcIdentityField)
  | index
  | stack
  | zeroStep
  | nothingToConcat
  | missingKey (key : TensorKey)
  | concat (key : TensorKey)
  | model
  | shape (key : TensorKey)

/-! ## Merging requests -/

section Merging

variable {A : Type}

def presentFields (request : IpcObservation A) : List IpcIdentityField :=
  ipcIdentityFields.filter fun field => (request.identity field).isSome

/-- The values of the loop over the requests. -/
structure MergeState (A : Type) where
  slices : List (ℕ × ℕ)
  offset : ℕ
  observation : List (RoboDojoRow A)
  task : List String
  fieldRows : IpcIdentityField → List (List ℤ)

def MergeState.start : MergeState A where
  slices := []
  offset := 0
  observation := []
  task := []
  fieldRows _ := []

def fieldValues (request : IpcObservation A) (field : IpcIdentityField) :
    List ℤ :=
  (request.identity field).getD []

def mergeRequest (present : List IpcIdentityField) (merged : MergeState A)
    (request : IpcObservation A) : Except InferenceError (MergeState A) := do
  require (request.observation ≠ [] ∧
    request.observation.length = request.task.length) .unequalRows
  present.forM fun field =>
    require ((fieldValues request field).length = request.observation.length)
      (.fieldSize field)
  let stop := merged.offset + request.observation.length
  .ok
    { slices := merged.slices ++ [(merged.offset, stop)]
      offset := stop
      observation := merged.observation ++ request.observation
      task := merged.task ++ request.task
      fieldRows := fun field => if field ∈ present then
          merged.fieldRows field ++ [fieldValues request field]
        else merged.fieldRows field }

def MergeState.merged (merged : MergeState A)
    (present : List IpcIdentityField) : IpcObservation A where
  observation := merged.observation
  task := merged.task
  identity field :=
    if field ∈ present then some (merged.fieldRows field).flatten else none

def mergeIpcObservations : List (IpcObservation A) →
    Except InferenceError (IpcObservation A × List (ℕ × ℕ))
  | [] => .error .noRequests
  | first :: rest => do
    let present := presentFields first
    (rest.zipIdx 1).forM fun request =>
      require (presentFields request.1 = present) (.fieldsDiffer request.2)
    let merged ← (first :: rest).foldlM (mergeRequest present) .start
    .ok (merged.merged present, merged.slices)

end Merging

/-! ## The model -/

/-- The columns that the model reads. -/
structure PolicyBatch (A : Type) where
  camHead : List A
  camLeftWrist : List A
  camRightWrist : List A
  state : List A
  task : List String
  identity : IpcIdentityField → Option (List ℤ)

/-- The loaded model.  A call raises or returns tensors. -/
structure SharedModel (A V : Type) where
  inputShape : A → List ℕ
  outputShape : V → List ℕ
  sacSampleActions : PolicyBatch A → Bool → Option (TensorDict V)

section Inference

variable {α A V : Type} (model : SharedModel A V)

def pick (values : List α) (indices : List ℕ) :
    Except InferenceError (List α) := do
  require (∀ index ∈ indices, index < values.length) .index
  .ok (indices.filterMap fun index => values[index]?)

def npStack (values : List A) : Except InferenceError (List A) := do
  require (∀ left ∈ values, ∀ right ∈ values,
    model.inputShape left = model.inputShape right) .stack
  .ok values

def robodojoObservationBatch (obs : IpcObservation A) (indices : List ℕ) :
    Except InferenceError (PolicyBatch A) := do
  let rows ← pick obs.observation indices
  require (rows ≠ []) .index
  let camHead ← npStack model (rows.map RoboDojoRow.camHead)
  let camLeftWrist ← npStack model (rows.map RoboDojoRow.camLeftWrist)
  let camRightWrist ← npStack model (rows.map RoboDojoRow.camRightWrist)
  let state ← npStack model (rows.map RoboDojoRow.state)
  let task ← pick obs.task indices
  require (∀ field ∈ presentFields obs, ∀ index ∈ indices,
    index < (fieldValues obs field).length) .index
  .ok
    { camHead := camHead
      camLeftWrist := camLeftWrist
      camRightWrist := camRightWrist
      state := state
      task := task
      identity := fun field => (obs.identity field).map fun values =>
        indices.filterMap fun index => values[index]? }

def TensorKey.isFlowGrpo : TensorKey → Bool
  | .flowGrpo _ => true
  | _ => false

def retainedKeys (keys : List TensorKey) : List TensorKey :=
  [.action, .fullAction] ++ keys.filter TensorKey.isFlowGrpo

def lookupKey (tensors : TensorDict V) (key : TensorKey) :
    Except InferenceError (List V) :=
  match tensors.lookup key with
  | some rows => .ok rows
  | none => .error (.missingKey key)

def selectKeys (keys : List TensorKey) (tensors : TensorDict V) :
    Except InferenceError (TensorDict V) :=
  keys.mapM fun key => (lookupKey tensors key).map fun rows => (key, rows)

def inferChunk (obs : IpcObservation A) (eval : Bool) (indices : List ℕ) :
    Except InferenceError (TensorDict V) := do
  let batch ← robodojoObservationBatch model obs indices
  match model.sacSampleActions batch eval with
  | none => .error .model
  | some output => selectKeys (retainedKeys (output.map Prod.fst)) output

def concatKey (chunks : List (TensorDict V)) (key : TensorKey) :
    Except InferenceError (TensorKey × List V) := do
  let parts ← chunks.mapM fun chunk => lookupKey chunk key
  require (∀ left ∈ parts.flatten, ∀ right ∈ parts.flatten,
    model.outputShape left = model.outputShape right) (.concat key)
  .ok (key, parts.flatten)

def concatChunks : List (TensorDict V) → Except InferenceError (TensorDict V)
  | [] => .error .nothingToConcat
  | first :: rest => do
    let keys := first.map Prod.fst
    rest.forM fun chunk => (chunk.map Prod.fst).forM fun key =>
      require (key ∈ keys) (.concat key)
    keys.mapM (concatKey model (first :: rest))

def rangeStarts (total : ℕ) (size : ℤ) : Except InferenceError (List ℕ) :=
  if size = 0 then .error .zeroStep
  else if size < 0 then .ok []
  else .ok (chunkStarts total size.toNat)

def requireShape (tensors : TensorDict V) (key : TensorKey) (rows : ℕ)
    (shape : List ℕ) : Except InferenceError Unit := do
  let values ← lookupKey tensors key
  require (values.length = rows ∧
    ∀ value ∈ values, model.outputShape value = shape) (.shape key)

def inferSharedModelOutputsInMicrobatches (obs : IpcObservation A)
    (microbatchSize : ℤ) (eval : Bool) :
    Except InferenceError (TensorDict V) := do
  let batchSize := obs.observation.length
  let starts ← rangeStarts batchSize microbatchSize
  let chunks ← starts.mapM fun start => inferChunk model obs eval
    (chunkIndices batchSize microbatchSize.toNat start)
  let actions ← concatChunks model chunks
  requireShape model actions .action batchSize [24, 14]
  requireShape model actions .fullAction batchSize [32, 14]
  .ok actions

def sliceTensors (slice : ℕ × ℕ) (tensors : TensorDict V) : TensorDict V :=
  tensors.map fun entry => (entry.1, sliceRows slice entry.2)

end Inference

/-! ## Rows -/

/-- What the model reads of one robot. -/
structure PolicyRow (A : Type) where
  observation : RoboDojoRow A
  task : String
  identity : IpcIdentityField → Option ℤ

section Rows

variable {A V : Type}

def identityRow (identity : IpcIdentityField → Option (List ℤ)) (index : ℕ)
    (field : IpcIdentityField) : Option ℤ :=
  (identity field).bind fun values => values[index]?

def PolicyBatch.row? (batch : PolicyBatch A) (index : ℕ) :
    Option (PolicyRow A) := do
  let camHead ← batch.camHead[index]?
  let camLeftWrist ← batch.camLeftWrist[index]?
  let camRightWrist ← batch.camRightWrist[index]?
  let state ← batch.state[index]?
  let task ← batch.task[index]?
  some ⟨⟨camHead, camLeftWrist, camRightWrist, state⟩, task,
    identityRow batch.identity index⟩

def PolicyBatch.rows (batch : PolicyBatch A) : List (PolicyRow A) :=
  (List.range batch.task.length).filterMap batch.row?

def IpcObservation.row? (obs : IpcObservation A) (index : ℕ) :
    Option (PolicyRow A) := do
  let row ← obs.observation[index]?
  let task ← obs.task[index]?
  some ⟨row, task, identityRow obs.identity index⟩

def IpcObservation.rows (obs : IpcObservation A) : List (PolicyRow A) :=
  (List.range obs.observation.length).filterMap obs.row?

/-- Row `i` of an output depends on row `i` of the batch only. -/
def SharedModel.RowWise (model : SharedModel A V)
    (keys : Bool → List TensorKey)
    (row : Bool → PolicyRow A → TensorKey → V) : Prop :=
  ∀ batch eval output, model.sacSampleActions batch eval = some output →
    output = (keys eval).map fun key =>
      (key, batch.rows.map fun input => row eval input key)

/-- What a row-wise model returns of some input rows, for the retained keys. -/
def outputRows (keys : Bool → List TensorKey)
    (row : Bool → PolicyRow A → TensorKey → V) (eval : Bool)
    (inputs : List (PolicyRow A)) : TensorDict V :=
  (retainedKeys (keys eval)).map fun key =>
    (key, inputs.map fun input => row eval input key)

def modelRows (keys : Bool → List TensorKey)
    (row : Bool → PolicyRow A → TensorKey → V) (eval : Bool)
    (obs : IpcObservation A) : TensorDict V :=
  outputRows keys row eval obs.rows

end Rows

end VerlVla
