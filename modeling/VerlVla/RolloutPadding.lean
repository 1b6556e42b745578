import VerlVla.FpoActorInput

/-!
# Concatenating groups of different lengths

Groups with fewer policy calls than the longest one are extended by the final
observation of their trajectories; actions and feedback are extended by zeros.
-/

namespace VerlVla

open List hiding after cons keys nil

variable {ω : Type}

/-! ## The model -/

/-- Fields of the final observation that only other groups report are taken
from the last observation slot. -/
def recoverFields {α : Type} (missing : String → TrainingError ω)
    (rollout : Dict (Tensor α)) (endKeys : List String)
    (endObs : Dict (Tensor α)) :
    Except (TrainingError ω) (Dict (Tensor α)) :=
  (endKeys.filter fun key => (endObs.lookup key).isNone).foldlM
    (fun recovered key => do
      let value ← rollout.fetch (fun _ => missing key) (obsKey key)
      pure (recovered.insert key value.lastStep)) endObs

structure RolloutGroup (ω : Type) where
  rollout : DataProto ω
  endObs : DataProto ω

def normalizeEndObservation (library : TrainingLibrary ω)
    (endTensorKeys endNonTensorKeys : List String)
    (entry : RolloutGroup ω × ℕ) :
    Except (TrainingError ω) (RolloutGroup ω) := do
  let tensors ← recoverFields (.terminalTensorMissing · entry.2)
    entry.1.rollout.batch endTensorKeys entry.1.endObs.batch
  let nonTensors ← recoverFields (.terminalArrayMissing · entry.2)
    entry.1.rollout.nonTensorBatch endNonTensorKeys
    entry.1.endObs.nonTensorBatch
  let endObs ← library.fromDict tensors nonTensors entry.1.endObs.metaInfo
  pure { rollout := entry.1.rollout, endObs := endObs }

def padTensor (group batchSize steps padSteps : ℕ)
    (endObs : Dict (Tensor ℚ)) (key : String) (value : Tensor ℚ) :
    Except (TrainingError ω) (Tensor ℚ) := do
  require (value.shape.take 2 = [batchSize, steps])
    (.tensorLeading key group batchSize steps value.shape)
  if padSteps = 0 then pure value
  else if isObs key then do
    let terminal := (endObs.lookup (fieldOf key)).getD value.lastStep
    require (terminal.shape = batchSize :: value.shape.drop 2)
      (.terminalTensorShape (fieldOf key) group terminal.shape
        (batchSize :: value.shape.drop 2))
    pure (value.catSteps (terminal.repeatStep padSteps))
  else
    pure (value.catSteps
      { shape := batchSize :: padSteps :: value.shape.drop 2
        entry := fun _ => 0 })

def padArray (group batchSize steps padSteps : ℕ)
    (endObs : Dict (Tensor ω)) (key : String) (value : Tensor ω) :
    Except (TrainingError ω) (Tensor ω) := do
  require (value.shape.take 2 = [batchSize, steps])
    (.arrayLeading key group batchSize steps value.shape)
  if padSteps = 0 then pure value
  else do
    let terminal :=
      (if isObs key then endObs.lookup (fieldOf key) else none).getD
        value.lastStep
    require (terminal.shape = batchSize :: value.shape.drop 2)
      (.terminalArrayShape key group terminal.shape
        (batchSize :: value.shape.drop 2))
    pure (value.catSteps (terminal.repeatStep padSteps))

def sameKeys {α : Type} (dict other : Dict α) : Bool :=
  dict.keys ⊆ other.keys ∧ other.keys ⊆ dict.keys

def padRollout (library : TrainingLibrary ω) (first : DataProto ω)
    (maxSteps : ℕ) (entry : RolloutGroup ω × ℕ) :
    Except (TrainingError ω) (DataProto ω) := do
  let rollout := entry.1.rollout
  require (sameKeys rollout.batch first.batch ∧
    sameKeys rollout.nonTensorBatch first.nonTensorBatch)
    (.fieldContract entry.2)
  let action ← rollout.batch.fetch .missingField "action.action"
  let steps := action.steps
  require (0 < steps) (.noPolicyCalls entry.2)
  let batchSize := rollout.length
  let padSteps := maxSteps - steps
  let tensors ← rollout.batch.traverse
    (padTensor entry.2 batchSize steps padSteps entry.1.endObs.batch)
  let nonTensors ← rollout.nonTensorBatch.traverse
    (padArray entry.2 batchSize steps padSteps entry.1.endObs.nonTensorBatch)
  library.fromDict tensors nonTensors rollout.metaInfo

def policySteps (group : RolloutGroup ω) : Except (TrainingError ω) ℕ := do
  let action ← group.rollout.batch.fetch .missingField "action.action"
  pure action.steps

def maxPolicySteps (steps : List ℕ) : ℕ := steps.foldl max 0

def concatenateRolloutGroupsWithPadding (library : TrainingLibrary ω)
    (rollouts rolloutEndObservations : List (DataProto ω)) :
    Except (TrainingError ω) (DataProto ω × DataProto ω) :=
  match rollouts with
  | [] => .error (.groupsNotAligned 0 rolloutEndObservations.length)
  | first :: _ => do
    require (rollouts.length = rolloutEndObservations.length)
      (.groupsNotAligned rollouts.length rolloutEndObservations.length)
    let groups := List.zipWith RolloutGroup.mk rollouts rolloutEndObservations
    let endTensorKeys :=
      rolloutEndObservations.flatMap fun endObs => endObs.batch.keys
    let endNonTensorKeys := rolloutEndObservations.flatMap fun endObs =>
        endObs.nonTensorBatch.keys
    let normalized ← groups.zipIdx.mapM
      (normalizeEndObservation library endTensorKeys.dedup
        endNonTensorKeys.dedup)
    let steps ← groups.mapM policySteps
    let paddedRollouts ← normalized.zipIdx.mapM
      (padRollout library first (maxPolicySteps steps))
    let joined ← library.concat paddedRollouts
    let joinedEndObservations ←
      library.concat (normalized.map fun group => group.endObs)
    pure (joined, joinedEndObservations)

/-! ## The field contract -/

/-- Fields and trailing shapes that the groups of one update share. -/
structure FieldContract where
  tensors : String → Option (List ℕ)
  arrays : String → Option (List ℕ)
  endTensors : String → Option (List ℕ)
  endArrays : String → Option (List ℕ)
  metaInfo : Dict MetaValue
  endMetaInfo : Dict MetaValue
  substeps : ℕ
  horizon : ℕ

/-- The layout that the environment loop gives to every rollout. -/
structure FieldContract.Valid (contract : FieldContract) : Prop where
  action : ∃ rest,
    contract.tensors "action.action" = some (contract.substeps :: rest)
  fullAction : ∃ rest,
    contract.tensors "action.full_action" = some (contract.horizon :: rest)
  horizon_le : contract.substeps ≤ contract.horizon
  feedback : ∀ key ∈ feedbackKeys, key ≠ "next.score" →
    contract.tensors key = some [contract.substeps]
  score : ∀ shape, contract.tensors "next.score" = some shape →
    shape = [contract.substeps]
  endTensors : ∀ field shape endShape,
    contract.tensors (obsKey field) = some shape →
    contract.endTensors field = some endShape → endShape = shape
  endArrays : ∀ field shape endShape,
    contract.arrays (obsKey field) = some shape →
    contract.endArrays field = some endShape → endShape = shape

namespace RolloutGroup

def size (group : RolloutGroup ω) : ℕ := group.rollout.length

def steps (group : RolloutGroup ω) : ℕ :=
  ((group.rollout.batch.lookup "action.action").map Tensor.steps).getD 0

structure Conforms (contract : FieldContract) (group : RolloutGroup ω) :
    Prop where
  steps_pos : 0 < group.steps
  tensors : ∀ key, (group.rollout.batch.lookup key).map (·.shape) =
    (contract.tensors key).map (group.size :: group.steps :: ·)
  arrays : ∀ key, (group.rollout.nonTensorBatch.lookup key).map (·.shape) =
    (contract.arrays key).map (group.size :: group.steps :: ·)
  endTensors : ∀ field tensor, group.endObs.batch.lookup field = some tensor →
    ∃ shape, contract.endTensors field = some shape ∧
      tensor.shape = group.size :: shape
  endArrays : ∀ field array,
    group.endObs.nonTensorBatch.lookup field = some array →
    ∃ shape, contract.endArrays field = some shape ∧
      array.shape = group.size :: shape
  policyTensors : ∀ field, (contract.tensors (obsKey field)).isSome →
    ¬isProfile field → (group.endObs.batch.lookup field).isSome
  policyArrays : ∀ field, (contract.arrays (obsKey field)).isSome →
    field ∉ trajectoryMetadataFields →
    (group.endObs.nonTensorBatch.lookup field).isSome
  otherTensors : ∀ field, (contract.endTensors field).isSome →
    (group.endObs.batch.lookup field).isSome ∨
      (contract.tensors (obsKey field)).isSome
  otherArrays : ∀ field, (contract.endArrays field).isSome →
    (group.endObs.nonTensorBatch.lookup field).isSome ∨
      (contract.arrays (obsKey field)).isSome
  metaInfo : group.rollout.metaInfo = contract.metaInfo
  endMetaInfo : group.endObs.metaInfo = contract.endMetaInfo

end RolloutGroup

section Shapes

variable {α : Type} {field : Option (Tensor α)} {shape : Option (List ℕ)}
  {batchSize steps : ℕ}

theorem some_of_shape
    (hfield : field.map (·.shape) = shape.map (batchSize :: steps :: ·))
    (hshape : shape = some rest) :
    ∃ tensor, field = some tensor ∧
      tensor.shape = batchSize :: steps :: rest := by
  rw [hshape, Option.map_some, Option.map_eq_some_iff] at hfield
  exact hfield

theorem shape_of_some {tensor : Tensor α}
    (hfield : field.map (·.shape) = shape.map (batchSize :: steps :: ·))
    (htensor : field = some tensor) :
    ∃ rest, shape = some rest ∧ tensor.shape = batchSize :: steps :: rest := by
  rw [htensor, Option.map_some] at hfield
  obtain ⟨rest, hrest, heq⟩ := Option.map_eq_some_iff.mp hfield.symm
  exact ⟨rest, hrest, heq.symm⟩

theorem isSome_iff_of_shape {other : Option (Tensor α)}
    (hfield : field.map (·.shape) = shape.map grow)
    (hother : other.map (·.shape) = shape.map growOther) :
    field.isSome ↔ other.isSome := by
  have h := congrArg Option.isSome hfield
  have h' := congrArg Option.isSome hother
  simp only [Option.isSome_map] at h h'
  rw [h, h']

end Shapes

/-! ## Recovered final observations -/

def recovered {α : Type} (rollout : Dict (Tensor α)) (endKeys : List String)
    (endObs : Dict (Tensor α)) : Dict (Tensor α) :=
  (endKeys.filter fun key => (endObs.lookup key).isNone).foldl
    (fun fields key =>
      match rollout.lookup (obsKey key) with
      | some value => fields.insert key value.lastStep
      | none => fields) endObs

section Recover

variable {α : Type} {rollout endObs : Dict (Tensor α)}
  {endKeys : List String}

theorem foldlM_ok {ε σ β : Type} {f : σ → β → Except ε σ} {g : σ → β → σ}
    {items : List β} (hf : ∀ item ∈ items, ∀ state,
      f state item = .ok (g state item)) (state : σ) :
    items.foldlM f state = .ok (items.foldl g state) := by
  induction items generalizing state with
  | nil => rfl
  | cons item items ih =>
    rw [foldlM_cons, hf item mem_cons_self, foldl_cons]
    exact ih (fun other hother => hf other (mem_cons_of_mem _ hother))
      (g state item)

theorem recoverFields_ok (hkeys : ∀ key ∈ endKeys, (endObs.lookup key).isSome ∨
      (rollout.lookup (obsKey key)).isSome) :
    recoverFields missing rollout endKeys endObs =
      .ok (recovered rollout endKeys endObs) := by
  apply foldlM_ok
  intro key hkey fields
  obtain ⟨hmem, hnone⟩ := mem_filter.mp hkey
  have habsent : ¬(endObs.lookup key).isSome := by
    simp [Option.isNone_iff_eq_none.mp hnone]
  obtain ⟨value, hvalue⟩ := Option.isSome_iff_exists.mp
    ((hkeys key hmem).resolve_left habsent)
  simp [Dict.fetch, hvalue, bind, Except.bind, pure, Except.pure]

theorem lookup_recovered (hnodup : endKeys.Nodup) (key : String) :
    (recovered rollout endKeys endObs).lookup key =
      if (endObs.lookup key).isSome then endObs.lookup key
      else if key ∈ endKeys then
        (rollout.lookup (obsKey key)).map Tensor.lastStep
      else none := by
  have hfold : ∀ (keys : List String) (fields : Dict (Tensor α)),
      keys.Nodup → (∀ other ∈ keys, fields.lookup other = none) →
      (keys.foldl (fun fields key =>
        match rollout.lookup (obsKey key) with
        | some value => fields.insert key value.lastStep
        | none => fields) fields).lookup key =
        if key ∈ keys then
          (rollout.lookup (obsKey key)).map Tensor.lastStep
        else fields.lookup key := by
    intro keys
    induction keys with
    | nil => simp
    | cons first keys ih =>
      intro fields hkeys hfresh
      obtain ⟨hnotMem, hrest⟩ := nodup_cons.mp hkeys
      rw [foldl_cons, ih _ hrest]
      · by_cases hkey : key = first
        · subst hkey
          have hnone := hfresh key mem_cons_self
          cases rollout.lookup (obsKey key) with
          | none => simp [hnotMem, hnone]
          | some value => simp [hnotMem, AList.lookup_insert]
        · cases rollout.lookup (obsKey first) with
          | none => simp [hkey]
          | some value => simp [hkey, AList.lookup_insert_ne hkey]
      · intro other hother
        have hne : other ≠ first := fun heq => hnotMem (heq ▸ hother)
        have hnone := hfresh other (mem_cons_of_mem _ hother)
        cases rollout.lookup (obsKey first) with
        | none => exact hnone
        | some value =>
          rw [AList.lookup_insert_ne hne]
          exact hnone
  unfold recovered
  rw [hfold _ _ (hnodup.filter _)]
  · cases hkey : endObs.lookup key with
    | none | some value => simp [hkey]
  · intro other hother
    exact Option.isNone_iff_eq_none.mp (mem_filter.mp hother).2

end Recover

/-! ## Normalised final observations -/

theorem obsKey_fieldOf (hkey : isObs key) : obsKey (fieldOf key) = key := by
  obtain ⟨rest, hrest⟩ := isPrefixOf_iff_prefix.mp hkey
  apply String.toList_injective
  simp [obsKey, fieldOf, ← hrest]

@[simp] theorem isObs_obsKey (field : String) : isObs (obsKey field) := by
  simp [isObs, obsKey]

@[simp] theorem fieldOf_obsKey (field : String) :
    fieldOf (obsKey field) = field := by
  simp [fieldOf, obsKey]

/-- The final observations after recovery report one set of fields. -/
structure EndKeys (contract : FieldContract) (group : RolloutGroup ω)
    (tensorKeys arrayKeys : List String) : Prop where
  tensors_nodup : tensorKeys.Nodup
  arrays_nodup : arrayKeys.Nodup
  tensors_known : ∀ key ∈ tensorKeys, (contract.endTensors key).isSome
  arrays_known : ∀ key ∈ arrayKeys, (contract.endArrays key).isSome
  tensors_all : ∀ key, (group.endObs.batch.lookup key).isSome →
    key ∈ tensorKeys
  arrays_all : ∀ key, (group.endObs.nonTensorBatch.lookup key).isSome →
    key ∈ arrayKeys

def normalizedGroup (tensorKeys arrayKeys : List String)
    (group : RolloutGroup ω) : RolloutGroup ω where
  rollout := group.rollout
  endObs :=
    { batch := recovered group.rollout.batch tensorKeys group.endObs.batch
      nonTensorBatch := recovered group.rollout.nonTensorBatch arrayKeys
        group.endObs.nonTensorBatch
      metaInfo := group.endObs.metaInfo }

section Recovery

variable {α : Type} {rollout endObs : Dict (Tensor α)}
  {endKeys : List String} {batchSize steps : ℕ}
  {shapes endShapes : String → Option (List ℕ)}

theorem recovered_shape (hnodup : endKeys.Nodup)
    (hrollout : ∀ key, (rollout.lookup key).map (·.shape) =
      (shapes key).map (batchSize :: steps :: ·))
    (hend : ∀ field tensor, endObs.lookup field = some tensor →
      ∃ shape, endShapes field = some shape ∧
        tensor.shape = batchSize :: shape)
    (hvalid : ∀ field shape endShape, shapes (obsKey field) = some shape →
      endShapes field = some endShape → endShape = shape)
    (hknown : ∀ key ∈ endKeys, (endShapes key).isSome)
    (htensor : (recovered rollout endKeys endObs).lookup field = some tensor) :
    ∃ shape, endShapes field = some shape ∧
      tensor.shape = batchSize :: shape := by
  rw [lookup_recovered hnodup] at htensor
  split_ifs at htensor with hreported hmem
  · exact hend field tensor htensor
  · obtain ⟨value, hvalue, rfl⟩ := Option.map_eq_some_iff.mp htensor
    obtain ⟨shape, hshape, hvalueShape⟩ :=
      shape_of_some (hrollout (obsKey field)) hvalue
    obtain ⟨endShape, hendShape⟩ :=
      Option.isSome_iff_exists.mp (hknown field hmem)
    have heq := hvalid field shape endShape hshape hendShape
    refine ⟨endShape, hendShape, ?_⟩
    simp [Tensor.lastStep, Tensor.rows, hvalueShape, heq]

theorem recovered_isSome (hnodup : endKeys.Nodup)
    (hother : ∀ field, (endShapes field).isSome →
      (endObs.lookup field).isSome ∨ (shapes (obsKey field)).isSome)
    (hrollout : ∀ key, (rollout.lookup key).map (·.shape) =
      (shapes key).map (batchSize :: steps :: ·))
    (hknown : ∀ key ∈ endKeys, (endShapes key).isSome)
    (hall : ∀ key, (endObs.lookup key).isSome → key ∈ endKeys)
    (field : String) :
    ((recovered rollout endKeys endObs).lookup field).isSome ↔
      field ∈ endKeys := by
  rw [lookup_recovered hnodup]
  split_ifs with hreported hmem
  · exact iff_of_true hreported (hall field hreported)
  · refine iff_of_true ?_ hmem
    have hshape := (hother field (hknown field hmem)).resolve_left hreported
    obtain ⟨shape, hshape⟩ := Option.isSome_iff_exists.mp hshape
    obtain ⟨value, hvalue, _⟩ := some_of_shape (hrollout (obsKey field)) hshape
    simp [hvalue]
  · exact iff_of_false (by simp) hmem

theorem recovered_tail (hnodup : endKeys.Nodup)
    (hrollout : ∀ key, (rollout.lookup key).map (·.shape) =
      (shapes key).map (batchSize :: steps :: ·))
    (hend : ∀ field tensor, endObs.lookup field = some tensor →
      ∃ shape, endShapes field = some shape ∧
        tensor.shape = batchSize :: shape)
    (hvalid : ∀ field shape endShape, shapes (obsKey field) = some shape →
      endShapes field = some endShape → endShape = shape)
    (hother : ∀ field, (endShapes field).isSome →
      (endObs.lookup field).isSome ∨ (shapes (obsKey field)).isSome)
    (hknown : ∀ key ∈ endKeys, (endShapes key).isSome)
    (hall : ∀ key, (endObs.lookup key).isSome → key ∈ endKeys)
    (field : String) :
    ((recovered rollout endKeys endObs).lookup field).map (·.shape.tail) =
      if field ∈ endKeys then endShapes field else none := by
  have hsome := recovered_isSome hnodup hother hrollout hknown hall field
  cases hfield : (recovered rollout endKeys endObs).lookup field with
  | none =>
    rw [hfield] at hsome
    have hnot : field ∉ endKeys := fun hmem => by cases hsome.mpr hmem
    simp [hnot]
  | some tensor =>
    rw [hfield] at hsome
    obtain ⟨shape, hshape, htensor⟩ :=
      recovered_shape hnodup hrollout hend hvalid hknown hfield
    simp [hsome.mp rfl, hshape, htensor]

end Recovery

section Normalize

variable {contract : FieldContract} {group : RolloutGroup ω}
  {tensorKeys arrayKeys : List String}

theorem normalized_conforms (hvalid : contract.Valid)
    (hconforms : group.Conforms contract)
    (hkeys : EndKeys contract group tensorKeys arrayKeys) :
    (normalizedGroup tensorKeys arrayKeys group).Conforms contract := by
  have hkeep : ∀ {α : Type} {rollout endObs : Dict (Tensor α)}
      {endKeys : List String} {field : String}, endKeys.Nodup →
      (endObs.lookup field).isSome →
      ((recovered rollout endKeys endObs).lookup field).isSome := by
    intro α rollout endObs endKeys field hnodup hsome
    rw [lookup_recovered hnodup, if_pos hsome]
    exact hsome
  constructor
  case steps_pos => exact hconforms.steps_pos
  case tensors => exact hconforms.tensors
  case arrays => exact hconforms.arrays
  case endTensors =>
    intro field tensor htensor
    exact recovered_shape hkeys.tensors_nodup hconforms.tensors
      hconforms.endTensors hvalid.endTensors hkeys.tensors_known htensor
  case endArrays =>
    intro field array harray
    exact recovered_shape hkeys.arrays_nodup hconforms.arrays
      hconforms.endArrays hvalid.endArrays hkeys.arrays_known harray
  case policyTensors =>
    intro field hfield hprofile
    exact hkeep hkeys.tensors_nodup
      (hconforms.policyTensors field hfield hprofile)
  case policyArrays =>
    intro field hfield hmetadata
    exact hkeep hkeys.arrays_nodup
      (hconforms.policyArrays field hfield hmetadata)
  case otherTensors =>
    intro field hfield
    rcases hconforms.otherTensors field hfield with hsome | hshape
    · exact .inl (hkeep hkeys.tensors_nodup hsome)
    · exact .inr hshape
  case otherArrays =>
    intro field hfield
    rcases hconforms.otherArrays field hfield with hsome | hshape
    · exact .inl (hkeep hkeys.arrays_nodup hsome)
    · exact .inr hshape
  case metaInfo => exact hconforms.metaInfo
  case endMetaInfo => exact hconforms.endMetaInfo

theorem endObs_hasRows (hconforms : group.Conforms contract) :
    group.endObs.HasRows group.size := by
  constructor
  · intro field tensor htensor
    obtain ⟨shape, _, hshape⟩ := hconforms.endTensors field tensor htensor
    rw [hshape]
    rfl
  · intro field array harray
    obtain ⟨shape, _, hshape⟩ := hconforms.endArrays field array harray
    rw [hshape]
    rfl

theorem normalizeEndObservation_ok [Inhabited ω]
    (hlibrary : library.Documented) (hvalid : contract.Valid)
    (hconforms : group.Conforms contract)
    (hkeys : EndKeys contract group tensorKeys arrayKeys) (index : ℕ) :
    normalizeEndObservation library tensorKeys arrayKeys (group, index) =
      .ok (normalizedGroup tensorKeys arrayKeys group) := by
  have htensors : ∀ key ∈ tensorKeys, (group.endObs.batch.lookup key).isSome ∨
        (group.rollout.batch.lookup (obsKey key)).isSome := by
    intro key hkey
    rcases hconforms.otherTensors key (hkeys.tensors_known key hkey) with
      hsome | hshape
    · exact .inl hsome
    · obtain ⟨shape, hshape⟩ := Option.isSome_iff_exists.mp hshape
      obtain ⟨value, hvalue, _⟩ :=
        some_of_shape (hconforms.tensors (obsKey key)) hshape
      exact .inr (by simp [hvalue])
  have harrays : ∀ key ∈ arrayKeys,
      (group.endObs.nonTensorBatch.lookup key).isSome ∨
        (group.rollout.nonTensorBatch.lookup (obsKey key)).isSome := by
    intro key hkey
    rcases hconforms.otherArrays key (hkeys.arrays_known key hkey) with
      hsome | hshape
    · exact .inl hsome
    · obtain ⟨shape, hshape⟩ := Option.isSome_iff_exists.mp hshape
      obtain ⟨value, hvalue, _⟩ :=
        some_of_shape (hconforms.arrays (obsKey key)) hshape
      exact .inr (by simp [hvalue])
  have hdict := hlibrary.fromDict_ok _ _
    (endObs_hasRows (normalized_conforms hvalid hconforms hkeys))
  simp only [normalizeEndObservation, bind_eq_ok]
  exact ⟨_, recoverFields_ok htensors, _, recoverFields_ok harrays, _,
    hdict, rfl⟩

end Normalize

/-! ## Padded fields -/

def paddedTensor (padSteps : ℕ) (group : RolloutGroup ω) (key : String)
    (value : Tensor ℚ) : Tensor ℚ :=
  if padSteps = 0 then value
  else if isObs key then
    value.catSteps (((group.endObs.batch.lookup (fieldOf key)).getD
      value.lastStep).repeatStep padSteps)
  else value.catSteps
    { shape := group.size :: padSteps :: value.shape.drop 2
      entry := fun _ => 0 }

def paddedArray (padSteps : ℕ) (group : RolloutGroup ω) (key : String)
    (value : Tensor ω) : Tensor ω :=
  if padSteps = 0 then value
  else value.catSteps (((if isObs key then
        group.endObs.nonTensorBatch.lookup (fieldOf key)
      else none).getD value.lastStep).repeatStep padSteps)

def paddedRollout (maxSteps : ℕ) (group : RolloutGroup ω) : DataProto ω where
  batch := group.rollout.batch.map
    (paddedTensor (maxSteps - group.steps) group)
  nonTensorBatch := group.rollout.nonTensorBatch.map
    (paddedArray (maxSteps - group.steps) group)
  metaInfo := group.rollout.metaInfo

section Padding

variable {contract : FieldContract} {group : RolloutGroup ω}
  {maxSteps : ℕ}

theorem terminal_shape {α : Type} {value : Tensor α}
    {reported : Option (Tensor α)}
    (hvalue : value.shape = size :: steps :: shape)
    (hreported : ∀ terminal, reported = some terminal →
      terminal.shape = size :: shape) :
    (reported.getD value.lastStep).shape = size :: shape := by
  cases hcase : reported with
  | none => simp [Tensor.lastStep, Tensor.rows, hvalue]
  | some terminal => exact hreported terminal hcase

section

variable (hvalid : contract.Valid) (hconforms : group.Conforms contract)

include hvalid hconforms

theorem reported_tensor (hkey : isObs key)
    (hshape : contract.tensors key = some shape) {terminal : Tensor ℚ}
    (hterminal : group.endObs.batch.lookup (fieldOf key) = some terminal) :
    terminal.shape = group.size :: shape := by
  obtain ⟨endShape, hendShape, hterminalShape⟩ :=
    hconforms.endTensors (fieldOf key) terminal hterminal
  rw [← obsKey_fieldOf hkey] at hshape
  rw [hterminalShape,
    hvalid.endTensors (fieldOf key) shape endShape hshape hendShape]

theorem reported_array (hkey : isObs key)
    (hshape : contract.arrays key = some shape) {terminal : Tensor ω}
    (hterminal : group.endObs.nonTensorBatch.lookup (fieldOf key) =
      some terminal) :
    terminal.shape = group.size :: shape := by
  obtain ⟨endShape, hendShape, hterminalShape⟩ :=
    hconforms.endArrays (fieldOf key) terminal hterminal
  rw [← obsKey_fieldOf hkey] at hshape
  rw [hterminalShape,
    hvalid.endArrays (fieldOf key) shape endShape hshape hendShape]

theorem padTensor_ok (index padSteps : ℕ)
    {key : String} {value : Tensor ℚ}
    (hvalue : group.rollout.batch.lookup key = some value) :
    (padTensor index group.size group.steps padSteps group.endObs.batch key
      value : Except (TrainingError ω) (Tensor ℚ)) =
        .ok (paddedTensor padSteps group key value) := by
  obtain ⟨shape, hshape, hvalueShape⟩ :=
    shape_of_some (hconforms.tensors key) hvalue
  have hleading : value.shape.take 2 = [group.size, group.steps] := by
    rw [hvalueShape]
    rfl
  unfold padTensor paddedTensor
  rw [require_of hleading]
  split_ifs with hpad hkey
  · rfl
  · have hterminal : ((group.endObs.batch.lookup (fieldOf key)).getD
        value.lastStep).shape = group.size :: value.shape.drop 2 := by
      rw [hvalueShape]
      exact terminal_shape hvalueShape fun terminal hreported =>
        reported_tensor hvalid hconforms hkey hshape hreported
    dsimp only
    rw [require_of hterminal]
    rfl
  · rfl

theorem padArray_ok (index padSteps : ℕ)
    {key : String} {value : Tensor ω}
    (hvalue : group.rollout.nonTensorBatch.lookup key = some value) :
    padArray index group.size group.steps padSteps
      group.endObs.nonTensorBatch key value =
        .ok (paddedArray padSteps group key value) := by
  obtain ⟨shape, hshape, hvalueShape⟩ :=
    shape_of_some (hconforms.arrays key) hvalue
  have hleading : value.shape.take 2 = [group.size, group.steps] := by
    rw [hvalueShape]
    rfl
  unfold padArray paddedArray
  rw [require_of hleading]
  by_cases hpad : padSteps = 0
  · simp only [hpad, if_true]
    rfl
  · simp only [hpad, if_false]
    have hterminal : ((if isObs key then
        group.endObs.nonTensorBatch.lookup (fieldOf key) else none).getD
          value.lastStep).shape = group.size :: value.shape.drop 2 := by
      rw [hvalueShape]
      apply terminal_shape hvalueShape
      intro terminal hreported
      split_ifs at hreported with hkey
      exact reported_array hvalid hconforms hkey hshape hreported
    rw [require_of hterminal]
    rfl

end

theorem shape_padded {α : Type} {value padding : Tensor α}
    (hvalue : value.shape = size :: steps :: shape)
    (hpadding : padding.shape = size :: padSteps :: shape) :
    (value.catSteps padding).shape = size :: (steps + padSteps) :: shape := by
  simp [Tensor.catSteps, Tensor.rows, Tensor.steps, hvalue, hpadding]

theorem shape_repeatStep {α : Type} {terminal : Tensor α}
    (hterminal : terminal.shape = size :: shape) :
    (terminal.repeatStep padSteps).shape = size :: padSteps :: shape := by
  simp [Tensor.repeatStep, Tensor.rows, hterminal]

section

variable (hvalid : contract.Valid) (hconforms : group.Conforms contract)
  (hsteps : group.steps ≤ maxSteps)

include hvalid hconforms hsteps

theorem paddedTensor_shape (key : String) :
    ((paddedRollout maxSteps group).batch.lookup key).map (·.shape) =
      (contract.tensors key).map (group.size :: maxSteps :: ·) := by
  have hfield := hconforms.tensors key
  rw [paddedRollout, Dict.lookup_map, Option.map_map]
  cases hvalue : group.rollout.batch.lookup key with
  | none =>
    rw [hvalue, Option.map_none] at hfield
    rw [Option.map_eq_none_iff.mp hfield.symm]
    rfl
  | some value =>
    obtain ⟨shape, hshape, hvalueShape⟩ := shape_of_some hfield hvalue
    rw [hshape]
    simp only [Option.map_some, Function.comp_apply, Option.some.injEq]
    have htotal : group.steps + (maxSteps - group.steps) = maxSteps := by
      omega
    unfold paddedTensor
    split_ifs with hpad hkey
    · have hsame : group.steps = maxSteps := by omega
      rw [hvalueShape, hsame]
    · rw [shape_padded hvalueShape (shape_repeatStep
        (terminal_shape hvalueShape fun terminal hreported =>
          reported_tensor hvalid hconforms hkey hshape hreported)), htotal]
    · rw [shape_padded hvalueShape (by rw [hvalueShape]; rfl), htotal]

theorem paddedArray_shape (key : String) :
    ((paddedRollout maxSteps group).nonTensorBatch.lookup key).map (·.shape) =
      (contract.arrays key).map (group.size :: maxSteps :: ·) := by
  have hfield := hconforms.arrays key
  rw [paddedRollout, Dict.lookup_map, Option.map_map]
  cases hvalue : group.rollout.nonTensorBatch.lookup key with
  | none =>
    rw [hvalue, Option.map_none] at hfield
    rw [Option.map_eq_none_iff.mp hfield.symm]
    rfl
  | some value =>
    obtain ⟨shape, hshape, hvalueShape⟩ := shape_of_some hfield hvalue
    rw [hshape]
    simp only [Option.map_some, Function.comp_apply, Option.some.injEq]
    have htotal : group.steps + (maxSteps - group.steps) = maxSteps := by
      omega
    unfold paddedArray
    split_ifs with hpad hkey
    · have hsame : group.steps = maxSteps := by omega
      rw [hvalueShape, hsame]
    · rw [shape_padded hvalueShape (shape_repeatStep
        (terminal_shape hvalueShape fun terminal hreported =>
          reported_array hvalid hconforms hkey hshape hreported)), htotal]
    · rw [shape_padded hvalueShape (shape_repeatStep
        (terminal_shape hvalueShape fun terminal hreported => by
          cases hreported)), htotal]

theorem paddedRollout_hasRows :
    (paddedRollout maxSteps group).HasRows group.size := by
  constructor
  · intro key tensor htensor
    obtain ⟨shape, _, hshape⟩ := shape_of_some
      (paddedTensor_shape hvalid hconforms hsteps key) htensor
    rw [hshape]
    rfl
  · intro key array harray
    obtain ⟨shape, _, hshape⟩ := shape_of_some
      (paddedArray_shape hvalid hconforms hsteps key) harray
    rw [hshape]
    rfl

end

theorem keys_subset {α : Type} {dict other : Dict α}
    (hkeys : ∀ key, (dict.lookup key).isSome →
      (other.lookup key).isSome) : dict.keys ⊆ other.keys := by
  intro key hkey
  exact AList.lookup_isSome.mp (hkeys key (AList.lookup_isSome.mpr hkey))

theorem sameKeys_of_shapes {α : Type} {dict other : Dict (Tensor α)}
    {shapes : String → Option (List ℕ)} {grow growOther : List ℕ → List ℕ}
    (hdict : ∀ key, (dict.lookup key).map (·.shape) = (shapes key).map grow)
    (hother : ∀ key, (other.lookup key).map (·.shape) =
      (shapes key).map growOther) :
    sameKeys dict other := by
  have hiff : ∀ key, (dict.lookup key).isSome ↔ (other.lookup key).isSome :=
    fun key => isSome_iff_of_shape (hdict key) (hother key)
  simp only [sameKeys, decide_eq_true_eq]
  constructor
  · exact keys_subset fun key hkey => (hiff key).mp hkey
  · exact keys_subset fun key hkey => (hiff key).mpr hkey

theorem padRollout_ok [Inhabited ω] {library : TrainingLibrary ω}
    (hlibrary : library.Documented) (hvalid : contract.Valid)
    {first : RolloutGroup ω} (hfirst : first.Conforms contract)
    (hconforms : group.Conforms contract) (hsteps : group.steps ≤ maxSteps)
    (index : ℕ) :
    padRollout library first.rollout maxSteps (group, index) =
      .ok (paddedRollout maxSteps group) := by
  obtain ⟨rest, haction⟩ := hvalid.action
  obtain ⟨action, hlookup, _⟩ :=
    some_of_shape (hconforms.tensors "action.action") haction
  have hactionSteps : action.steps = group.steps := by
    simp [RolloutGroup.steps, hlookup]
  have hkeys : sameKeys group.rollout.batch first.rollout.batch ∧
      sameKeys group.rollout.nonTensorBatch first.rollout.nonTensorBatch :=
    ⟨sameKeys_of_shapes hconforms.tensors hfirst.tensors,
      sameKeys_of_shapes hconforms.arrays hfirst.arrays⟩
  have hpositive : 0 < action.steps := hactionSteps ▸ hconforms.steps_pos
  simp only [padRollout, bind_eq_ok, require_eq_ok, Dict.fetch_eq_ok]
  refine ⟨(), hkeys, action, hlookup, (), hpositive, _,
    Dict.traverse_ok (g := paddedTensor (maxSteps - group.steps) group) ?_, _,
    Dict.traverse_ok (g := paddedArray (maxSteps - group.steps) group) ?_, ?_⟩
  · intro key value hvalue
    rw [hactionSteps]
    exact padTensor_ok hvalid hconforms index _ hvalue
  · intro key value hvalue
    rw [hactionSteps]
    exact padArray_ok hvalid hconforms index _ hvalue
  · exact hlibrary.fromDict_ok (paddedRollout maxSteps group) group.size
      (paddedRollout_hasRows hvalid hconforms hsteps)

end Padding

/-! ## The concatenated batch -/

theorem mapM_ok {ε α β : Type} {f : α → Except ε β} {g : α → β}
    {items : List α} (hf : ∀ item ∈ items, f item = .ok (g item)) :
    items.mapM f = .ok (items.map g) := by
  induction items with
  | nil => rfl
  | cons item items ih =>
    rw [mapM_cons, hf item mem_cons_self,
      ih fun other hother => hf other (mem_cons_of_mem item hother)]
    rfl

theorem mapM_zipIdx_ok {ε α β : Type} {f : α × ℕ → Except ε β} {g : α → β}
    {items : List α}
    (hf : ∀ item ∈ items, ∀ index, f (item, index) = .ok (g item)) :
    items.zipIdx.mapM f = .ok (items.map g) := by
  have hentries : ∀ entry ∈ items.zipIdx, f entry = .ok (g entry.1) :=
    fun entry hentry =>
      hf entry.1 (fst_mem_of_mem_zipIdx hentry) entry.2
  rw [mapM_ok hentries]
  congr 1
  calc items.zipIdx.map (fun entry => g entry.1)
      = (items.zipIdx.map Prod.fst).map g := by
        rw [map_map]
        rfl
    _ = items.map g := by rw [zipIdx_map_fst]

theorem le_maxPolicySteps (hstep : step ∈ steps) :
    step ≤ maxPolicySteps steps := by
  have hfold : ∀ (steps : List ℕ) (start : ℕ), start ≤ steps.foldl max start ∧
      ∀ step ∈ steps, step ≤ steps.foldl max start := by
    intro steps
    induction steps with
    | nil => simp
    | cons first steps ih =>
      intro start
      obtain ⟨hstart, hsteps⟩ := ih (max start first)
      rw [foldl_cons]
      refine ⟨le_trans (le_max_left _ _) hstart, ?_⟩
      intro step hstep
      rcases mem_cons.mp hstep with rfl | hstep
      · exact le_trans (le_max_right _ _) hstart
      · exact hsteps step hstep
  exact (hfold steps 0).2 step hstep

theorem stacked_shape {α : Type} {field source : Option (Tensor α)} {n : ℕ}
    (hhead : ∀ tensor, field = some tensor → tensor.shape.head? = some n)
    (htail : field.map (·.shape.tail) = source.map (·.shape.tail)) :
    field.map (·.shape) = source.map fun tensor => n :: tensor.shape.tail := by
  cases field with
  | none =>
    rw [Option.map_none] at htail
    rw [Option.map_eq_none_iff.mp htail.symm]
    rfl
  | some tensor =>
    obtain ⟨found, hfound, hshape⟩ := Option.map_eq_some_iff.mp htail.symm
    obtain ⟨rest, hrest⟩ := head?_eq_some_iff.mp (hhead tensor rfl)
    simp only [hfound, Option.map_some, hrest, Option.some.injEq]
    simp only [hrest, tail_cons] at hshape
    rw [hshape]

def endTensorKeys (groups : List (RolloutGroup ω)) : List String :=
  (groups.flatMap fun group => group.endObs.batch.keys).dedup

def endArrayKeys (groups : List (RolloutGroup ω)) : List String :=
  (groups.flatMap fun group => group.endObs.nonTensorBatch.keys).dedup

def maxSteps (groups : List (RolloutGroup ω)) : ℕ :=
  maxPolicySteps (groups.map RolloutGroup.steps)

def rowOffset (before : List (RolloutGroup ω)) : ℕ :=
  (before.map RolloutGroup.size).sum

section Concatenation

variable {contract : FieldContract} {groups : List (RolloutGroup ω)}

theorem endKeys_of_groups
    (hconforms : ∀ group ∈ groups, group.Conforms contract)
    (hgroup : group ∈ groups) :
    EndKeys contract group (endTensorKeys groups) (endArrayKeys groups) := by
  constructor
  case tensors_nodup => exact nodup_dedup _
  case arrays_nodup => exact nodup_dedup _
  case tensors_known =>
    intro key hkey
    obtain ⟨other, hother, hmem⟩ := mem_flatMap.mp (mem_dedup.mp hkey)
    obtain ⟨tensor, htensor⟩ :=
      Option.isSome_iff_exists.mp (AList.lookup_isSome.mpr hmem)
    obtain ⟨shape, hshape, _⟩ :=
      (hconforms other hother).endTensors key tensor htensor
    simp [hshape]
  case arrays_known =>
    intro key hkey
    obtain ⟨other, hother, hmem⟩ := mem_flatMap.mp (mem_dedup.mp hkey)
    obtain ⟨array, harray⟩ :=
      Option.isSome_iff_exists.mp (AList.lookup_isSome.mpr hmem)
    obtain ⟨shape, hshape, _⟩ :=
      (hconforms other hother).endArrays key array harray
    simp [hshape]
  case tensors_all =>
    intro key hkey
    apply mem_dedup.mpr
    exact mem_flatMap.mpr ⟨group, hgroup, AList.lookup_isSome.mp hkey⟩
  case arrays_all =>
    intro key hkey
    apply mem_dedup.mpr
    exact mem_flatMap.mpr ⟨group, hgroup, AList.lookup_isSome.mp hkey⟩

theorem normalized_sameFields (hvalid : contract.Valid)
    (hconforms : ∀ group ∈ groups, group.Conforms contract)
    (hgroup : group ∈ groups) (hother : other ∈ groups) :
    (normalizedGroup (endTensorKeys groups) (endArrayKeys groups)
      group).endObs.SameFields
        (normalizedGroup (endTensorKeys groups) (endArrayKeys groups)
          other).endObs := by
  have htensor : ∀ group ∈ groups, ∀ key, _ := fun group hgroup key =>
    have hkeys := endKeys_of_groups hconforms hgroup
    have hgroup := hconforms group hgroup
    recovered_tail hkeys.tensors_nodup hgroup.tensors hgroup.endTensors
      hvalid.endTensors hgroup.otherTensors hkeys.tensors_known
      hkeys.tensors_all key
  have harray : ∀ group ∈ groups, ∀ key, _ := fun group hgroup key =>
    have hkeys := endKeys_of_groups hconforms hgroup
    have hgroup := hconforms group hgroup
    recovered_tail hkeys.arrays_nodup hgroup.arrays hgroup.endArrays
      hvalid.endArrays hgroup.otherArrays hkeys.arrays_known
      hkeys.arrays_all key
  constructor
  · intro key
    exact (htensor group hgroup key).trans (htensor other hother key).symm
  · intro key
    exact (harray group hgroup key).trans (harray other hother key).symm
  · exact (hconforms group hgroup).endMetaInfo.trans
      (hconforms other hother).endMetaInfo.symm

theorem padded_sameFields (hvalid : contract.Valid)
    (hgroup : group.Conforms contract) (hother : other.Conforms contract)
    (hsteps : group.steps ≤ steps) (hotherSteps : other.steps ≤ steps) :
    (paddedRollout steps group).SameFields (paddedRollout steps other) := by
  constructor
  · intro key
    have h := congrArg (Option.map List.tail)
      (paddedTensor_shape hvalid hgroup hsteps key)
    have h' := congrArg (Option.map List.tail)
      (paddedTensor_shape hvalid hother hotherSteps key)
    simp only [Option.map_map, Function.comp_def, tail_cons] at h h'
    exact h.trans h'.symm
  · intro key
    have h := congrArg (Option.map List.tail)
      (paddedArray_shape hvalid hgroup hsteps key)
    have h' := congrArg (Option.map List.tail)
      (paddedArray_shape hvalid hother hotherSteps key)
    simp only [Option.map_map, Function.comp_def, tail_cons] at h h'
    exact h.trans h'.symm
  · exact hgroup.metaInfo.trans hother.metaInfo.symm

structure Joined (contract : FieldContract)
    (groups : List (RolloutGroup ω)) (whole : RolloutGroup ω) : Prop where
  conforms : whole.Conforms contract
  steps : whole.steps = maxSteps groups
  rollout_row : ∀ before group after, groups = before ++ group :: after →
    ∀ i < group.size, whole.rollout.row (rowOffset before + i) =
      (paddedRollout (maxSteps groups) (normalizedGroup
        (endTensorKeys groups) (endArrayKeys groups) group)).row i
  endObs_row : ∀ before group after, groups = before ++ group :: after →
    ∀ i < group.size, whole.endObs.row (rowOffset before + i) =
      (normalizedGroup (endTensorKeys groups) (endArrayKeys groups)
        group).endObs.row i

theorem joined_conforms (hvalid : contract.Valid)
    (hconforms : ∀ group ∈ groups, group.Conforms contract)
    {first : RolloutGroup ω} (hfirst : first ∈ groups)
    {whole : RolloutGroup ω} {n : ℕ}
    (hrows : whole.rollout.HasRows n) (hendRows : whole.endObs.HasRows n)
    (hsame : whole.rollout.SameFields (paddedRollout (maxSteps groups)
      (normalizedGroup (endTensorKeys groups) (endArrayKeys groups) first)))
    (hendSame : whole.endObs.SameFields (normalizedGroup
      (endTensorKeys groups) (endArrayKeys groups) first).endObs) :
    whole.Conforms contract ∧ whole.steps = maxSteps groups := by
  have hnormalized := normalized_conforms hvalid (hconforms first hfirst)
    (endKeys_of_groups hconforms hfirst)
  have hle : first.steps ≤ maxSteps groups :=
    le_maxPolicySteps (mem_map_of_mem hfirst)
  have htensor : ∀ key, (whole.rollout.batch.lookup key).map (·.shape) =
      (contract.tensors key).map (n :: maxSteps groups :: ·) := by
    intro key
    have hpadded := congrArg (Option.map fun shape => n :: shape.tail)
      (paddedTensor_shape hvalid hnormalized hle key)
    rw [stacked_shape (hrows.tensors key) (hsame.tensors key)]
    simpa only [Option.map_map, Function.comp_def, tail_cons] using hpadded
  have harray : ∀ key, (whole.rollout.nonTensorBatch.lookup key).map
      (·.shape) = (contract.arrays key).map (n :: maxSteps groups :: ·) := by
    intro key
    have hpadded := congrArg (Option.map fun shape => n :: shape.tail)
      (paddedArray_shape hvalid hnormalized hle key)
    rw [stacked_shape (hrows.arrays key) (hsame.arrays key)]
    simpa only [Option.map_map, Function.comp_def, tail_cons] using hpadded
  obtain ⟨rest, hactionShape⟩ := hvalid.action
  obtain ⟨action, haction, hshape⟩ :=
    some_of_shape (htensor "action.action") hactionShape
  have hsize : whole.size = n := hrows.length_eq haction
  have hsteps : whole.steps = maxSteps groups := by
    simp [RolloutGroup.steps, haction, Tensor.steps, hshape]
  have hendTensorSome : ∀ field, (whole.endObs.batch.lookup field).isSome =
      ((normalizedGroup (endTensorKeys groups) (endArrayKeys groups)
        first).endObs.batch.lookup field).isSome := by
    intro field
    have h := congrArg Option.isSome (hendSame.tensors field)
    simpa only [Option.isSome_map] using h
  have hendArraySome : ∀ field,
      (whole.endObs.nonTensorBatch.lookup field).isSome =
        ((normalizedGroup (endTensorKeys groups) (endArrayKeys groups)
          first).endObs.nonTensorBatch.lookup field).isSome := by
    intro field
    have h := congrArg Option.isSome (hendSame.arrays field)
    simpa only [Option.isSome_map] using h
  refine ⟨?_, hsteps⟩
  constructor
  case steps_pos =>
    rw [hsteps]
    exact lt_of_lt_of_le (hconforms first hfirst).steps_pos hle
  case tensors => rwa [hsize, hsteps]
  case arrays => rwa [hsize, hsteps]
  case endTensors =>
    intro field tensor hfield
    have hstack := stacked_shape (hendRows.tensors field)
      (hendSame.tensors field)
    rw [hfield, Option.map_some] at hstack
    obtain ⟨source, hsource, heq⟩ := Option.map_eq_some_iff.mp hstack.symm
    obtain ⟨shape, hshape, hsourceShape⟩ :=
      hnormalized.endTensors field source hsource
    refine ⟨shape, hshape, ?_⟩
    rw [← heq, hsourceShape, hsize]
    rfl
  case endArrays =>
    intro field array hfield
    have hstack := stacked_shape (hendRows.arrays field)
      (hendSame.arrays field)
    rw [hfield, Option.map_some] at hstack
    obtain ⟨source, hsource, heq⟩ := Option.map_eq_some_iff.mp hstack.symm
    obtain ⟨shape, hshape, hsourceShape⟩ :=
      hnormalized.endArrays field source hsource
    refine ⟨shape, hshape, ?_⟩
    rw [← heq, hsourceShape, hsize]
    rfl
  case policyTensors =>
    intro field hfield hprofile
    rw [hendTensorSome]
    exact hnormalized.policyTensors field hfield hprofile
  case policyArrays =>
    intro field hfield hmetadata
    rw [hendArraySome]
    exact hnormalized.policyArrays field hfield hmetadata
  case otherTensors =>
    intro field hfield
    rw [hendTensorSome]
    exact hnormalized.otherTensors field hfield
  case otherArrays =>
    intro field hfield
    rw [hendArraySome]
    exact hnormalized.otherArrays field hfield
  case metaInfo => exact hsame.metaInfo.trans hnormalized.metaInfo
  case endMetaInfo => exact hendSame.metaInfo.trans hnormalized.endMetaInfo

theorem zipWith_groups (groups : List (RolloutGroup ω)) :
    List.zipWith RolloutGroup.mk (groups.map RolloutGroup.rollout)
      (groups.map RolloutGroup.endObs) = groups := by
  induction groups with
  | nil => rfl
  | cons group groups ih =>
    rw [map_cons, map_cons, zipWith_cons_cons, ih]

theorem concatenateRolloutGroupsWithPadding_ok [Inhabited ω]
    (hlibrary : library.Documented) (hvalid : contract.Valid)
    (hne : groups ≠ []) (hconforms : ∀ group ∈ groups, group.Conforms contract) :
    ∃ whole : RolloutGroup ω, concatenateRolloutGroupsWithPadding library
        (groups.map RolloutGroup.rollout) (groups.map RolloutGroup.endObs) =
          .ok (whole.rollout, whole.endObs) ∧
      Joined contract groups whole := by
  let normalize : RolloutGroup ω → RolloutGroup ω :=
    normalizedGroup (endTensorKeys groups) (endArrayKeys groups)
  have hnormalized : ∀ group ∈ groups,
      (normalize group).Conforms contract := fun group hgroup =>
    normalized_conforms hvalid (hconforms group hgroup)
      (endKeys_of_groups hconforms hgroup)
  have hle : ∀ group ∈ groups, (normalize group).steps ≤ maxSteps groups := by
    intro group hgroup
    show group.steps ≤ maxSteps groups
    exact le_maxPolicySteps (mem_map_of_mem hgroup)
  obtain ⟨joined, hjoined, hrows, hsame, hrow⟩ := concat_rows hlibrary
    (fun group => paddedRollout (maxSteps groups) (normalize group))
    RolloutGroup.size hne
    (fun group hgroup => paddedRollout_hasRows hvalid
      (hnormalized group hgroup) (hle group hgroup))
    (fun group hgroup other hother => padded_sameFields hvalid
      (hnormalized group hgroup) (hnormalized other hother)
      (hle group hgroup) (hle other hother))
  obtain ⟨joinedEnd, hjoinedEnd, hendRows, hendSame, hendRow⟩ :=
    concat_rows hlibrary (fun group => (normalize group).endObs)
      RolloutGroup.size hne
      (fun group hgroup => endObs_hasRows (hnormalized group hgroup))
      (fun group hgroup other hother =>
        normalized_sameFields hvalid hconforms hgroup hother)
  obtain ⟨first, rest, hfirst⟩ := exists_cons_of_ne_nil hne
  have hmem : first ∈ groups := by simp [hfirst]
  obtain ⟨hwhole, hsteps⟩ :
      (RolloutGroup.mk joined joinedEnd).Conforms contract ∧
        (RolloutGroup.mk joined joinedEnd).steps = maxSteps groups :=
    joined_conforms hvalid hconforms hmem hrows hendRows (hsame first hmem)
      (hendSame first hmem)
  refine ⟨⟨joined, joinedEnd⟩, ?_, hwhole, hsteps, hrow, hendRow⟩
  have hrollouts : groups.map RolloutGroup.rollout =
      first.rollout :: rest.map RolloutGroup.rollout := by
    rw [hfirst]
    rfl
  have hnormalizedOk : groups.zipIdx.mapM (normalizeEndObservation library
      (endTensorKeys groups) (endArrayKeys groups)) =
        .ok (groups.map normalize) := by
    apply mapM_zipIdx_ok
    intro group hgroup index
    exact normalizeEndObservation_ok hlibrary hvalid
      (hconforms group hgroup) (endKeys_of_groups hconforms hgroup) index
  have hstepsOk : groups.mapM (@policySteps ω) =
      .ok (groups.map RolloutGroup.steps) := by
    apply mapM_ok
    intro group hgroup
    obtain ⟨_, haction⟩ := hvalid.action
    obtain ⟨action, hlookup, _⟩ := some_of_shape
      ((hconforms group hgroup).tensors "action.action") haction
    simp [policySteps, RolloutGroup.steps, hlookup, Dict.fetch, bind,
      Except.bind, pure, Except.pure]
  have hpaddedOk : (groups.map normalize).zipIdx.mapM
      (padRollout library first.rollout (maxSteps groups)) =
        .ok ((groups.map normalize).map
          (paddedRollout (maxSteps groups))) := by
    apply mapM_zipIdx_ok
    intro normal hnormal index
    obtain ⟨group, hgroup, rfl⟩ := mem_map.mp hnormal
    exact padRollout_ok hlibrary hvalid (hconforms first hmem)
      (hnormalized group hgroup) (hle group hgroup) index
  unfold concatenateRolloutGroupsWithPadding
  rw [hrollouts]
  dsimp only
  rw [← hrollouts, zipWith_groups]
  simp only [bind_eq_ok, require_eq_ok, length_map, true_and, flatMap_map]
  rw [map_map] at hpaddedOk
  refine ⟨(), _, hnormalizedOk, _, hstepsOk, _, hpaddedOk, joined, hjoined,
    joinedEnd, ?_, rfl⟩
  rw [map_map]
  exact hjoinedEnd

end Concatenation

end VerlVla
