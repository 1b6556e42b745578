import Mathlib.Data.List.Find
import VerlVla.GrpoAdvantages
import VerlVla.FpoPreparation

/-!
# Padding across groups does not change training

A group prepared alone and the same group prepared inside the padded
concatenation have equal transitions at every slot of the group.  The slots
behind a group are invalid and carry no reward, discount or action mask, and
the scores of its trajectories are the ones recorded before padding.
-/

namespace VerlVla

open Finset

variable {ω : Type}

/-! ## A group inside a longer batch -/

def rowOf {α : Type} (field : Option (Tensor α)) (trajectory : ℕ) :
    Option (Tensor α) :=
  field.map (·.row trajectory)

def slotOf {α : Type} (field : Option (Tensor α)) (trajectory step : ℕ) :
    Option (Tensor α) :=
  field.map fun tensor => (tensor.row trajectory).row step

/-- The fields of a group at the rows behind `offset` of longer fields. -/
structure ExtendsFields {α : Type} (whole wholeEnd group groupEnd :
    Dict (Tensor α)) (size steps wholeSteps offset : ℕ) : Prop where
  slots : ∀ key, ∀ i < size, ∀ step < steps,
    slotOf (whole.lookup key) (offset + i) step =
      slotOf (group.lookup key) i step
  successor : ∀ key, isObs key → (group.lookup key).isSome →
    (groupEnd.lookup (fieldOf key)).isSome → steps < wholeSteps →
    ∀ i < size, slotOf (whole.lookup key) (offset + i) steps =
      rowOf (groupEnd.lookup (fieldOf key)) i
  ends : ∀ field, (groupEnd.lookup field).isSome → ∀ i < size,
    rowOf (wholeEnd.lookup field) (offset + i) =
      rowOf (groupEnd.lookup field) i

structure Extends (whole group : RolloutGroup ω) (offset : ℕ) : Prop where
  steps_le : group.steps ≤ whole.steps
  tensors : ExtendsFields whole.rollout.batch whole.endObs.batch
    group.rollout.batch group.endObs.batch group.size group.steps
    whole.steps offset
  arrays : ExtendsFields whole.rollout.nonTensorBatch
    whole.endObs.nonTensorBatch group.rollout.nonTensorBatch
    group.endObs.nonTensorBatch group.size group.steps whole.steps offset
  zero : ∀ key tensor, whole.rollout.batch.lookup key = some tensor →
    ¬isObs key → ∀ i < group.size, ∀ step, group.steps ≤ step →
    step < whole.steps → ∀ rest,
      tensor.entry ((offset + i) :: step :: rest) = 0

section Slots

variable {α : Type}

theorem slotOf_eq_map (field : Option (Tensor α)) (trajectory step : ℕ) :
    slotOf field trajectory step =
      (rowOf field trajectory).map (·.row step) := by
  rw [slotOf, rowOf, Option.map_map]
  rfl

theorem slotOf_congr (hrow : rowOf field i = rowOf other j) (step : ℕ) :
    slotOf field i step = slotOf other j step := by
  rw [slotOf_eq_map, slotOf_eq_map, hrow]

theorem entry_eq_of_slotOf
    (hslot : slotOf (some field) i step = slotOf (some other) j step)
    (rest : List ℕ) :
    field.entry (i :: step :: rest) = other.entry (j :: step :: rest) := by
  have htensor := Option.some.inj hslot
  exact congrFun (congrArg Tensor.entry htensor) rest

theorem entry_eq_of_rowOf {field other : Tensor α}
    (hrow : rowOf (some field) i = rowOf (some other) j) (rest : List ℕ) :
    field.entry (i :: rest) = other.entry (j :: rest) := by
  have htensor := Option.some.inj hrow
  exact congrFun (congrArg Tensor.entry htensor) rest

theorem ExtendsFields.aligned
    (hextends : ExtendsFields whole wholeEnd group groupEnd size steps
      wholeSteps offset) (hsteps : steps ≤ wholeSteps)
    (hgroup : Alignable size steps group groupEnd key)
    (hwhole : Alignable wholeSize wholeSteps whole wholeEnd key)
    (hi : i < size) (hstep : step < steps) :
    slotOf (alignedField whole wholeEnd key) (offset + i) step =
      slotOf (alignedField group groupEnd key) i step := by
  obtain ⟨hobs, obs, final, hlookup, hfinal, hshape, hfinalShape⟩ := hgroup
  obtain ⟨_, wholeObs, wholeFinal, hwholeLookup, hwholeFinal, hwholeShape,
    hwholeFinalShape⟩ := hwhole
  have hobsShape : obs.shape = size :: steps :: obs.shape.drop 2 := by
    conv_lhs => rw [← List.take_append_drop 2 obs.shape, hshape]
    rfl
  have hwholeObsShape :
      wholeObs.shape = wholeSize :: wholeSteps :: wholeObs.shape.drop 2 := by
    conv_lhs => rw [← List.take_append_drop 2 wholeObs.shape, hwholeShape]
    rfl
  have hends := hextends.ends (fieldOf key) (by simp [hfinal]) i hi
  simp only [alignedField, hlookup, hfinal, hwholeLookup, hwholeFinal, slotOf,
    Option.map_some, Option.some.injEq]
  rw [aligned_step hobsShape hfinalShape hstep,
    aligned_step hwholeObsShape hwholeFinalShape (by omega)]
  by_cases hnext : step + 1 < steps
  · have hwholeNext : step + 1 < wholeSteps := by omega
    have hslots := hextends.slots key i hi (step + 1) hnext
    rw [hlookup, hwholeLookup] at hslots
    rw [if_pos hnext, if_pos hwholeNext]
    exact Option.some.inj hslots
  · have hlast : step + 1 = steps := by omega
    rw [if_neg hnext]
    by_cases hshort : steps < wholeSteps
    · have hboundary := hextends.successor key hobs (by simp [hlookup])
        (by simp [hfinal]) hshort i hi
      rw [hwholeLookup, hfinal] at hboundary
      rw [if_pos (by omega), hlast]
      exact Option.some.inj hboundary
    · rw [hfinal, hwholeFinal] at hends
      rw [if_neg (by omega)]
      exact Option.some.inj hends

end Slots

theorem slotOf_matrix {size steps wholeSize wholeSteps a b step : ℕ}
    {f g : ℕ → ℕ → ℚ} (hvalue : f a step = g b step) :
    slotOf (some (Tensor.matrix wholeSize wholeSteps f)) a step =
      slotOf (some (Tensor.matrix size steps g)) b step := by
  simp [slotOf, Tensor.row, Tensor.matrix, hvalue]

theorem slotOf_cube {size steps wholeSize wholeSteps width a b step : ℕ}
    {f g : ℕ → ℕ → ℕ → ℚ} (hvalue : f a step = g b step) :
    slotOf (some (Tensor.cube wholeSize wholeSteps width f)) a step =
      slotOf (some (Tensor.cube size steps width g)) b step := by
  simp [slotOf, Tensor.row, Tensor.cube, hvalue]

theorem rowOf_vector {size wholeSize a b : ℕ} {f g : ℕ → ℚ}
    (hvalue : f a = g b) :
    rowOf (some (Tensor.vector wholeSize f)) a =
      rowOf (some (Tensor.vector size g)) b := by
  simp [rowOf, Tensor.row, Tensor.vector, hvalue]

/-! ## Padding keeps a group inside the longer batch -/

section Padded

variable {contract : FieldContract} {group : RolloutGroup ω} {key : String}

theorem paddedTensor_step_lt {value : Tensor ℚ} (hstep : step < value.steps)
    (i : ℕ) :
    ((paddedTensor pad group key value).row i).row step =
      (value.row i).row step := by
  unfold paddedTensor
  split_ifs with hpad hkey
  · rfl
  · exact Tensor.step_catSteps_lt hstep i
  · exact Tensor.step_catSteps_lt hstep i

theorem paddedArray_step_lt {value : Tensor ω} (hstep : step < value.steps)
    (i : ℕ) :
    ((paddedArray pad group key value).row i).row step =
      (value.row i).row step := by
  unfold paddedArray
  by_cases hpad : pad = 0
  · rw [if_pos hpad]
  · rw [if_neg hpad]
    exact Tensor.step_catSteps_lt hstep i

theorem paddedTensor_boundary {value terminal : Tensor ℚ} (hpad : 0 < pad)
    (hkey : isObs key)
    (hterminal : group.endObs.batch.lookup (fieldOf key) = some terminal)
    (hshape : terminal.shape = group.size :: value.shape.drop 2) (i : ℕ) :
    ((paddedTensor pad group key value).row i).row value.steps =
      terminal.row i := by
  unfold paddedTensor
  rw [if_neg (by omega), if_pos hkey, hterminal, Option.getD_some,
    Tensor.step_catSteps_ge le_rfl
      (by rw [shape_repeatStep hshape]; rfl), Tensor.step_repeatStep]

theorem paddedArray_boundary {value terminal : Tensor ω} (hpad : 0 < pad)
    (hkey : isObs key)
    (hterminal : group.endObs.nonTensorBatch.lookup (fieldOf key) =
      some terminal)
    (hshape : terminal.shape = group.size :: value.shape.drop 2) (i : ℕ) :
    ((paddedArray pad group key value).row i).row value.steps =
      terminal.row i := by
  unfold paddedArray
  rw [if_neg (by omega), if_pos hkey, hterminal, Option.getD_some,
    Tensor.step_catSteps_ge le_rfl
      (by rw [shape_repeatStep hshape]; rfl), Tensor.step_repeatStep]

theorem paddedTensor_zero {value : Tensor ℚ} (hpad : 0 < pad)
    (hkey : ¬isObs key) (hstep : value.steps ≤ step) (i : ℕ) (rest : List ℕ) :
    (paddedTensor pad group key value).entry (i :: step :: rest) = 0 := by
  unfold paddedTensor
  rw [if_neg (by omega), if_neg hkey]
  simp [Tensor.catSteps, Nat.not_lt.mpr hstep]

theorem steps_of_shape {α : Type} {value : Tensor α} {size steps : ℕ}
    {shape : List ℕ} (hshape : value.shape = size :: steps :: shape) :
    value.steps = steps := by
  simp [Tensor.steps, hshape]

end Padded

section Joined

variable {contract : FieldContract} {whole : RolloutGroup ω}

theorem Joined.rowOf_tensor (hjoined : Joined contract groups whole)
    {group : RolloutGroup ω} (hgroups : groups = before ++ group :: after)
    (hi : i < group.size) (key : String) :
    rowOf (whole.rollout.batch.lookup key) (rowOffset before + i) =
      rowOf ((group.rollout.batch.lookup key).map
        (paddedTensor (maxSteps groups - group.steps)
          (normalizedGroup (endTensorKeys groups) (endArrayKeys groups)
            group) key)) i := by
  have hrow := congrFun (congrArg DataProto.Row.tensors
    (hjoined.rollout_row before group after hgroups i hi)) key
  simp only [DataProto.row, paddedRollout, Dict.lookup_map] at hrow
  exact hrow

theorem Joined.rowOf_array (hjoined : Joined contract groups whole)
    {group : RolloutGroup ω} (hgroups : groups = before ++ group :: after)
    (hi : i < group.size) (key : String) :
    rowOf (whole.rollout.nonTensorBatch.lookup key) (rowOffset before + i) =
      rowOf ((group.rollout.nonTensorBatch.lookup key).map
        (paddedArray (maxSteps groups - group.steps)
          (normalizedGroup (endTensorKeys groups) (endArrayKeys groups)
            group) key)) i := by
  have hrow := congrFun (congrArg DataProto.Row.arrays
    (hjoined.rollout_row before group after hgroups i hi)) key
  simp only [DataProto.row, paddedRollout, Dict.lookup_map] at hrow
  exact hrow

theorem rowOf_recovered {α : Type} {rollout groupEnd : Dict (Tensor α)}
    {endKeys : List String} (hnodup : endKeys.Nodup)
    (hreported : (groupEnd.lookup field).isSome) (i : ℕ) :
    rowOf ((recovered rollout endKeys groupEnd).lookup field) i =
      rowOf (groupEnd.lookup field) i := by
  rw [lookup_recovered hnodup, if_pos hreported]

theorem extendsFields_of_rows {α : Type}
    {rollout rolloutEnd group groupEnd : Dict (Tensor α)}
    {padded : String → Tensor α → Tensor α}
    {size steps wholeSteps offset : ℕ}
    (hrow : ∀ i < size, ∀ key, rowOf (rollout.lookup key) (offset + i) =
      rowOf ((group.lookup key).map (padded key)) i)
    (hend : ∀ i < size, ∀ field, (groupEnd.lookup field).isSome →
      rowOf (rolloutEnd.lookup field) (offset + i) =
        rowOf (groupEnd.lookup field) i)
    (hslots : ∀ key value, group.lookup key = some value →
      ∀ i step, step < steps →
        ((padded key value).row i).row step = (value.row i).row step)
    (hboundary : steps < wholeSteps → ∀ key value terminal, isObs key →
      group.lookup key = some value →
      groupEnd.lookup (fieldOf key) = some terminal →
      ∀ i, ((padded key value).row i).row steps = terminal.row i) :
    ExtendsFields rollout rolloutEnd group groupEnd size steps wholeSteps
      offset := by
  constructor
  case slots =>
    intro key i hi step hstep
    rw [slotOf_congr (hrow i hi key)]
    cases hvalue : group.lookup key with
    | none => rfl
    | some value =>
      simp only [slotOf, Option.map_some, Option.some.injEq]
      exact hslots key value hvalue i step hstep
  case successor =>
    intro key hkey hgroup hgroupEnd hshort i hi
    obtain ⟨value, hvalue⟩ := Option.isSome_iff_exists.mp hgroup
    obtain ⟨terminal, hterminal⟩ := Option.isSome_iff_exists.mp hgroupEnd
    rw [slotOf_congr (hrow i hi key), hvalue, hterminal]
    simp only [slotOf, rowOf, Option.map_some, Option.some.injEq]
    exact hboundary hshort key value terminal hkey hvalue hterminal i
  case ends =>
    intro field hfield i hi
    exact hend i hi field hfield

theorem Joined.extends (hvalid : contract.Valid)
    (hconforms : ∀ group ∈ groups, group.Conforms contract)
    (hjoined : Joined contract groups whole)
    {before after : List (RolloutGroup ω)} {group : RolloutGroup ω}
    (hgroups : groups = before ++ group :: after) :
    Extends whole group (rowOffset before) := by
  have hmem : group ∈ groups := by simp [hgroups]
  have hgroup := hconforms group hmem
  have hkeys := endKeys_of_groups hconforms hmem
  have hnormalized := normalized_conforms hvalid hgroup hkeys
  have hle : group.steps ≤ maxSteps groups :=
    le_maxPolicySteps (List.mem_map_of_mem hmem)
  have hendRow : ∀ i < group.size,
      whole.endObs.row (rowOffset before + i) = _ :=
    hjoined.endObs_row before group after hgroups
  have htensorSteps : ∀ key value,
      group.rollout.batch.lookup key = some value →
        value.steps = group.steps := by
    intro key value hvalue
    obtain ⟨shape, _, hshape⟩ := shape_of_some (hgroup.tensors key) hvalue
    exact steps_of_shape hshape
  have harraySteps : ∀ key value,
      group.rollout.nonTensorBatch.lookup key = some value →
        value.steps = group.steps := by
    intro key value hvalue
    obtain ⟨shape, _, hshape⟩ := shape_of_some (hgroup.arrays key) hvalue
    exact steps_of_shape hshape
  constructor
  case steps_le => rwa [hjoined.steps]
  case tensors =>
    apply extendsFields_of_rows (fun i hi key =>
      hjoined.rowOf_tensor hgroups hi key)
    · intro i hi field hfield
      have hrow := congrFun
        (congrArg DataProto.Row.tensors (hendRow i hi)) field
      exact hrow.trans (rowOf_recovered hkeys.tensors_nodup hfield i)
    · intro key value hvalue i step hstep
      apply paddedTensor_step_lt
      rwa [htensorSteps key value hvalue]
    · intro hshort key value terminal hkey hvalue hterminal i
      rw [hjoined.steps] at hshort
      have hsteps := htensorSteps key value hvalue
      rw [← hsteps]
      obtain ⟨shape, hshape, hvalueShape⟩ :=
        shape_of_some (hgroup.tensors key) hvalue
      apply paddedTensor_boundary (by omega) hkey
      · show (recovered _ _ _).lookup _ = _
        rw [lookup_recovered hkeys.tensors_nodup, hterminal]
        rfl
      · rw [hvalueShape]
        exact reported_tensor hvalid hgroup hkey hshape hterminal
  case arrays =>
    apply extendsFields_of_rows (fun i hi key =>
      hjoined.rowOf_array hgroups hi key)
    · intro i hi field hfield
      have hrow := congrFun
        (congrArg DataProto.Row.arrays (hendRow i hi)) field
      exact hrow.trans (rowOf_recovered hkeys.arrays_nodup hfield i)
    · intro key value hvalue i step hstep
      apply paddedArray_step_lt
      rwa [harraySteps key value hvalue]
    · intro hshort key value terminal hkey hvalue hterminal i
      rw [hjoined.steps] at hshort
      have hsteps := harraySteps key value hvalue
      rw [← hsteps]
      obtain ⟨shape, hshape, hvalueShape⟩ :=
        shape_of_some (hgroup.arrays key) hvalue
      apply paddedArray_boundary (by omega) hkey
      · show (recovered _ _ _).lookup _ = _
        rw [lookup_recovered hkeys.arrays_nodup, hterminal]
        rfl
      · rw [hvalueShape]
        exact reported_array hvalid hgroup hkey hshape hterminal
  case zero =>
    intro key tensor htensor hkey i hi step hstep hwhole rest
    rw [hjoined.steps] at hwhole
    have hrow := hjoined.rowOf_tensor hgroups hi key
    rw [htensor] at hrow
    cases hvalue : group.rollout.batch.lookup key with
    | none =>
      rw [hvalue] at hrow
      cases hrow
    | some value =>
      rw [hvalue, Option.map_some] at hrow
      rw [entry_eq_of_rowOf hrow]
      apply paddedTensor_zero (by omega) hkey
      rwa [htensorSteps key value hvalue]

end Joined

/-! ## Feedback of a trajectory -/

def RolloutGroup.Finished (group : RolloutGroup ω) (trajectory : ℕ) : Prop :=
  ∃ key ∈ ["next.terminated", "next.truncated"], ∃ tensor,
    group.rollout.batch.lookup key = some tensor ∧
    ∃ step < group.steps, ∃ substep < tensor.shape.getD 2 0,
      tensor.entry [trajectory, step, substep] ≠ 0

theorem feedback_shape {contract : FieldContract} (hvalid : contract.Valid)
    {group : RolloutGroup ω} (hconforms : group.Conforms contract)
    (hkey : key ∈ feedbackKeys) {tensor : Tensor ℚ}
    (htensor : group.rollout.batch.lookup key = some tensor) :
    tensor.shape = [group.size, group.steps, contract.substeps] := by
  obtain ⟨shape, hshape, htensorShape⟩ :=
    shape_of_some (hconforms.tensors key) htensor
  by_cases hscore : key = "next.score"
  · rw [hscore] at hshape
    rw [htensorShape, hvalid.score shape hshape]
  · rw [hvalid.feedback key hkey hscore, Option.some.injEq] at hshape
    rw [htensorShape, ← hshape]

/-- One feedback tensor of a group next to the one of the longer batch. -/
structure Continues (whole group : Tensor ℚ)
    (steps wholeSteps substeps trajectory other : ℕ) : Prop where
  same : ∀ step < steps, ∀ substep, whole.entry [trajectory, step, substep] =
      group.entry [other, step, substep]
  idle : ∀ step, steps ≤ step → step < wholeSteps → ∀ substep,
    whole.entry [trajectory, step, substep] = 0
  shape : group.shape.tail = [steps, substeps]
  wholeShape : whole.shape.tail = [wholeSteps, substeps]

theorem Extends.continues {contract : FieldContract} (hvalid : contract.Valid)
    {whole group : RolloutGroup ω} (hwhole : whole.Conforms contract)
    (hgroup : group.Conforms contract) (hextends : Extends whole group offset)
    (hkey : key ∈ feedbackKeys) {wholeTensor tensor : Tensor ℚ}
    (hwholeTensor : whole.rollout.batch.lookup key = some wholeTensor)
    (htensor : group.rollout.batch.lookup key = some tensor)
    (hi : i < group.size) :
    Continues wholeTensor tensor group.steps whole.steps contract.substeps
      (offset + i) i := by
  have hobs : ¬isObs key := by
    simp only [feedbackKeys, List.mem_cons, List.not_mem_nil, or_false] at hkey
    rcases hkey with rfl | rfl | rfl | rfl | rfl <;> decide
  constructor
  case same =>
    intro step hstep substep
    have hslot := hextends.tensors.slots key i hi step hstep
    rw [hwholeTensor, htensor] at hslot
    exact entry_eq_of_slotOf hslot [substep]
  case idle =>
    intro step hstep hwholeStep substep
    exact hextends.zero key wholeTensor hwholeTensor hobs i hi step hstep
      hwholeStep [substep]
  case shape =>
    rw [feedback_shape hvalid hgroup hkey htensor]
    rfl
  case wholeShape =>
    rw [feedback_shape hvalid hwhole hkey hwholeTensor]
    rfl

/-! ## Scores of a trajectory -/

section

variable {tensor : Tensor ℚ} {steps substeps : ℕ}
  (hshape : tensor.shape.tail = [steps, substeps])

include hshape

theorem entry_flattenTail (i position : ℕ) :
    (flattenTail tensor).entry [i, position] =
      tensor.entry [i, position / substeps, position % substeps] := by
  simp [flattenTail, hshape, Tensor.unravel]

theorem steps_flattenTail : (flattenTail tensor).steps = steps * substeps := by
  simp [flattenTail, Tensor.steps, hshape]

theorem anyOf_iff (i : ℕ) : anyOf tensor i ↔ ∃ position < steps * substeps,
      tensor.entry [i, position / substeps, position % substeps] ≠ 0 := by
  simp [anyOf, steps_flattenTail hshape, entry_flattenTail hshape]

end

section Scores

variable {whole group : Tensor ℚ}
  {steps wholeSteps substeps trajectory other : ℕ}

theorem Continues.anyOf_eq (hsteps : steps ≤ wholeSteps)
    (hcontinues : Continues whole group steps wholeSteps substeps trajectory
      other) :
    anyOf whole trajectory = anyOf group other := by
  apply Bool.eq_iff_iff.mpr
  rw [anyOf_iff hcontinues.wholeShape, anyOf_iff hcontinues.shape]
  constructor
  · rintro ⟨position, hposition, hentry⟩
    have hsubsteps : 0 < substeps := by
      by_contra hzero
      rw [Nat.eq_zero_of_not_pos hzero, Nat.mul_zero] at hposition
      cases hposition
    have hstep : position / substeps < wholeSteps :=
      Nat.div_lt_of_lt_mul (by rwa [Nat.mul_comm])
    have hreal : position / substeps < steps := by
      by_contra hidle
      exact hentry (hcontinues.idle _ (by omega) hstep _)
    rw [hcontinues.same _ hreal] at hentry
    exact ⟨position, (Nat.div_lt_iff_lt_mul hsubsteps).mp hreal, hentry⟩
  · rintro ⟨position, hposition, hentry⟩
    have hreal : position / substeps < steps :=
      Nat.div_lt_of_lt_mul (by rwa [Nat.mul_comm])
    rw [← hcontinues.same _ hreal] at hentry
    have hle : steps * substeps ≤ wholeSteps * substeps :=
      Nat.mul_le_mul_right substeps hsteps
    exact ⟨position, by omega, hentry⟩

theorem terminalIndex_eq (hle : count ≤ wholeCount)
    (hflags : ∀ position < count, longer position = flags position)
    (hfound : count < wholeCount → ∃ position < count, flags position) :
    terminalIndex longer wholeCount = terminalIndex flags count := by
  have hsame : (List.range count).find? longer =
      (List.range count).find? flags := by
    apply List.find?_congr
    intro position hposition
    exact hflags position (List.mem_range.mp hposition)
  by_cases hlt : count < wholeCount
  · obtain ⟨position, hposition, hflag⟩ := hfound hlt
    have hsome : ((List.range count).find? flags).isSome :=
      List.find?_isSome.mpr ⟨position, List.mem_range.mpr hposition, hflag⟩
    obtain ⟨first, hfirst⟩ := Option.isSome_iff_exists.mp hsome
    have hsplit : List.range wholeCount = List.range count ++
        (List.range (wholeCount - count)).map (count + ·) := by
      rw [← List.range_add]
      congr 1
      omega
    rw [terminalIndex, terminalIndex, hsplit, List.find?_append, hsame, hfirst]
    rfl
  · have hcount : wholeCount = count := by omega
    rw [terminalIndex, terminalIndex, hcount, hsame]

theorem terminalIndex_lt (hcount : 0 < count) :
    terminalIndex flags count < count := by
  unfold terminalIndex
  cases hfirst : (List.range count).find? flags with
  | none =>
    rw [Option.getD_none]
    omega
  | some first =>
    exact List.mem_range.mp (List.mem_of_find?_eq_some hfirst)

end Scores

/-! ## The prepared group inside the prepared batch -/

section Prepared

variable {contract : FieldContract} {whole group : RolloutGroup ω}
  {config : TrainerConfig} {offset : ℕ} {wholeFeedback feedback : Feedback}
  {wholePrepared alone : DataProto ω}

structure BothPrepared (contract : FieldContract)
    (whole group : RolloutGroup ω) (config : TrainerConfig) (offset : ℕ)
    (wholeFeedback feedback : Feedback)
    (wholePrepared alone : DataProto ω) : Prop where
  valid : contract.Valid
  wholeConforms : whole.Conforms contract
  conforms : group.Conforms contract
  embedded : Extends whole group offset
  wholePrepared : Prepared contract whole config wholeFeedback wholePrepared
  prepared : Prepared contract group config feedback alone
  finished : group.steps < whole.steps → ∀ i < group.size, group.Finished i

namespace BothPrepared

theorem continues (both : BothPrepared contract whole group config offset
    wholeFeedback feedback wholePrepared alone) (hkey : key ∈ feedbackKeys)
    {wholeTensor tensor : Tensor ℚ}
    (hwholeTensor : whole.rollout.batch.lookup key = some wholeTensor)
    (htensor : group.rollout.batch.lookup key = some tensor)
    (hi : i < group.size) :
    Continues wholeTensor tensor group.steps whole.steps contract.substeps
      (offset + i) i :=
  both.embedded.continues both.valid both.wholeConforms both.conforms hkey
    hwholeTensor htensor hi

variable (both : BothPrepared contract whole group config offset
  wholeFeedback feedback wholePrepared alone) {i step : ℕ}
include both

theorem terminated (hi : i < group.size) :
    Continues wholeFeedback.terminated feedback.terminated group.steps
      whole.steps contract.substeps (offset + i) i :=
  both.continues (by decide) both.wholePrepared.terminated
    both.prepared.terminated hi

theorem truncated (hi : i < group.size) :
    Continues wholeFeedback.truncated feedback.truncated group.steps
      whole.steps contract.substeps (offset + i) i :=
  both.continues (by decide) both.wholePrepared.truncated
    both.prepared.truncated hi

theorem reward (hi : i < group.size) :
    Continues wholeFeedback.reward feedback.reward group.steps
      whole.steps contract.substeps (offset + i) i :=
  both.continues (by decide) both.wholePrepared.reward both.prepared.reward hi

theorem success (hi : i < group.size) :
    Continues wholeFeedback.success feedback.success group.steps
      whole.steps contract.substeps (offset + i) i :=
  both.continues (by decide) both.wholePrepared.success
    both.prepared.success hi

/-! ### Lanes -/

theorem lane_done (hi : i < group.size) (hstep : step < group.steps) :
    (wholeFeedback.lane (offset + i)).done step =
      (feedback.lane i).done step := by
  funext substep
  simp only [Feedback.lane, (both.terminated hi).same step hstep,
    (both.truncated hi).same step hstep]

theorem lane_reward (hi : i < group.size) (hstep : step < group.steps) :
    (wholeFeedback.lane (offset + i)).reward step =
      (feedback.lane i).reward step := by
  funext substep
  simp only [Feedback.lane, (both.reward hi).same step hstep]

theorem chunkDone (hshort : group.steps < whole.steps) (hi : i < group.size) :
    ∃ earlier < group.steps,
      (feedback.lane i).chunkDone contract.substeps earlier := by
  obtain ⟨key, hkey, tensor, htensor, earlier, hearlier, substep, hsubstep,
    hentry⟩ := both.finished hshort i hi
  have hfeedbackKey : key ∈ feedbackKeys := by
    simp only [List.mem_cons, List.not_mem_nil, or_false] at hkey
    rcases hkey with rfl | rfl <;> decide
  have hshape := feedback_shape both.valid both.conforms hfeedbackKey htensor
  rw [hshape] at hsubstep
  have hdone : (feedback.lane i).done earlier substep := by
    simp only [List.mem_cons, List.not_mem_nil, or_false] at hkey
    simp only [Feedback.lane, decide_eq_true_eq]
    rcases hkey with rfl | rfl
    · rw [both.prepared.terminated, Option.some.injEq] at htensor
      exact .inl (htensor ▸ hentry)
    · rw [both.prepared.truncated, Option.some.injEq] at htensor
      exact .inr (htensor ▸ hentry)
  refine ⟨earlier, hearlier, ?_⟩
  rw [Lane.chunkDone, List.any_eq_true]
  exact ⟨substep, List.mem_range.mpr hsubstep, hdone⟩

theorem invalid (hi : i < group.size) (hstep : group.steps ≤ step)
    (hwhole : step < whole.steps) :
    (wholeFeedback.lane (offset + i)).validChunk contract.substeps step =
      false := by
  obtain ⟨earlier, hearlier, hdone⟩ := both.chunkDone (by omega) hi
  apply Lane.validChunk_eq_false (by omega : earlier < step)
  rwa [Lane.chunkDone_congr (both.lane_done hi hearlier)]

/-! ### Scores -/

theorem terminalScore_eq
    (hwholeScore : whole.rollout.batch.lookup "next.score" = some wholeScore)
    (hscore : group.rollout.batch.lookup "next.score" = some score)
    (hi : i < group.size) :
    terminalScore wholeScore wholeFeedback.terminated wholeFeedback.truncated
      (offset + i) =
        terminalScore score feedback.terminated feedback.truncated i := by
  have hscores := both.continues (by decide) hwholeScore hscore hi
  have hterminated := both.terminated hi
  have htruncated := both.truncated hi
  have hreal : ∀ position < group.steps * contract.substeps,
      position / contract.substeps < group.steps := fun position hposition =>
    Nat.div_lt_of_lt_mul (by rwa [Nat.mul_comm])
  have hindex : terminalIndex (fun position =>
        (flattenTail wholeFeedback.terminated).entry
            [offset + i, position] ≠ 0 ∨
          (flattenTail wholeFeedback.truncated).entry
            [offset + i, position] ≠ 0)
        (whole.steps * contract.substeps) =
      terminalIndex (fun position =>
        (flattenTail feedback.terminated).entry [i, position] ≠ 0 ∨
          (flattenTail feedback.truncated).entry [i, position] ≠ 0)
        (group.steps * contract.substeps) := by
    apply terminalIndex_eq
    · exact Nat.mul_le_mul_right _ both.embedded.steps_le
    · intro position hposition
      simp only [entry_flattenTail hterminated.wholeShape,
        entry_flattenTail hterminated.shape,
        entry_flattenTail htruncated.wholeShape,
        entry_flattenTail htruncated.shape,
        hterminated.same _ (hreal position hposition),
        htruncated.same _ (hreal position hposition)]
    · intro hlt
      have hshort : group.steps < whole.steps := by
        by_contra hle
        have hsteps : whole.steps * contract.substeps ≤
            group.steps * contract.substeps :=
          Nat.mul_le_mul_right _ (by omega)
        omega
      obtain ⟨earlier, hearlier, hdone⟩ := both.chunkDone hshort hi
      obtain ⟨substep, hsubstep, hflag⟩ := List.any_eq_true.mp hdone
      rw [List.mem_range] at hsubstep
      have hindex := Tensor.add_mul_div_mod hsubstep earlier
      have hposition : earlier * contract.substeps + substep <
          group.steps * contract.substeps := by
        calc earlier * contract.substeps + substep
            < (earlier + 1) * contract.substeps := by
              rw [Nat.add_mul]
              omega
          _ ≤ group.steps * contract.substeps :=
              Nat.mul_le_mul_right _ hearlier
      refine ⟨earlier * contract.substeps + substep, hposition, ?_⟩
      simp only [entry_flattenTail hterminated.shape,
        entry_flattenTail htruncated.shape, hindex.1, hindex.2]
      exact hflag
  rw [terminalScore, terminalScore, steps_flattenTail hscores.wholeShape,
    steps_flattenTail hscores.shape, hindex,
    entry_flattenTail hscores.wholeShape, entry_flattenTail hscores.shape]
  apply hscores.same
  by_cases hcount : 0 < group.steps * contract.substeps
  · exact hreal _ (terminalIndex_lt hcount)
  · have hzero : contract.substeps = 0 := by
      rcases Nat.eq_zero_or_pos contract.substeps with hzero | hpos
      · exact hzero
      · exact absurd (Nat.mul_pos both.conforms.steps_pos hpos) hcount
    rw [hzero, Nat.div_zero]
    exact both.conforms.steps_pos

theorem anyOf_success (hi : i < group.size) :
    anyOf wholeFeedback.success (offset + i) = anyOf feedback.success i :=
  (both.success hi).anyOf_eq both.embedded.steps_le

theorem scoresOf_eq (hi : i < group.size) :
    scoresOf (whole.rollout.batch.lookup "next.score") wholeFeedback
      (offset + i) =
        scoresOf (group.rollout.batch.lookup "next.score") feedback i := by
  have hshape := both.conforms.tensors "next.score"
  have hwholeShape := both.wholeConforms.tensors "next.score"
  cases hcontract : contract.tensors "next.score" with
  | none =>
    rw [hcontract, Option.map_none, Option.map_eq_none_iff] at hshape
    rw [hcontract, Option.map_none, Option.map_eq_none_iff] at hwholeShape
    rw [hshape, hwholeShape]
    simp only [scoresOf, both.anyOf_success hi]
  | some shape =>
    obtain ⟨score, hscore, _⟩ := some_of_shape hshape hcontract
    obtain ⟨wholeScore, hwholeScore, _⟩ := some_of_shape hwholeShape hcontract
    rw [hscore, hwholeScore]
    exact both.terminalScore_eq hwholeScore hscore hi

theorem trajectoryProcessScore_eq (hi : i < group.size) :
    trajectoryProcessScore
      (scoresOf (whole.rollout.batch.lookup "next.score") wholeFeedback)
      wholeFeedback.success (offset + i) =
    trajectoryProcessScore
      (scoresOf (group.rollout.batch.lookup "next.score") feedback)
      feedback.success i := by
  rw [trajectoryProcessScore, trajectoryProcessScore, both.anyOf_success hi,
    both.scoresOf_eq hi]

/-! ### Fields -/

theorem slotOf_chunkKeys (hkey : key ∈ chunkKeys) (hi : i < group.size)
    (hstep : step < group.steps) :
    slotOf (wholePrepared.batch.lookup key) (offset + i) step =
      slotOf (alone.batch.lookup key) i step := by
  have hdone : ∀ earlier ≤ step,
      (wholeFeedback.lane (offset + i)).done earlier =
        (feedback.lane i).done earlier := fun earlier hearlier =>
    both.lane_done hi (by omega)
  rw [both.wholePrepared.tensors, both.prepared.tensors]
  simp only [chunkKeys, List.mem_cons, List.not_mem_nil, or_false] at hkey
  rcases hkey with rfl | rfl | rfl | rfl | rfl | rfl | rfl
  · exact slotOf_matrix (Lane.rewards_congr hdone (both.lane_reward hi hstep))
  · exact slotOf_matrix (Lane.dones_congr hdone)
  · apply slotOf_matrix
    exact congrArg Nat.cast (Lane.executedSteps_congr hdone)
  · exact slotOf_matrix (Lane.discounts_congr hdone _)
  · exact slotOf_matrix (Lane.discounts_congr hdone _)
  · apply slotOf_matrix
    exact congrArg float (Lane.validChunk_congr hdone)
  · exact slotOf_cube (Lane.actionValids_congr hdone)

theorem idle_chunkKeys (hkey : key ∈ chunkKeys)
    (htensor : wholePrepared.batch.lookup key =
      some tensor) (hi : i < group.size) (hstep : group.steps ≤ step)
    (hwhole : step < whole.steps) (rest : List ℕ) :
    tensor.entry ((offset + i) :: step :: rest) = 0 := by
  have hinvalid := both.invalid hi hstep hwhole
  rw [both.wholePrepared.tensors] at htensor
  simp only [chunkKeys, List.mem_cons, List.not_mem_nil, or_false] at hkey
  rcases hkey with rfl | rfl | rfl | rfl | rfl | rfl | rfl
  · cases htensor
    exact Lane.rewards_eq_zero hinvalid
  · cases htensor
    exact Lane.dones_eq_zero hinvalid
  · cases htensor
    exact congrArg Nat.cast (Lane.executedSteps_eq_zero hinvalid)
  · cases htensor
    exact Lane.discounts_eq_zero hinvalid _
  · cases htensor
    exact Lane.discounts_eq_zero hinvalid _
  · cases htensor
    exact congrArg float hinvalid
  · cases htensor
    exact Lane.actionValids_eq_zero hinvalid _

theorem rowOf_trajectoryKeys (hkey : key ∈ trajectoryKeys)
    (hi : i < group.size) :
    rowOf (wholePrepared.batch.lookup key) (offset + i) =
      rowOf (alone.batch.lookup key) i := by
  rw [both.wholePrepared.tensors, both.prepared.tensors]
  simp only [trajectoryKeys, List.mem_cons, List.not_mem_nil, or_false] at hkey
  rcases hkey with rfl | rfl
  · exact rowOf_vector (congrArg float (both.anyOf_success hi))
  · exact rowOf_vector (both.trajectoryProcessScore_eq hi)

theorem slotOf_alignedTensor (key : String) (hi : i < group.size)
    (hstep : step < group.steps) :
    slotOf (alignedTensor whole key) (offset + i) step =
      slotOf (alignedTensor group key) i step := by
  have hsome := isSome_iff_of_shape
    (both.wholeConforms.tensors (obsKey (nextFieldOf key)))
    (both.conforms.tensors (obsKey (nextFieldOf key)))
  unfold alignedTensor
  simp only [hsome]
  split_ifs with hnext hprofile
  · obtain ⟨_, hpolicy, hpresent⟩ := hnext
    obtain ⟨obs, hobs⟩ := Option.isSome_iff_exists.mp hpresent
    obtain ⟨wholeObs, hwholeObs⟩ :=
      Option.isSome_iff_exists.mp (hsome.mpr hpresent)
    exact both.embedded.tensors.aligned both.embedded.steps_le
      (alignable_tensor both.valid both.conforms hpolicy hobs rfl)
      (alignable_tensor both.valid both.wholeConforms hpolicy hwholeObs rfl)
      hi hstep
  · rfl
  · exact both.embedded.tensors.slots key i hi step hstep

theorem slotOf_arrays (key : String) (hi : i < group.size)
    (hstep : step < group.steps) :
    slotOf (wholePrepared.nonTensorBatch.lookup key) (offset + i) step =
      slotOf (alone.nonTensorBatch.lookup key) i step := by
  have hsome := isSome_iff_of_shape
    (both.wholeConforms.arrays (obsKey (nextFieldOf key)))
    (both.conforms.arrays (obsKey (nextFieldOf key)))
  rw [both.wholePrepared.arrays, both.prepared.arrays, alignedArray,
    alignedArray]
  simp only [hsome]
  split_ifs with hnext
  · obtain ⟨_, hfield, hpresent⟩ := hnext
    rw [← fieldOf_obsKey (nextFieldOf key)] at hfield
    obtain ⟨obs, hobs⟩ := Option.isSome_iff_exists.mp hpresent
    obtain ⟨wholeObs, hwholeObs⟩ :=
      Option.isSome_iff_exists.mp (hsome.mpr hpresent)
    exact both.embedded.arrays.aligned both.embedded.steps_le
      (alignable_array both.valid both.conforms (isObs_obsKey _) hfield hobs)
      (alignable_array both.valid both.wholeConforms (isObs_obsKey _) hfield
        hwholeObs) hi hstep
  · exact both.embedded.arrays.slots key i hi step hstep

theorem slotOf_tensors (hkey : key ∉ trajectoryKeys) (hi : i < group.size)
    (hstep : step < group.steps) :
    slotOf (wholePrepared.batch.lookup key) (offset + i) step =
      slotOf (alone.batch.lookup key) i step := by
  by_cases hchunk : key ∈ chunkKeys
  · exact both.slotOf_chunkKeys hchunk hi hstep
  · have hinfo : key ∉ chunkKeys ++ trajectoryKeys := by
      simp [hchunk, hkey]
    rw [both.wholePrepared.tensors, both.prepared.tensors,
      lookup_infoFields_eq_none hinfo, lookup_infoFields_eq_none hinfo,
      Option.none_or, Option.none_or]
    split_ifs with hfeedback
    · rfl
    · exact both.slotOf_alignedTensor key hi hstep

end BothPrepared

end Prepared

end VerlVla
