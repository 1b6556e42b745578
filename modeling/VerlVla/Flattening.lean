import VerlVla.ChunkCompaction
import VerlVla.RowLibrary

/-!
# Rows of flattened trajectories

`flatten_trajectories` repeats an array along its first axis, and a tensor
without a step axis entry by entry.  The rows of all fields stay together
exactly if every such tensor has one axis.
-/

namespace VerlVla

variable {ω : Type}

/-- `DataProto.from_dict` keeps the fields it is given, and accepts fields with
one number of rows. -/
structure TrainingLibrary.KeepsFields (library : TrainingLibrary ω) :
    Prop where
  fromDict_ok : ∀ (data : DataProto ω) (n : ℕ), data.HasRows n →
    library.fromDict data.batch data.nonTensorBatch data.metaInfo = .ok data
  fields : ∀ batch arrays metaInfo result,
    library.fromDict batch arrays metaInfo = .ok result →
      result.batch = batch ∧ result.nonTensorBatch = arrays

/-- Row `b * numSteps + s` is the entry `(b, s)` of a field with a step axis,
and the whole entry `b` of any other field. -/
structure KeepsRows {α : Type} (batchSize numSteps : ℕ)
    (field flat : Tensor α) : Prop where
  rows : flat.shape.head? = some (batchSize * numSteps)
  row : ∀ b < batchSize, ∀ s < numSteps, flat.row (b * numSteps + s) =
    if field.shape.take 2 = [batchSize, numSteps] then (field.row b).row s
    else field.row b

structure FlattensTogether (batchSize numSteps : ℕ)
    (data flat : DataProto ω) : Prop where
  tensors : ∀ key, Option.Rel (KeepsRows batchSize numSteps)
    (data.batch.lookup key) (flat.batch.lookup key)
  arrays : ∀ key, Option.Rel (KeepsRows batchSize numSteps)
    (data.nonTensorBatch.lookup key) (flat.nonTensorBatch.lookup key)

section Field

variable {α : Type} {batchSize numSteps : ℕ} {field : Tensor α}

theorem keepsRows_mergeLeading
    (htake : field.shape.take 2 = [batchSize, numSteps]) :
    KeepsRows batchSize numSteps field field.mergeLeading where
  rows := mergeLeading_head htake
  row b _ s hs := by
    rw [if_pos htake]
    exact row_mergeLeading_of_take htake hs b

theorem keepsRows_repeatRows (hrows : field.shape.head? = some batchSize)
    (hother : field.shape.take 2 ≠ [batchSize, numSteps]) :
    KeepsRows batchSize numSteps field (field.repeatRows numSteps) where
  rows := by
    simp [Tensor.repeatRows, DataProto.rows_of_head hrows]
  row b _ s hs := by
    rw [if_neg hother]
    exact Tensor.row_repeatRows field hs b

/-- Repeated entry by entry, only a field of one axis keeps its rows. -/
theorem keepsRows_repeatInterleave_iff
    (hrows : field.shape.head? = some batchSize)
    (hother : field.shape.take 2 ≠ [batchSize, numSteps]) :
    KeepsRows batchSize numSteps field (field.repeatInterleave numSteps) ↔
      batchSize * numSteps = 0 ∨ field.shape = [batchSize] := by
  obtain ⟨sizes, hshape⟩ := List.head?_eq_some_iff.mp hrows
  constructor
  · intro hkept
    by_cases hempty : batchSize * numSteps = 0
    · exact .inl hempty
    · obtain ⟨hbatch, hsteps⟩ := mul_ne_zero_iff.mp hempty
      have hfirst := hkept.row 0 (Nat.pos_of_ne_zero hbatch) 0
        (Nat.pos_of_ne_zero hsteps)
      rw [if_neg hother] at hfirst
      have htail : [] = field.shape.tail := congrArg Tensor.shape hfirst
      rw [hshape, List.tail_cons] at htail
      rw [hshape, ← htail]
      exact .inr rfl
  · rintro (hempty | hone)
    · constructor
      · rw [Tensor.repeatInterleave, hshape, List.prod_cons, mul_right_comm,
          hempty, Nat.zero_mul]
        rfl
      · intro b hb s hs
        have hpositive : 0 < batchSize * numSteps :=
          Nat.mul_pos (by omega) (by omega)
        omega
    · constructor
      · simp [Tensor.repeatInterleave, hone]
      · intro b _ s hs
        rw [if_neg hother]
        exact Tensor.row_repeatInterleave hone hs b

end Field

/-- Flattening succeeds and keeps the rows together exactly if there are none,
or every tensor without a step axis has one axis. -/
theorem flatten_keeps_rows_iff {library : TrainingLibrary ω}
    (hlibrary : library.KeepsFields) {data : DataProto ω}
    {referenceKey : String} {reference : Tensor ℚ} {batchSize numSteps : ℕ}
    (hreference : data.batch.lookup referenceKey = some reference)
    (hleading : reference.shape.take 2 = [batchSize, numSteps])
    (hrows : data.HasRows batchSize) :
    (∃ flat, flattenTrajectories library data referenceKey = .ok flat ∧
        FlattensTogether batchSize numSteps data flat) ↔
      batchSize * numSteps = 0 ∨
        ∀ key tensor, data.batch.lookup key = some tensor →
          tensor.shape.take 2 = [batchSize, numSteps] ∨
            tensor.shape = [batchSize] := by
  have hflatten : flattenTrajectories library data referenceKey =
      library.fromDict (flattened data batchSize numSteps).batch
        (flattened data batchSize numSteps).nonTensorBatch data.metaInfo := by
    have haxes : 2 ≤ reference.shape.length := by
      have hlength := congrArg List.length hleading
      simp only [List.length_take, List.length_cons, List.length_nil]
        at hlength
      omega
    obtain ⟨hsize, hsteps⟩ := Tensor.leading_of_take hleading
    have hfetch : data.batch.fetch TrainingError.missingField referenceKey =
        (.ok reference : Except (TrainingError ω) (Tensor ℚ)) :=
      Dict.fetch_eq_ok.mpr hreference
    unfold flattenTrajectories
    rw [hfetch]
    simp only [bind, Except.bind, require_of haxes, hsize, hsteps]
    rfl
  rw [hflatten]
  constructor
  · rintro ⟨flat, hflat, htogether⟩
    by_cases hempty : batchSize * numSteps = 0
    · exact .inl hempty
    · refine .inr fun key tensor htensor => ?_
      by_cases htake : tensor.shape.take 2 = [batchSize, numSteps]
      · exact .inl htake
      · have hkept := htogether.tensors key
        rw [(hlibrary.fields _ _ _ _ hflat).1, htensor] at hkept
        simp only [flattened, Dict.lookup_map, htensor, Option.map_some,
          if_neg htake] at hkept
        cases hkept with
        | some hkept =>
            exact .inr (((keepsRows_repeatInterleave_iff
              (hrows.tensors key tensor htensor) htake).mp
                hkept).resolve_left hempty)
  · intro hwhole
    have htensor : ∀ key tensor, data.batch.lookup key = some tensor →
        tensor.shape.take 2 ≠ [batchSize, numSteps] →
          KeepsRows batchSize numSteps tensor
            (tensor.repeatInterleave numSteps) :=
      fun key tensor hfound hother =>
        (keepsRows_repeatInterleave_iff (hrows.tensors key tensor hfound)
          hother).mpr
            (hwhole.imp_right fun hall =>
              (hall key tensor hfound).resolve_left hother)
    refine ⟨_, hlibrary.fromDict_ok (flattened data batchSize numSteps) _
      (flattened_hasRows_of_prod hrows fun key tensor hfound => ?_), ?_, ?_⟩
    · by_cases htake : tensor.shape.take 2 = [batchSize, numSteps]
      · exact .inl htake
      · exact .inr (Option.some.inj (htensor key tensor hfound htake).rows)
    · intro key
      simp only [flattened, Dict.lookup_map]
      cases hfound : data.batch.lookup key with
      | none => exact .none
      | some tensor =>
          apply Option.Rel.some
          dsimp only
          split_ifs with htake
          · exact keepsRows_mergeLeading htake
          · exact htensor key tensor hfound htake
    · intro key
      simp only [flattened, Dict.lookup_map]
      cases hfound : data.nonTensorBatch.lookup key with
      | none => exact .none
      | some array =>
          apply Option.Rel.some
          dsimp only
          split_ifs with htake
          · exact keepsRows_mergeLeading htake
          · exact keepsRows_repeatRows (hrows.arrays key array hfound) htake

theorem rowLibrary_keepsFields [Inhabited ω] [DecidableEq ω] :
    (rowLibrary ω).KeepsFields where
  fromDict_ok := RowLibrary.rowLibrary_documented.fromDict_ok
  fields batch arrays metaInfo result hresult := by
    simp only [rowLibrary, RowLibrary.fromDict] at hresult
    split_ifs at hresult
    cases hresult
    exact ⟨rfl, rfl⟩

/-- One trajectory of two steps, with a field that the trajectory has as a
whole. -/
def withGoal (goal : Tensor ℚ) : DataProto ℕ where
  batch := (AList.singleton "action.action" (.matrix 1 2 fun _ s => s)).insert
    "goal" goal
  nonTensorBatch := AList.singleton "task" (.vector 1 fun _ => 7)
  metaInfo := ∅

theorem flatten_keeps_rows_one_axis :
    ∃ flat, flattenTrajectories (rowLibrary ℕ)
        (withGoal (.vector 1 fun _ => 5)) "action.action" = .ok flat ∧
      FlattensTogether 1 2 (withGoal (.vector 1 fun _ => 5)) flat :=
  (flatten_keeps_rows_iff rowLibrary_keepsFields rfl rfl
    ⟨Dict.forall_lookup (by decide), Dict.forall_lookup (by decide)⟩).mpr
      (.inr (Dict.forall_lookup (by decide)))

/-- A goal of three coordinates is repeated to six rows instead of two. -/
theorem flatten_splits_goal : ¬ ∃ flat, flattenTrajectories (rowLibrary ℕ)
        (withGoal (.matrix 1 3 fun _ k => k)) "action.action" = .ok flat ∧
      FlattensTogether 1 2 (withGoal (.matrix 1 3 fun _ k => k)) flat := by
  rintro ⟨flat, hflat, -⟩
  have hfails : (flattenTrajectories (rowLibrary ℕ)
      (withGoal (.matrix 1 3 fun _ k => k)) "action.action").isOk = false := by
    decide +kernel
  rw [hflat] at hfails
  cases hfails

end VerlVla
