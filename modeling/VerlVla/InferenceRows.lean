import Mathlib
import VerlVla.SharedInference

/-!
# The rows that each request gets back

A micro-batch of a row-wise model holds the rows of its indices, the
concatenation holds the rows of the merged observation, and the slice of a
request holds the rows of that request in its own order.
-/

namespace VerlVla

variable {α A V : Type}

/-! ## One micro-batch -/

section

variable {values : List α} {indices : List ℕ}
  (hindices : ∀ index ∈ indices, index < values.length)

include hindices

theorem getElem?_filterMap_of_lt (position : ℕ) :
    (indices.filterMap fun index => values[index]?)[position]? =
      indices[position]?.bind fun index => values[index]? := by
  induction indices generalizing position with
  | nil => simp
  | cons index indices ih =>
    have hlt := hindices index List.mem_cons_self
    have hrest := ih fun other hother =>
      hindices other (List.mem_cons_of_mem index hother)
    rw [List.filterMap_cons, List.getElem?_eq_getElem hlt]
    cases position with
    | zero => simp [hlt]
    | succ position => simpa using hrest position

theorem length_filterMap_of_lt :
    (indices.filterMap fun index => values[index]?).length =
      indices.length := by
  induction indices with
  | nil => rfl
  | cons index indices ih =>
    have hlt := hindices index List.mem_cons_self
    have hrest := ih fun other hother =>
      hindices other (List.mem_cons_of_mem index hother)
    rw [List.filterMap_cons, List.getElem?_eq_getElem hlt]
    simp [hrest]

end

theorem pick_eq_ok : pick values indices = .ok picked ↔
      (∀ index ∈ indices, index < values.length) ∧
        (indices.filterMap fun index => values[index]?) = picked := by
  rw [pick, require_bind_eq_ok]
  simp

theorem npStack_eq_ok (hstacked : npStack model values = .ok stacked) :
    stacked = values := by
  obtain ⟨_, hvalues⟩ := require_bind_eq_ok.mp hstacked
  cases hvalues
  rfl

theorem identityRow_pick {obs : IpcObservation A} {indices : List ℕ}
    (hfields : ∀ field ∈ presentFields obs, ∀ index ∈ indices,
      index < (fieldValues obs field).length) (position : ℕ) :
    identityRow (fun field => (obs.identity field).map fun values =>
        indices.filterMap fun index => values[index]?) position =
      fun field => indices[position]?.bind fun index =>
        identityRow obs.identity index field := by
  funext field
  cases hfield : obs.identity field with
  | none => simp [identityRow, hfield]
  | some values =>
    have hpresent : field ∈ presentFields obs := by
      rw [presentFields, List.mem_filter, hfield]
      constructor
      · cases field <;> simp [ipcIdentityFields]
      · rfl
    have hlt := hfields field hpresent
    have hvalues : fieldValues obs field = values := by
      rw [fieldValues, hfield]
      rfl
    rw [hvalues] at hlt
    simp [identityRow, hfield, getElem?_filterMap_of_lt hlt]

theorem rows_robodojoObservationBatch {obs : IpcObservation A}
    {indices : List ℕ} {batch : PolicyBatch A}
    (hbatch : robodojoObservationBatch model obs indices = .ok batch) :
    batch.rows = indices.filterMap obs.row? := by
  obtain ⟨rows, hrows, hbatch⟩ := bind_eq_ok.mp hbatch
  obtain ⟨_, hbatch⟩ := require_bind_eq_ok.mp hbatch
  obtain ⟨camHead, hcamHead, hbatch⟩ := bind_eq_ok.mp hbatch
  obtain ⟨camLeftWrist, hcamLeft, hbatch⟩ := bind_eq_ok.mp hbatch
  obtain ⟨camRightWrist, hcamRight, hbatch⟩ := bind_eq_ok.mp hbatch
  obtain ⟨state, hstate, hbatch⟩ := bind_eq_ok.mp hbatch
  obtain ⟨task, htask, hbatch⟩ := bind_eq_ok.mp hbatch
  obtain ⟨hfields, hbatch⟩ := require_bind_eq_ok.mp hbatch
  cases hbatch
  cases npStack_eq_ok hcamHead
  cases npStack_eq_ok hcamLeft
  cases npStack_eq_ok hcamRight
  cases npStack_eq_ok hstate
  obtain ⟨hrowIndices, rfl⟩ := pick_eq_ok.mp hrows
  obtain ⟨htaskIndices, rfl⟩ := pick_eq_ok.mp htask
  rw [PolicyBatch.rows, length_filterMap_of_lt htaskIndices,
    ← filterMap_range_getElem? indices obs.row?]
  apply List.filterMap_congr
  intro position hposition
  have hlt := List.mem_range.mp hposition
  have hrow := getElem?_filterMap_of_lt hrowIndices position
  have htask := getElem?_filterMap_of_lt htaskIndices position
  have hidentity := identityRow_pick hfields position
  rw [List.getElem?_eq_getElem hlt] at hrow htask hidentity ⊢
  simp only [Option.bind_some] at hrow htask hidentity ⊢
  simp only [PolicyBatch.row?, IpcObservation.row?, List.getElem?_map, hrow,
    htask, hidentity]
  cases obs.observation[indices[position]]? with
  | none | some row => rfl

theorem lookup_map_key {keys : List TensorKey} {values : TensorKey → List V}
    {key : TensorKey} (hkey : key ∈ keys) :
    (keys.map fun key => (key, values key)).lookup key =
      some (values key) := by
  induction keys with
  | nil => cases hkey
  | cons first keys ih =>
    rw [List.map_cons, List.lookup_cons]
    by_cases hfirst : key = first
    · simp [hfirst]
    · have hrest := ih ((List.mem_cons.mp hkey).resolve_left hfirst)
      have hbeq : (key == first) = false := by simpa using hfirst
      simp only [hbeq, hrest]

theorem lookupKey_map_eq_ok {keys : List TensorKey}
    {values : TensorKey → List V} {key : TensorKey} {rows : List V}
    (hrows : lookupKey (keys.map fun key => (key, values key)) key =
      .ok rows) : rows = values key := by
  by_cases hkey : key ∈ keys
  · rw [lookupKey, lookup_map_key hkey] at hrows
    cases hrows
    rfl
  · have hnone : (keys.map fun key => (key, values key)).lookup key =
        none := by
      rw [List.lookup_eq_none_iff]
      intro entry hentry
      obtain ⟨other, hother, rfl⟩ := List.mem_map.mp hentry
      have hne : key ≠ other := by
        rintro rfl
        exact hkey hother
      simp [hne]
    rw [lookupKey, hnone] at hrows
    cases hrows

theorem selectKeys_map_eq_ok {keys retained : List TensorKey}
    {values : TensorKey → List V} {selected : TensorDict V}
    (hselected : selectKeys retained (keys.map fun key => (key, values key)) =
      .ok selected) :
    selected = retained.map fun key => (key, values key) := by
  apply eq_map_of_mapM_eq_ok _ hselected
  intro key entry hentry
  obtain ⟨rows, hrows, rfl⟩ := map_eq_ok.mp hentry
  rw [lookupKey_map_eq_ok hrows]

section Model

variable {model : SharedModel A V} {keys : Bool → List TensorKey}
  {row : Bool → PolicyRow A → TensorKey → V}

theorem inferChunk_eq_ok (hmodel : model.RowWise keys row)
    {obs : IpcObservation A} {eval : Bool} {indices : List ℕ}
    {output : TensorDict V}
    (houtput : inferChunk model obs eval indices = .ok output) :
    output = outputRows keys row eval (indices.filterMap obs.row?) := by
  obtain ⟨batch, hbatch, houtput⟩ := bind_eq_ok.mp houtput
  rw [← rows_robodojoObservationBatch hbatch]
  cases hsample : model.sacSampleActions batch eval with
  | none =>
    simp [hsample] at houtput
  | some sampled =>
    rw [hsample] at houtput
    cases hmodel batch eval sampled hsample
    have hkeys : ((keys eval).map fun key =>
        (key, batch.rows.map fun input => row eval input key)).map
          Prod.fst = keys eval := by
      simp [Function.comp_def]
    simp only [hkeys] at houtput
    exact selectKeys_map_eq_ok houtput

/-! ## All micro-batches -/

theorem concatChunks_eq_ok {parts : List (List (PolicyRow A))} {eval : Bool}
    {joined : TensorDict V}
    (hjoined : concatChunks model (parts.map (outputRows keys row eval)) =
      .ok joined) : joined = outputRows keys row eval parts.flatten := by
  cases parts with
  | nil => cases hjoined
  | cons part parts =>
    obtain ⟨_, _, hjoined⟩ := bind_eq_ok.mp hjoined
    have hkeys : (outputRows keys row eval part).map Prod.fst =
        retainedKeys (keys eval) := by
      simp [outputRows, Function.comp_def]
    rw [hkeys] at hjoined
    apply eq_map_of_mapM_eq_ok _ hjoined
    intro key entry hentry
    obtain ⟨values, hvalues, hentry⟩ := bind_eq_ok.mp hentry
    obtain ⟨_, hentry⟩ := require_bind_eq_ok.mp hentry
    cases hentry
    rw [← List.map_cons, List.mapM_map] at hvalues
    have hparts : values = (part :: parts).map fun inputs =>
        inputs.map fun input => row eval input key := by
      apply eq_map_of_mapM_eq_ok _ hvalues
      intro inputs rows hrows
      exact lookupKey_map_eq_ok hrows
    rw [hparts, ← List.map_flatten]

theorem inferShared_eq_ok (hmodel : model.RowWise keys row)
    (houtputs : inferSharedModelOutputsInMicrobatches model obs
      microbatchSize eval = .ok outputs) :
    outputs = modelRows keys row eval obs := by
  obtain ⟨starts, hstarts, houtputs⟩ := bind_eq_ok.mp houtputs
  obtain ⟨chunks, hchunks, houtputs⟩ := bind_eq_ok.mp houtputs
  obtain ⟨joined, hjoined, houtputs⟩ := bind_eq_ok.mp houtputs
  obtain ⟨_, _, houtputs⟩ := bind_eq_ok.mp houtputs
  obtain ⟨_, _, houtputs⟩ := bind_eq_ok.mp houtputs
  cases houtputs
  have hparts := eq_map_of_mapM_eq_ok
    (fun start output houtput => inferChunk_eq_ok hmodel houtput) hchunks
  rw [hparts, ← Function.comp_def (outputRows keys row eval), ← List.map_map]
    at hjoined
  rw [concatChunks_eq_ok hjoined]
  unfold rangeStarts at hstarts
  by_cases hzero : microbatchSize = 0
  · rw [if_pos hzero] at hstarts
    cases hstarts
  · rw [if_neg hzero] at hstarts
    by_cases hnegative : microbatchSize < 0
    · rw [if_pos hnegative] at hstarts
      cases hstarts
      cases hjoined
    · rw [if_neg hnegative] at hstarts
      cases hstarts
      have hsize : 0 < microbatchSize.toNat := by omega
      rw [← List.flatMap_def, ← List.filterMap_flatMap,
        flatMap_chunkIndices hsize]
      rfl

end Model

/-! ## Merged requests -/

structure IpcObservation.Sized (obs : IpcObservation A) : Prop where
  task : obs.task.length = obs.observation.length
  identity : ∀ field values, obs.identity field = some values →
    values.length = obs.observation.length

/-- The columns of the first observation before those of the second. -/
structure IpcObservation.Joins (left right joined : IpcObservation A) :
    Prop where
  observation : joined.observation = left.observation ++ right.observation
  task : joined.task = left.task ++ right.task
  identity : ∀ field, joined.identity field =
    (left.identity field).bind fun before =>
      (right.identity field).map fun after => before ++ after
  present : ∀ field,
    (left.identity field).isSome = (right.identity field).isSome

theorem length_rows {obs : IpcObservation A} (hobs : obs.Sized) :
    obs.rows.length = obs.observation.length := by
  have hrow : ∀ index ∈ List.range obs.observation.length,
      (obs.row? index).isSome := by
    intro index hindex
    have hlt := List.mem_range.mp hindex
    have htask : index < obs.task.length := by
      rw [hobs.task]
      exact hlt
    simp [IpcObservation.row?, hlt, htask]
  rw [IpcObservation.rows, List.filterMap_length_eq_length.mpr hrow,
    List.length_range]

theorem rows_joined {left right joined : IpcObservation A}
    (hleft : left.Sized) (hjoins : left.Joins right joined) :
    joined.rows = left.rows ++ right.rows := by
  have hbefore : ∀ index < left.observation.length,
      joined.row? index = left.row? index := by
    intro index hindex
    have htask : index < left.task.length := by
      rw [hleft.task]
      exact hindex
    have hidentity : identityRow joined.identity index =
        identityRow left.identity index := by
      funext field
      have hpresent := hjoins.present field
      rw [identityRow, identityRow, hjoins.identity field]
      cases hbefore : left.identity field with
      | none => rfl
      | some before =>
        have hlength := hleft.identity field before hbefore
        rw [hbefore] at hpresent
        obtain ⟨after, hafter⟩ := Option.isSome_iff_exists.mp hpresent.symm
        simp [hafter, List.getElem?_append_left (hlength ▸ hindex)]
    rw [IpcObservation.row?, IpcObservation.row?, hjoins.observation,
      hjoins.task, hidentity, List.getElem?_append_left hindex,
      List.getElem?_append_left htask]
  have hafter : ∀ index, joined.row? (left.observation.length + index) =
      right.row? index := by
    intro index
    have hidentity :
        identityRow joined.identity (left.observation.length + index) =
          identityRow right.identity index := by
      funext field
      have hpresent := hjoins.present field
      rw [identityRow, identityRow, hjoins.identity field]
      cases hbefore : left.identity field with
      | none =>
        rw [hbefore] at hpresent
        have hnone : right.identity field = none := by
          simpa using hpresent.symm
        simp [hnone]
      | some before =>
        have hlength := hleft.identity field before hbefore
        cases hright : right.identity field with
        | none => simp
        | some after => simp [← hlength, List.getElem?_append_right]
    rw [IpcObservation.row?, IpcObservation.row?, hjoins.observation,
      hjoins.task, hidentity]
    rw [List.getElem?_append_right (Nat.le_add_right ..),
      List.getElem?_append_right (by rw [hleft.task]; omega), hleft.task,
      Nat.add_sub_cancel_left]
  rw [IpcObservation.rows, hjoins.observation, List.length_append,
    List.range_add, List.filterMap_append, List.filterMap_map]
  congr 1
  · apply List.filterMap_congr
    intro index hindex
    exact hbefore index (List.mem_range.mp hindex)
  · apply List.filterMap_congr
    intro index _
    exact hafter index

theorem sized_joined {left right joined : IpcObservation A}
    (hleft : left.Sized) (hright : right.Sized)
    (hjoins : left.Joins right joined) : joined.Sized := by
  constructor
  · rw [hjoins.task, hjoins.observation, List.length_append,
      List.length_append, hleft.task, hright.task]
  · intro field values hvalues
    rw [hjoins.identity] at hvalues
    obtain ⟨before, hbefore, hvalues⟩ := Option.bind_eq_some_iff.mp hvalues
    obtain ⟨after, hafter, rfl⟩ := Option.map_eq_some_iff.mp hvalues
    rw [hjoins.observation, List.length_append, List.length_append,
      hleft.identity field before hbefore, hright.identity field after hafter]

section Merge

variable {present : List IpcIdentityField} {merged next : MergeState A}
  {request : IpcObservation A} {requests done : List (IpcObservation A)}

theorem mem_presentFields :
    field ∈ presentFields request ↔ (request.identity field).isSome := by
  rw [presentFields, List.mem_filter, and_iff_right_iff_imp]
  intro _
  cases field <;> simp [ipcIdentityFields]

structure Merged (present : List IpcIdentityField) (merged : MergeState A)
    (done : List (IpcObservation A)) : Prop where
  slices : merged.slices =
    slicesFrom 0 (done.map fun request => request.rows.length)
  offset : merged.offset = (done.map fun request => request.rows.length).sum
  rows : (merged.merged present).rows = done.flatMap IpcObservation.rows
  sized : (merged.merged present).Sized

theorem merged_start (present : List IpcIdentityField) :
    Merged present (.start : MergeState A) [] where
  slices := rfl
  offset := rfl
  rows := rfl
  sized := by
    constructor
    · rfl
    · intro field values hvalues
      by_cases hfield : field ∈ present
      · simp only [MergeState.merged, if_pos hfield] at hvalues
        cases hvalues
        rfl
      · simp only [MergeState.merged, if_neg hfield] at hvalues
        cases hvalues

section

variable (hpresent : presentFields request = present)
  (hnext : mergeRequest present merged request = .ok next)

include hpresent hnext

theorem sized_of_mergeRequest : request.Sized := by
  obtain ⟨hrows, hnext⟩ := require_bind_eq_ok.mp hnext
  obtain ⟨_, hfields, _⟩ := bind_eq_ok.mp hnext
  constructor
  · exact hrows.2.symm
  · intro field values hvalues
    have hmember : field ∈ present := by
      rw [← hpresent, mem_presentFields, hvalues]
      rfl
    have hsize := forM_eq_ok hfields hmember
    rw [require_eq_ok, fieldValues, hvalues] at hsize
    exact hsize

theorem joins_of_mergeRequest :
    (merged.merged present).Joins request (next.merged present) := by
  obtain ⟨_, hnext⟩ := require_bind_eq_ok.mp hnext
  obtain ⟨_, _, hnext⟩ := bind_eq_ok.mp hnext
  cases hnext
  constructor
  · rfl
  · rfl
  · intro field
    by_cases hfield : field ∈ present
    · have hsome := hfield
      rw [← hpresent, mem_presentFields] at hsome
      obtain ⟨values, hvalues⟩ := Option.isSome_iff_exists.mp hsome
      simp [MergeState.merged, hfield, fieldValues, hvalues]
    · simp [MergeState.merged, hfield]
  · intro field
    have hsome : field ∈ presentFields request ↔
        (request.identity field).isSome := mem_presentFields
    rw [hpresent] at hsome
    by_cases hfield : field ∈ present
    · simp [MergeState.merged, hfield, hsome.mp hfield]
    · have hnone : request.identity field = none := by
        simpa [hfield] using hsome
      simp [MergeState.merged, hfield, hnone]

end

theorem Merged.step (hmerged : Merged present merged done)
    (hpresent : presentFields request = present)
    (hnext : mergeRequest present merged request = .ok next) :
    Merged present next (done ++ [request]) := by
  have hsized := sized_of_mergeRequest hpresent hnext
  have hjoins := joins_of_mergeRequest hpresent hnext
  have hlength := length_rows hsized
  have hrows := rows_joined hmerged.sized hjoins
  have hnextSized := sized_joined hmerged.sized hsized hjoins
  obtain ⟨_, hnext⟩ := require_bind_eq_ok.mp hnext
  obtain ⟨_, _, hnext⟩ := bind_eq_ok.mp hnext
  cases hnext
  constructor
  · simp only [List.map_append, List.map_singleton,
      slicesFrom_append_singleton, hmerged.slices, hmerged.offset, hlength,
      Nat.zero_add]
  · simp only [List.map_append, List.map_singleton, List.sum_append,
      List.sum_singleton, hmerged.offset, hlength]
  · rw [hrows, hmerged.rows, List.flatMap_append, List.flatMap_singleton]
  · exact hnextSized

theorem Merged.all (hmerged : Merged present merged done)
    (hpresent : ∀ request ∈ requests, presentFields request = present)
    (hnext : requests.foldlM (mergeRequest present) merged = .ok next) :
    Merged present next (done ++ requests) := by
  induction requests generalizing merged done with
  | nil =>
    cases hnext
    rw [List.append_nil]
    exact hmerged
  | cons request requests ih =>
    rw [List.foldlM_cons] at hnext
    obtain ⟨middle, hmiddle, hnext⟩ := bind_eq_ok.mp hnext
    have hrequest := hpresent request List.mem_cons_self
    have hrest := ih (hmerged.step hrequest hmiddle)
      (fun other hother => hpresent other (List.mem_cons_of_mem _ hother))
      hnext
    rw [List.append_assoc] at hrest
    exact hrest

/-- The merged observation has the rows of the requests in order, and the
slices cut them apart. -/
theorem mergeIpcObservations_eq_ok
    (hmerge : mergeIpcObservations requests = .ok (obs, slices)) :
    obs.rows = requests.flatMap IpcObservation.rows ∧ slices = slicesFrom 0
        (requests.map fun request => request.rows.length) := by
  cases requests with
  | nil => cases hmerge
  | cons first rest =>
    obtain ⟨_, hfields, hmerge⟩ := bind_eq_ok.mp hmerge
    obtain ⟨merged, hmerged, hmerge⟩ := bind_eq_ok.mp hmerge
    cases hmerge
    have hpresent : ∀ request ∈ first :: rest,
        presentFields request = presentFields first := by
      intro request hrequest
      rcases List.mem_cons.mp hrequest with rfl | hrest
      · rfl
      · obtain ⟨index, hindex⟩ := List.getElem?_of_mem hrest
        have hmember : (request, index + 1) ∈ rest.zipIdx 1 := by
          rw [List.mk_mem_zipIdx_iff_le_and_getElem?_sub]
          exact ⟨Nat.le_add_left 1 index, hindex⟩
        exact require_eq_ok.mp (forM_eq_ok hfields hmember)
    have hall := (merged_start _).all hpresent hmerged
    exact ⟨hall.rows, hall.slices⟩

end Merge

theorem map_sliceTensors {requests : List (IpcObservation A)}
    (hrows : obs.rows = requests.flatMap IpcObservation.rows) :
    (slicesFrom 0 (requests.map fun request => request.rows.length)).map
        (fun slice => sliceTensors slice (modelRows keys row eval obs)) =
      requests.map (modelRows keys row eval) := by
  have hkey : ∀ key,
      (slicesFrom 0 (requests.map fun request => request.rows.length)).map
          (fun slice => sliceRows slice
            (obs.rows.map fun input => row eval input key)) =
        requests.map fun request =>
          request.rows.map fun input => row eval input key := by
    intro key
    have hparts := map_sliceRows_flatten (requests.map fun request =>
      request.rows.map fun input => row eval input key)
    simp only [List.map_map, Function.comp_def, List.length_map] at hparts
    rw [← hparts, hrows, List.map_flatMap, List.flatMap_def]
  apply List.ext_getElem
  · rw [List.length_map, length_slicesFrom, List.length_map, List.length_map]
  · intro index hslice hrequest
    simp only [List.getElem_map, sliceTensors, modelRows, outputRows,
      List.map_map]
    apply List.map_congr_left
    intro key _
    have hentry := congrArg (fun parts => parts[index]?) (hkey key)
    rw [List.length_map] at hslice hrequest
    simp only [List.getElem?_map, List.getElem?_eq_getElem hslice,
      List.getElem?_eq_getElem hrequest, Option.map_some,
      Option.some.injEq] at hentry
    rw [Function.comp_apply, hentry]

end VerlVla
