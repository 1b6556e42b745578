import VerlVla.NestedMeans
import VerlVla.RolloutBatch

/-!
# Flattening and compaction, row by row

A flattened row is the slot of a trajectory it came from.  Compaction keeps the
rows of the valid slots in trajectory-major order and appends fewer blanked
rows than one round of micro batches.
-/

namespace VerlVla

open Finset

variable {ω : Type}

namespace DataProto

/-- Every tensor has one entry per trajectory or one per policy slot. -/
structure TrajectoryShaped (data : DataProto ω) (batchSize numSteps : ℕ) :
    Prop where
  tensors : ∀ key tensor, data.batch.lookup key = some tensor →
    tensor.shape = [batchSize] ∨ tensor.shape.take 2 = [batchSize, numSteps]
  arrays : ∀ key array, data.nonTensorBatch.lookup key = some array →
    array.shape.head? = some batchSize

def slot (data : DataProto ω) (batchSize numSteps trajectory step : ℕ) :
    Row ω where
  tensors key := (data.batch.lookup key).map fun tensor =>
    if tensor.shape.take 2 = [batchSize, numSteps] then
      (tensor.row trajectory).row step
    else tensor.row trajectory
  arrays key := (data.nonTensorBatch.lookup key).map fun array =>
    if array.shape.take 2 = [batchSize, numSteps] then
      (array.row trajectory).row step
    else array.row trajectory

end DataProto

theorem Tensor.leading_of_take {α : Type} {tensor : Tensor α} {n m : ℕ}
    (htake : tensor.shape.take 2 = [n, m]) :
    tensor.rows = n ∧ tensor.steps = m := by
  obtain ⟨shape, entry⟩ := tensor
  match shape, htake with
  | size :: other :: sizes, htake =>
    simp only [List.take_succ_cons, List.take_zero, List.cons.injEq,
      and_true] at htake
    exact htake

/-! ## Flattening -/

section Flatten

variable {batchSize numSteps : ℕ}

def flattened (data : DataProto ω) (batchSize numSteps : ℕ) : DataProto ω where
  batch := data.batch.map fun _ tensor =>
    if tensor.shape.take 2 = [batchSize, numSteps] then tensor.mergeLeading
    else tensor.repeatInterleave numSteps
  nonTensorBatch := data.nonTensorBatch.map fun _ array =>
    if array.shape.take 2 = [batchSize, numSteps] then array.mergeLeading
    else array.repeatRows numSteps
  metaInfo := data.metaInfo

theorem mergeLeading_head {α : Type} {tensor : Tensor α}
    (htake : tensor.shape.take 2 = [batchSize, numSteps]) :
    tensor.mergeLeading.shape.head? = some (batchSize * numSteps) := by
  have hleading := Tensor.leading_of_take htake
  simp [Tensor.mergeLeading, hleading.1, hleading.2]

theorem row_mergeLeading_of_take {α : Type} {tensor : Tensor α}
    (htake : tensor.shape.take 2 = [batchSize, numSteps])
    (hstep : step < numSteps) (trajectory : ℕ) :
    tensor.mergeLeading.row (trajectory * numSteps + step) =
      (tensor.row trajectory).row step := by
  have hsteps := (Tensor.leading_of_take htake).2
  rw [← hsteps] at hstep ⊢
  exact Tensor.row_mergeLeading hstep trajectory

theorem flattened_hasRows_of_prod {data : DataProto ω}
    (hrows : data.HasRows batchSize)
    (hprod : ∀ key tensor, data.batch.lookup key = some tensor →
      tensor.shape.take 2 = [batchSize, numSteps] ∨
        tensor.shape.prod * numSteps = batchSize * numSteps) :
    (flattened data batchSize numSteps).HasRows (batchSize * numSteps) := by
  constructor
  · intro key tensor htensor
    simp only [flattened, Dict.lookup_map, Option.map_eq_some_iff] at htensor
    obtain ⟨original, horiginal, rfl⟩ := htensor
    split_ifs with htake
    · exact mergeLeading_head htake
    · have hsame := (hprod key original horiginal).resolve_left htake
      simp [Tensor.repeatInterleave, hsame]
  · intro key array harray
    simp only [flattened, Dict.lookup_map, Option.map_eq_some_iff] at harray
    obtain ⟨original, horiginal, rfl⟩ := harray
    split_ifs with htake
    · exact mergeLeading_head htake
    · have hhead := DataProto.rows_of_head (hrows.arrays key original horiginal)
      simp [Tensor.repeatRows, hhead]

theorem flattened_hasRows (hshaped : data.TrajectoryShaped batchSize numSteps) :
    (flattened data batchSize numSteps).HasRows (batchSize * numSteps) := by
  apply flattened_hasRows_of_prod
  · refine ⟨fun key tensor htensor => ?_, hshaped.arrays⟩
    rcases hshaped.tensors key tensor htensor with hshape | htake
    · rw [hshape]
      rfl
    · have hhead := congrArg List.head? htake
      rwa [List.head?_take, if_neg two_ne_zero] at hhead
  · intro key tensor htensor
    rcases hshaped.tensors key tensor htensor with hshape | htake
    · exact .inr (by simp [hshape])
    · exact .inl htake

theorem flattenTrajectories_ok [Inhabited ω] {library : TrainingLibrary ω}
    (hlibrary : library.Documented) {data : DataProto ω}
    (hshaped : data.TrajectoryShaped batchSize numSteps) {reference : Tensor ℚ}
    (hreference : data.batch.lookup referenceKey = some reference)
    (htake : reference.shape.take 2 = [batchSize, numSteps]) :
    flattenTrajectories library data referenceKey =
      .ok (flattened data batchSize numSteps) := by
  have haxes : 2 ≤ reference.shape.length := by
    have hlength := congrArg List.length htake
    simp only [List.length_take, List.length_cons, List.length_nil] at hlength
    omega
  obtain ⟨hrows, hsteps⟩ := Tensor.leading_of_take htake
  simp only [flattenTrajectories, bind_eq_ok, require_eq_ok, Dict.fetch_eq_ok]
  refine ⟨reference, hreference, (), haxes, ?_⟩
  rw [hrows, hsteps]
  exact hlibrary.fromDict_ok _ _ (flattened_hasRows hshaped)

theorem row_flattened {data : DataProto ω}
    (hshaped : data.TrajectoryShaped batchSize numSteps)
    (hstep : step < numSteps) (trajectory : ℕ) :
    (flattened data batchSize numSteps).row (trajectory * numSteps + step) =
      data.slot batchSize numSteps trajectory step := by
  unfold DataProto.row DataProto.slot
  congr 1
  · funext key
    simp only [flattened, Dict.lookup_map, Option.map_map]
    apply Option.map_congr
    intro tensor htensor
    simp only [Function.comp_apply]
    split_ifs with htake
    · exact row_mergeLeading_of_take htake hstep trajectory
    · have hshape := (hshaped.tensors key tensor htensor).resolve_right htake
      exact Tensor.row_repeatInterleave hshape hstep trajectory
  · funext key
    simp only [flattened, Dict.lookup_map, Option.map_map]
    apply Option.map_congr
    intro array _
    simp only [Function.comp_apply]
    split_ifs with htake
    · exact row_mergeLeading_of_take htake hstep trajectory
    · exact Tensor.row_repeatRows array hstep trajectory

end Flatten

/-! ## Blanked rows -/

theorem blankRows_foldlM (start : ℕ) {keys : List String}
    (hnodup : keys.Nodup) {batch : Dict (Tensor ℚ)}
    (hkeys : ∀ key ∈ keys, (batch.lookup key).isSome) :
    ∃ result, keys.foldlM (@blankRows ω start) batch = .ok result ∧
      ∀ key, result.lookup key = (batch.lookup key).map fun tensor =>
        if key ∈ keys then tensor.zeroRowsFrom start else tensor := by
  induction keys generalizing batch with
  | nil => exact ⟨batch, rfl, by simp⟩
  | cons first keys ih =>
    obtain ⟨hfresh, hnodup⟩ := List.nodup_cons.mp hnodup
    obtain ⟨tensor, htensor⟩ :=
      Option.isSome_iff_exists.mp (hkeys first List.mem_cons_self)
    have hblank : @blankRows ω start batch first =
        .ok (batch.insert first (tensor.zeroRowsFrom start)) := by
      simp [blankRows, Dict.fetch, htensor, bind, Except.bind, pure,
        Except.pure]
    have hrest : ∀ key ∈ keys,
        ((batch.insert first (tensor.zeroRowsFrom start)).lookup
          key).isSome := by
      intro key hkey
      have hne : key ≠ first := fun heq => hfresh (heq ▸ hkey)
      rw [AList.lookup_insert_ne hne]
      exact hkeys key (List.mem_cons_of_mem first hkey)
    obtain ⟨result, hresult, hlookup⟩ := ih hnodup hrest
    refine ⟨result, ?_, ?_⟩
    · rw [List.foldlM_cons, hblank]
      exact hresult
    · intro key
      rw [hlookup]
      by_cases hkey : key = first
      · subst hkey
        simp [AList.lookup_insert, htensor, hfresh]
      · simp [AList.lookup_insert_ne hkey, hkey]

theorem row_blanked {tensor : Tensor ℚ} (hi : i < start) (key : String)
    (keys : List String) :
    (if key ∈ keys then tensor.zeroRowsFrom start else tensor).row i =
      tensor.row i := by
  split_ifs
  · exact Tensor.row_zeroRowsFrom_lt tensor hi
  · rfl

section Dummies

variable [Inhabited ω] {library : TrainingLibrary ω}

/-- The first `n` rows are kept; the appended rows are blanked. -/
structure Padded (compact padded : DataProto ω) (n count : ℕ) : Prop where
  hasRows : padded.HasRows (n + count)
  kept : ∀ k < n, padded.row k = compact.row k
  blanked : ∀ key ∈ blankedFields, ∀ tensor,
    padded.batch.lookup key = some tensor →
    ∀ k, n ≤ k → k < n + count → ∀ rest, tensor.entry (k :: rest) = 0

theorem appendSyncDummies_spec (hlibrary : library.Documented)
    {compact : DataProto ω} {n : ℕ} (hrows : compact.HasRows n)
    (hfields : ∀ key ∈ blankedFields, (compact.batch.lookup key).isSome)
    (count : ℕ) :
    ∃ padded, appendSyncDummies library compact count = .ok padded ∧
      Padded compact padded n count := by
  by_cases hcount : count = 0
  · subst hcount
    refine ⟨compact, rfl, hrows, fun _ _ => rfl, ?_⟩
    intro key _ tensor _ k hlower hupper
    omega
  · let dummies := library.selectIdxs compact (List.replicate count 0)
    obtain ⟨valids, hvalids⟩ := Option.isSome_iff_exists.mp
      (hfields "info.valids" (by simp [blankedFields]))
    have hlength : compact.length = n := hrows.length_eq hvalids
    have hdummyRows : dummies.HasRows count := by
      have h := selectIdxs_hasRows hlibrary compact (List.replicate count 0)
      rwa [List.length_replicate] at h
    have hdummyLength : dummies.length = count := by
      apply hdummyRows.length_eq
      rw [hlibrary.selectIdxs_batch, hvalids]
      rfl
    have hsame := selectIdxs_sameFields hlibrary compact
      (List.replicate count 0)
    have hprotoRows : ∀ data ∈ [compact, dummies],
        data.HasRows data.length := by
      intro data hdata
      rcases List.mem_pair.mp hdata with rfl | rfl
      · rwa [hlength]
      · rwa [hdummyLength]
    have hprotoSame : ∀ data ∈ [compact, dummies],
        ∀ other ∈ [compact, dummies], data.SameFields other := by
      intro data hdata other hother
      rcases List.mem_pair.mp hdata with rfl | rfl <;>
        rcases List.mem_pair.mp hother with rfl | rfl
      · exact .refl _
      · exact hsame
      · exact hsame.symm
      · exact .refl _
    obtain ⟨joined, hjoined, hjoinedRows, hjoinedSame, hjoinedRow⟩ :=
      concat_rows hlibrary id DataProto.length (List.cons_ne_nil _ _)
        hprotoRows hprotoSame
    rw [List.map_id] at hjoined
    have htotal : ([compact, dummies].map DataProto.length).sum =
        n + count := by
      simp [hlength, hdummyLength]
    rw [htotal] at hjoinedRows
    have hpresent : ∀ key ∈ blankedFields,
        (joined.batch.lookup key).isSome := by
      intro key hkey
      have h := (hjoinedSame compact (by simp)).tensors key
      have hsome := hfields key hkey
      rw [← Option.isSome_map, h, Option.isSome_map]
      exact hsome
    obtain ⟨found, hfound⟩ := Option.isSome_iff_exists.mp
      (hpresent "info.valids" (by simp [blankedFields]))
    have hstart : joined.length - count = n := by
      rw [hjoinedRows.length_eq hfound]
      omega
    obtain ⟨batch, hbatch, hlookup⟩ := @blankRows_foldlM ω n _
      (by decide : blankedFields.Nodup) _ hpresent
    refine ⟨{ joined with batch := batch }, ?_, ⟨?_, ?_⟩, ?_, ?_⟩
    · simp only [appendSyncDummies, hcount, if_false, bind_eq_ok]
      refine ⟨joined, hjoined, batch, ?_, rfl⟩
      rw [hstart]
      exact hbatch
    · intro key tensor htensor
      rw [hlookup, Option.map_eq_some_iff] at htensor
      obtain ⟨original, horiginal, rfl⟩ := htensor
      have h := hjoinedRows.tensors key original horiginal
      split_ifs
      · exact h
      · exact h
    · exact hjoinedRows.arrays
    · intro k hk
      have hrow : joined.row k = compact.row k := by
        have h := hjoinedRow [] compact [dummies] rfl k (by rwa [hlength])
        simpa using h
      rw [← hrow]
      unfold DataProto.row
      congr 1
      funext key
      rw [hlookup, Option.map_map]
      apply Option.map_congr
      intro tensor _
      exact row_blanked hk key blankedFields
    · intro key hkey tensor htensor k hlower _ rest
      rw [hlookup, Option.map_eq_some_iff] at htensor
      obtain ⟨original, _, rfl⟩ := htensor
      rw [if_pos hkey]
      exact Tensor.entry_zeroRowsFrom original hlower rest

/-! ## Compaction -/

/-- Chunk weights that are positive exactly on the valid chunks. -/
structure Weighted (data : DataProto ω) (batchSize numSteps : ℕ)
    (valids weights : Tensor ℚ) : Prop where
  shaped : data.TrajectoryShaped batchSize numSteps
  action : ∃ action, data.batch.lookup "action.action" = some action ∧
    action.shape.take 2 = [batchSize, numSteps]
  valids_lookup : data.batch.lookup "info.valids" = some valids
  valids_shape : valids.shape = [batchSize, numSteps]
  weights_lookup : data.batch.lookup "fpo.loss_weights" = some weights
  weights_shape : weights.shape = [batchSize, numSteps]
  mask : ∀ b < batchSize, ∀ s < numSteps,
    valids.entry [b, s] = 0 ∨ valids.entry [b, s] = 1
  weight_pos : ∀ b < batchSize, ∀ s < numSteps,
    valids.entry [b, s] = 1 → 0 < weights.entry [b, s]
  weight_zero : ∀ b < batchSize, ∀ s < numSteps,
    valids.entry [b, s] = 0 → weights.entry [b, s] = 0
  some_valid : ∃ b < batchSize, ∃ s < numSteps, valids.entry [b, s] ≠ 0
  advantages : (data.batch.lookup "fpo.advantages").isSome
  actionValids : (data.batch.lookup "info.action_valids").isSome

def validPositions (batchSize numSteps : ℕ) (valids : Tensor ℚ) : List ℕ :=
  (List.range (batchSize * numSteps)).filter fun i =>
    valids.entry [i / numSteps, i % numSteps] ≠ 0

theorem div_mod_lt {batchSize numSteps i : ℕ} (hi : i < batchSize * numSteps) :
    i / numSteps < batchSize ∧ i % numSteps < numSteps := by
  have hpos : 0 < numSteps := by
    rcases Nat.eq_zero_or_pos numSteps with hzero | hpos
    · simp [hzero] at hi
    · exact hpos
  exact ⟨(Nat.div_lt_iff_lt_mul hpos).mpr hi, Nat.mod_lt i hpos⟩

theorem slot_lt {batchSize numSteps b s : ℕ} (hb : b < batchSize)
    (hs : s < numSteps) : b * numSteps + s < batchSize * numSteps := by
  calc b * numSteps + s < b * numSteps + numSteps := by omega
    _ = (b + 1) * numSteps := by rw [Nat.succ_mul]
    _ ≤ batchSize * numSteps := Nat.mul_le_mul_right numSteps hb

section Weighted

variable {data : DataProto ω} {batchSize numSteps : ℕ}
  {valids weights : Tensor ℚ}

theorem mem_validPositions {i : ℕ} :
    i ∈ validPositions batchSize numSteps valids ↔ i < batchSize * numSteps ∧
        valids.entry [i / numSteps, i % numSteps] ≠ 0 := by
  simp [validPositions]

omit [Inhabited ω] in
theorem Weighted.positions_ne_nil
    (hweighted : Weighted data batchSize numSteps valids weights) :
    validPositions batchSize numSteps valids ≠ [] := by
  obtain ⟨b, hb, s, hs, hvalid⟩ := hweighted.some_valid
  have hindex := Tensor.add_mul_div_mod hs b
  have hlt := slot_lt hb hs
  have hmem : b * numSteps + s ∈ validPositions batchSize numSteps valids := by
    rw [mem_validPositions, hindex.1, hindex.2]
    exact ⟨hlt, hvalid⟩
  exact List.ne_nil_of_mem hmem

omit [Inhabited ω] in
theorem entry_of_slot {other : DataProto ω} {k b s : ℕ}
    {source target : Tensor ℚ}
    (hrow : other.row k = data.slot batchSize numSteps b s)
    (hsource : data.batch.lookup key = some source)
    (hshape : source.shape = [batchSize, numSteps])
    (htarget : other.batch.lookup key = some target) :
    target.entry [k] = source.entry [b, s] := by
  have h := congrFun (congrArg DataProto.Row.tensors hrow) key
  simp only [DataProto.row, DataProto.slot, htarget, hsource,
    Option.map_some, hshape, List.take_succ_cons, List.take_nil, if_true,
    Option.some.injEq] at h
  exact congrArg (fun tensor : Tensor ℚ => tensor.entry []) h

theorem dummies_complete (n : ℕ) {divisor : ℕ} (hdivisor : 0 < divisor) :
    divisor ∣ n + (-(n : ℤ) % (divisor : ℤ)).toNat ∧
      (-(n : ℤ) % (divisor : ℤ)).toNat < divisor := by
  have hpos : (0 : ℤ) < divisor := by exact_mod_cast hdivisor
  have hnonneg := Int.emod_nonneg (-(n : ℤ)) hpos.ne'
  have hlt := Int.emod_lt_of_pos (-(n : ℤ)) hpos
  have hdiv := Int.mul_ediv_add_emod (-(n : ℤ)) divisor
  constructor
  · have hint : (divisor : ℤ) ∣
        ((n + (-(n : ℤ) % (divisor : ℤ)).toNat : ℕ) : ℤ) := by
      refine ⟨-(-(n : ℤ) / divisor), ?_⟩
      rw [Nat.cast_add, Int.toNat_of_nonneg hnonneg, mul_neg]
      omega
    exact_mod_cast hint
  · omega

omit [Inhabited ω] in
theorem flattened_lookup (hsource : data.batch.lookup key = some source)
    (hshape : source.shape = [batchSize, numSteps]) :
    (flattened data batchSize numSteps).batch.lookup key =
      some source.mergeLeading := by
  simp [flattened, hsource, hshape]

theorem selected_entry (hlibrary : library.Documented)
    (hshaped : data.TrajectoryShaped batchSize numSteps)
    {positions : List ℕ}
    (hpositions : ∀ i ∈ positions, i < batchSize * numSteps)
    {k : ℕ} (hk : k < positions.length) :
    (library.selectIdxs (flattened data batchSize numSteps) positions).row
        k = data.slot batchSize numSteps
          (positions[k] / numSteps) (positions[k] % numSteps) := by
  have hlt := hpositions positions[k] (List.getElem_mem hk)
  rw [row_selectIdxs hlibrary, List.getD_eq_getElem?_getD,
    List.getElem?_eq_getElem hk, Option.getD_some,
    ← row_flattened hshaped (div_mod_lt hlt).2]
  congr 1
  exact (Nat.div_add_mod' positions[k] numSteps).symm

/-- What compaction returns: the valid slots, then blanked dummies. -/
structure Compacted (data compact : DataProto ω) (batchSize numSteps : ℕ)
    (positions : List ℕ) (divisor dummies : ℕ) : Prop where
  length : compact.length = positions.length + dummies
  divisible : divisor ∣ positions.length + dummies
  few : dummies < divisor
  kept : ∀ (k : ℕ) (hk : k < positions.length),
    compact.row k = data.slot batchSize numSteps
      (positions[k] / numSteps) (positions[k] % numSteps)
  blanked : ∀ key ∈ blankedFields, ∀ tensor,
    compact.batch.lookup key = some tensor →
    ∀ k, positions.length ≤ k → k < positions.length + dummies →
      ∀ rest, tensor.entry (k :: rest) = 0

omit [Inhabited ω] in
theorem Compacted.present
    (hcompacted : Compacted data compact batchSize numSteps positions
      divisor dummies) (hpositions : positions ≠ [])
    (hkey : (data.batch.lookup key).isSome) :
    ∃ tensor, compact.batch.lookup key = some tensor := by
  have hrow := hcompacted.kept 0 (List.length_pos_of_ne_nil hpositions)
  have hsome := congrArg Option.isSome
    (congrFun (congrArg DataProto.Row.tensors hrow) key)
  simp only [DataProto.row, DataProto.slot, Option.isSome_map] at hsome
  rw [← hsome] at hkey
  exact Option.isSome_iff_exists.mp hkey

omit [Inhabited ω] in
theorem mem_validPositions_one
    (hweighted : Weighted data batchSize numSteps valids weights) {i : ℕ}
    (hi : i ∈ validPositions batchSize numSteps valids) :
    i / numSteps < batchSize ∧ i % numSteps < numSteps ∧
      valids.entry [i / numSteps, i % numSteps] = 1 := by
  obtain ⟨hlt, hvalid⟩ := mem_validPositions.mp hi
  obtain ⟨hb, hs⟩ := div_mod_lt hlt
  exact ⟨hb, hs, (hweighted.mask _ hb _ hs).resolve_left hvalid⟩

omit [Inhabited ω] in
theorem compacted_masks
    (hweighted : Weighted data batchSize numSteps valids weights)
    (hcompacted : Compacted data compact batchSize numSteps
      (validPositions batchSize numSteps valids) divisor dummies)
    (hvalids : compact.batch.lookup "info.valids" = some compactValids)
    (hweights : compact.batch.lookup "fpo.loss_weights" =
      some compactWeights) :
    (∀ k < (validPositions batchSize numSteps valids).length,
      compactValids.entry [k] = 1 ∧ 0 < compactWeights.entry [k]) ∧
    ∀ k, (validPositions batchSize numSteps valids).length ≤ k →
      k < (validPositions batchSize numSteps valids).length + dummies →
      compactValids.entry [k] = 0 ∧ compactWeights.entry [k] = 0 := by
  constructor
  · intro k hk
    obtain ⟨hb, hs, hvalid⟩ :=
      mem_validPositions_one hweighted (List.getElem_mem hk)
    have hrow := hcompacted.kept k hk
    rw [entry_of_slot hrow hweighted.valids_lookup hweighted.valids_shape
        hvalids,
      entry_of_slot hrow hweighted.weights_lookup hweighted.weights_shape
        hweights]
    exact ⟨hvalid, hweighted.weight_pos _ hb _ hs hvalid⟩
  · intro k hlower hupper
    constructor
    · exact hcompacted.blanked "info.valids" (by simp [blankedFields]) _
        hvalids k hlower hupper []
    · exact hcompacted.blanked "fpo.loss_weights" (by simp [blankedFields]) _
        hweights k hlower hupper []

theorem sum_leading_ones {f : ℕ → ℚ} {n count : ℕ} (hone : ∀ k < n, f k = 1)
    (hzero : ∀ k, n ≤ k → k < n + count → f k = 0) :
    ∑ k ∈ range (n + count), f k = n := by
  have hones : ∑ k ∈ range n, f k = ∑ _k ∈ range n, (1 : ℚ) :=
    sum_congr rfl fun k hk => hone k (mem_range.mp hk)
  have hzeros : ∑ k ∈ range count, f (n + k) = 0 := by
    apply sum_eq_zero
    intro k hk
    have hlt := mem_range.mp hk
    exact hzero _ (by omega) (by omega)
  rw [sum_range_add, hones, hzeros]
  simp

theorem selected_padded (hlibrary : library.Documented)
    (hweighted : Weighted data batchSize numSteps valids weights)
    {divisor : ℕ} (hdivisor : 0 < divisor) :
    ∃ padded dummies,
      dummies = (-((validPositions batchSize numSteps valids).length : ℤ) %
        (divisor : ℤ)).toNat ∧
      appendSyncDummies library
        (library.selectIdxs (flattened data batchSize numSteps)
          (validPositions batchSize numSteps valids)) dummies = .ok padded ∧
      padded.HasRows
        ((validPositions batchSize numSteps valids).length + dummies) ∧
      Compacted data padded batchSize numSteps
        (validPositions batchSize numSteps valids) divisor dummies := by
  set positions := validPositions batchSize numSteps valids
  set selected :=
    library.selectIdxs (flattened data batchSize numSteps) positions
  have hfields : ∀ key ∈ blankedFields,
      (selected.batch.lookup key).isSome := by
    intro key hkey
    rw [hlibrary.selectIdxs_batch, Option.isSome_map, flattened,
      Dict.lookup_map, Option.isSome_map]
    simp only [blankedFields, List.mem_cons, List.not_mem_nil,
      or_false] at hkey
    rcases hkey with rfl | rfl | rfl | rfl
    · simp [hweighted.valids_lookup]
    · simp [hweighted.weights_lookup]
    · exact hweighted.advantages
    · exact hweighted.actionValids
  obtain ⟨hdivides, hfew⟩ := dummies_complete positions.length hdivisor
  obtain ⟨padded, hpadded, hspec⟩ := appendSyncDummies_spec hlibrary
    (selectIdxs_hasRows hlibrary _ positions) hfields
    (-(positions.length : ℤ) % (divisor : ℤ)).toNat
  have hkept : ∀ (k : ℕ) (hk : k < positions.length),
      padded.row k = data.slot batchSize numSteps
        (positions[k] / numSteps) (positions[k] % numSteps) := by
    intro k hk
    rw [hspec.kept k hk]
    exact selected_entry hlibrary hweighted.shaped
      (fun i hi => (mem_validPositions.mp hi).1) hk
  have hnonempty := List.length_pos_of_ne_nil hweighted.positions_ne_nil
  have hlength : padded.length = positions.length +
      (-(positions.length : ℤ) % (divisor : ℤ)).toNat := by
    have hrow := congrFun (congrArg DataProto.Row.tensors
      (hspec.kept 0 hnonempty)) "info.valids"
    have hsome := congrArg Option.isSome hrow
    simp only [DataProto.row, Option.isSome_map] at hsome
    rw [hfields "info.valids" (by simp [blankedFields])] at hsome
    obtain ⟨tensor, htensor⟩ := Option.isSome_iff_exists.mp hsome
    exact hspec.hasRows.length_eq htensor
  exact ⟨padded, _, rfl, hpadded, hspec.hasRows,
    ⟨hlength, hdivides, hfew, hkept, hspec.blanked⟩⟩

omit [Inhabited ω] in
theorem flat_weights
    (hweighted : Weighted data batchSize numSteps valids weights) {i : ℕ}
    (hi : i ∈ List.range valids.mergeLeading.rows) :
    (valids.mergeLeading.entry [i] ≠ 0 → 0 < weights.mergeLeading.entry [i]) ∧
    (valids.mergeLeading.entry [i] = 0 →
      weights.mergeLeading.entry [i] = 0) := by
  simp only [Tensor.mergeLeading, Tensor.rows, Tensor.steps,
    hweighted.valids_shape, hweighted.weights_shape, List.mem_range,
    List.headD_cons, List.getD_cons_succ, List.getD_cons_zero] at hi ⊢
  obtain ⟨hb, hs⟩ := div_mod_lt hi
  constructor
  · intro hvalid
    exact hweighted.weight_pos _ hb _ hs
      ((hweighted.mask _ hb _ hs).resolve_left hvalid)
  · exact hweighted.weight_zero _ hb _ hs

omit [Inhabited ω] in
theorem valid_indices
    (hweighted : Weighted data batchSize numSteps valids weights) :
    (List.range valids.mergeLeading.rows).filter
        (fun i => valids.mergeLeading.entry [i] ≠ 0) =
      validPositions batchSize numSteps valids := by
  simp [validPositions, Tensor.mergeLeading, Tensor.rows, Tensor.steps,
    hweighted.valids_shape]

theorem compactValidPolicyChunksForFpo_spec (hlibrary : library.Documented)
    (hweighted : Weighted data batchSize numSteps valids weights)
    {actorWorldSize microBatchSize : ℕ}
    (hworld : 0 < actorWorldSize) (hmicro : 0 < microBatchSize) :
    ∃ compact dummies,
      compactValidPolicyChunksForFpo library data actorWorldSize
        microBatchSize = .ok compact ∧
      Compacted data compact batchSize numSteps
        (validPositions batchSize numSteps valids)
        (actorWorldSize * microBatchSize) dummies := by
  have hsizes : (0 : ℤ) < actorWorldSize ∧ (0 : ℤ) < microBatchSize :=
    ⟨by exact_mod_cast hworld, by exact_mod_cast hmicro⟩
  obtain ⟨action, haction, hactionShape⟩ := hweighted.action
  have hflat := flattenTrajectories_ok hlibrary hweighted.shaped haction
    hactionShape
  have hflatValids := flattened_lookup hweighted.valids_lookup
    hweighted.valids_shape
  have hflatWeights := flattened_lookup hweighted.weights_lookup
    hweighted.weights_shape
  obtain ⟨padded, dummies, hdummies, hpadded, hrows, hcompacted⟩ :=
    selected_padded hlibrary hweighted (Nat.mul_pos hworld hmicro)
  have hselectedLength : (library.selectIdxs
      (flattened data batchSize numSteps)
      (validPositions batchSize numSteps valids)).length =
        (validPositions batchSize numSteps valids).length := by
    apply (selectIdxs_hasRows hlibrary _ _).length_eq
    rw [hlibrary.selectIdxs_batch, hflatValids]
    rfl
  have hnonempty := hweighted.positions_ne_nil
  obtain ⟨paddedValids, hpaddedValids⟩ := hcompacted.present hnonempty
    (by simp [hweighted.valids_lookup] :
      (data.batch.lookup "info.valids").isSome)
  obtain ⟨paddedWeights, hpaddedWeights⟩ := hcompacted.present hnonempty
    (by simp [hweighted.weights_lookup] :
      (data.batch.lookup "fpo.loss_weights").isSome)
  obtain ⟨hvalidRows, hdummyRows⟩ :=
    compacted_masks hweighted hcompacted hpaddedValids hpaddedWeights
  set positions := validPositions batchSize numSteps valids
  have hpaddedRows : paddedValids.rows = positions.length + dummies :=
    DataProto.rows_of_head (hrows.tensors _ _ hpaddedValids)
  have hcount : truncate (∑ i ∈ range paddedValids.rows,
      paddedValids.entry [i]) = (positions.length : ℤ) := by
    rw [hpaddedRows, sum_leading_ones (fun k hk => (hvalidRows k hk).1)
      fun k hlower hupper => (hdummyRows k hlower hupper).1]
    simp [truncate]
  have hagree : ∀ i ∈ List.range paddedValids.rows,
      (0 < paddedWeights.entry [i] ↔ paddedValids.entry [i] ≠ 0) := by
    intro i hi
    rw [hpaddedRows, List.mem_range] at hi
    by_cases hk : i < positions.length
    · obtain ⟨hone, hpos⟩ := hvalidRows i hk
      simp [hone, hpos]
    · obtain ⟨hvalid, hweight⟩ := hdummyRows i (by omega) hi
      simp [hvalid, hweight]
  have hdivisible : (padded.length : ℤ) %
      ((actorWorldSize : ℤ) * microBatchSize) = 0 := by
    apply Int.emod_eq_zero_of_dvd
    rw [hcompacted.length]
    exact_mod_cast hcompacted.divisible
  let final : DataProto ω := { padded with
    metaInfo := compactionMetaInfo padded.metaInfo
      (flattened data batchSize numSteps).length positions.length dummies
      padded.length }
  refine ⟨final, dummies, ?_, ⟨hcompacted.length, hcompacted.divisible,
    hcompacted.few, hcompacted.kept, hcompacted.blanked⟩⟩
  simp only [compactValidPolicyChunksForFpo, bind_eq_ok, require_eq_ok,
    Dict.fetch_eq_ok]
  refine ⟨(), hsizes, valids, hweighted.valids_lookup, (), ?_, weights,
    hweighted.weights_lookup, (), ?_, _, hflat, _, hflatValids, _,
    hflatWeights, (), fun i hi => (flat_weights hweighted hi).1,
    (), fun i hi => (flat_weights hweighted hi).2, (), ?_, padded, ?_, (),
    hdivisible, paddedValids, hpaddedValids, paddedWeights, hpaddedWeights,
    (), ?_, (), hagree, ?_⟩
  · simp [hweighted.valids_shape]
  · rw [hweighted.valids_shape, hweighted.weights_shape]
  · rw [valid_indices hweighted]
    exact hnonempty
  · rw [valid_indices hweighted, hselectedLength]
    push_cast at hdummies
    rw [← hdummies]
    exact hpadded
  · rw [valid_indices hweighted, hselectedLength]
    exact hcount
  · rw [valid_indices hweighted, hselectedLength]
    push_cast at hdummies
    rw [← hdummies]
    rfl

omit [Inhabited ω] in
theorem Compacted.sum_weights
    (hweighted : Weighted data batchSize numSteps valids weights)
    {compact : DataProto ω} {divisor dummies : ℕ}
    (hcompacted : Compacted data compact batchSize numSteps
      (validPositions batchSize numSteps valids) divisor dummies)
    {compactWeights : Tensor ℚ}
    (hweights : compact.batch.lookup "fpo.loss_weights" =
      some compactWeights) (loss : DataProto.Row ω → ℚ) :
    ∑ k ∈ range compact.length,
        compactWeights.entry [k] * loss (compact.row k) =
      ∑ b ∈ range batchSize, ∑ s ∈ range numSteps, weights.entry [b, s] *
          loss (data.slot batchSize numSteps b s) := by
  let term : ℕ → ℚ := fun i =>
    weights.entry [i / numSteps, i % numSteps] *
      loss (data.slot batchSize numSteps (i / numSteps) (i % numSteps))
  set positions := validPositions batchSize numSteps valids with hpositions
  have hkept : ∀ k ∈ range positions.length,
      compactWeights.entry [k] * loss (compact.row k) =
        term (positions.getD k 0) := by
    intro k hk
    have hlt := mem_range.mp hk
    have hrow := hcompacted.kept k hlt
    rw [List.getD_eq_getElem?_getD, List.getElem?_eq_getElem hlt,
      Option.getD_some, hrow, entry_of_slot hrow hweighted.weights_lookup
        hweighted.weights_shape hweights]
  have hdummies : ∀ k ∈ range dummies,
      compactWeights.entry [positions.length + k] *
        loss (compact.row (positions.length + k)) = 0 := by
    intro k hk
    have hlt := mem_range.mp hk
    rw [hcompacted.blanked "fpo.loss_weights" (by simp [blankedFields]) _
      hweights _ (by omega) (by omega) [], zero_mul]
  have hinvalid : ∀ i ∈ range (batchSize * numSteps), term i ≠ 0 →
      valids.entry [i / numSteps, i % numSteps] ≠ 0 := by
    intro i hi hterm hvalid
    obtain ⟨hb, hs⟩ := div_mod_lt (mem_range.mp hi)
    apply hterm
    show weights.entry [i / numSteps, i % numSteps] * _ = 0
    rw [hweighted.weight_zero _ hb _ hs hvalid, zero_mul]
  have hslots : ∀ b ∈ range batchSize, ∀ s ∈ range numSteps,
      term (b * numSteps + s) = weights.entry [b, s] *
        loss (data.slot batchSize numSteps b s) := by
    intro b _ s hs
    have hindex := Tensor.add_mul_div_mod (mem_range.mp hs) b
    show weights.entry [_, _] * loss (data.slot batchSize numSteps _ _) = _
    rw [hindex.1, hindex.2]
  calc ∑ k ∈ range compact.length,
        compactWeights.entry [k] * loss (compact.row k)
      = ∑ k ∈ range positions.length, term (positions.getD k 0) := by
        rw [hcompacted.length, sum_range_add, sum_congr rfl hkept,
          sum_eq_zero hdummies, add_zero]
    _ = (positions.map term).sum := NestedMeans.sum_range_getD positions term
    _ = ∑ i ∈ range (batchSize * numSteps) with
          valids.entry [i / numSteps, i % numSteps] ≠ 0, term i :=
        NestedMeans.sum_map_filter_range _ _ term
    _ = ∑ i ∈ range (batchSize * numSteps), term i := sum_filter_of_ne hinvalid
    _ = ∑ b ∈ range batchSize, ∑ s ∈ range numSteps, term (b * numSteps + s) :=
        NestedMeans.sum_range_blocks batchSize numSteps term
    _ = _ := sum_congr rfl fun b hb => sum_congr rfl (hslots b hb)

def validSlots (batchSize numSteps : ℕ) (valids : Tensor ℚ) : List (ℕ × ℕ) :=
  (validPositions batchSize numSteps valids).map fun i =>
    (i / numSteps, i % numSteps)

theorem mem_validSlots {b s : ℕ} :
    (b, s) ∈ validSlots batchSize numSteps valids ↔
      b < batchSize ∧ s < numSteps ∧ valids.entry [b, s] ≠ 0 := by
  constructor
  · intro hslot
    obtain ⟨i, hi, hindex⟩ := List.mem_map.mp hslot
    cases hindex
    obtain ⟨hlt, hvalid⟩ := mem_validPositions.mp hi
    exact ⟨(div_mod_lt hlt).1, (div_mod_lt hlt).2, hvalid⟩
  · rintro ⟨hb, hs, hvalid⟩
    have hindex := Tensor.add_mul_div_mod hs b
    apply List.mem_map.mpr
    refine ⟨b * numSteps + s, ?_, by rw [hindex.1, hindex.2]⟩
    rw [mem_validPositions, hindex.1, hindex.2]
    exact ⟨slot_lt hb hs, hvalid⟩

theorem validSlots_ordered :
    (validSlots batchSize numSteps valids).Pairwise fun slot later =>
      slot.1 < later.1 ∨ slot.1 = later.1 ∧ slot.2 < later.2 := by
  have hsorted : (validPositions batchSize numSteps valids).Pairwise
      (· < ·) := List.pairwise_lt_range.filter _
  apply List.pairwise_map.mpr
  apply hsorted.imp
  intro i j hij
  have hle : i / numSteps ≤ j / numSteps := Nat.div_le_div_right hij.le
  rcases hle.lt_or_eq with hlt | heq
  · exact .inl hlt
  · right
    refine ⟨heq, ?_⟩
    have hi := Nat.div_add_mod' i numSteps
    have hj := Nat.div_add_mod' j numSteps
    simp only at heq ⊢
    rw [heq] at hi
    omega

end Weighted

end Dummies

end VerlVla
