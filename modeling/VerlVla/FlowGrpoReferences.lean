import VerlVla.FlowGrpoRuns
import VerlVla.RowLibrary

/-!
# References of the policy that started an update

The first epoch evaluates every row once before any optimizer step, so every
reference is the likelihood under the parameters that started the update, and
later epochs read no other.
-/

namespace VerlVla

open Transition

variable {Θ ω : Type} {setting : FlowGrpoSetting Θ ω}

/-! ## The micro-batches of an epoch -/

section Epoch

variable [Inhabited ω] {data : DataProto ω}

theorem selected_length (hlibrary : setting.library.Documented)
    (hnumbered : Numbered data) (indices : List ℕ) :
    (setting.library.selectIdxs data indices).length = indices.length := by
  have hlookup := hlibrary.selectIdxs_batch data indices
    "flow_grpo.reference_index"
  rw [hnumbered, Option.map_some] at hlookup
  exact (selectIdxs_hasRows hlibrary data indices).length_eq hlookup

/-- The micro-batches of a minibatch hold rows of the batch, and together all
rows of the minibatch. -/
theorem split_minibatch (hlibrary : setting.library.Documented)
    (hnumbered : Numbered data) (hsize : 0 < size)
    (hindices : ∀ r ∈ indices, r < data.length) :
    (∀ microBatch ∈ setting.split size
        (setting.library.selectIdxs data indices),
      ∃ rows, MicroRows data microBatch rows) ∧
      ∀ r ∈ indices, ∃ microBatch ∈ setting.split size
        (setting.library.selectIdxs data indices),
        ∃ rows, MicroRows data microBatch rows ∧ r ∈ rows := by
  have hpart : ∀ part ∈ splitRows size (List.range indices.length),
      MicroRows data (setting.library.selectIdxs
        (setting.library.selectIdxs data indices) part)
        (part.map fun j => indices.getD j 0) := by
    intro part hmember
    apply MicroRows.select hlibrary hindices
    intro j hj
    have hall : j ∈ (splitRows size (List.range indices.length)).flatten :=
      List.mem_flatten.mpr ⟨part, hmember, hj⟩
    rw [flatten_splitRows hsize] at hall
    exact List.mem_range.mp hall
  rw [FlowGrpoSetting.split, selected_length hlibrary hnumbered]
  constructor
  · intro microBatch hmicro
    obtain ⟨part, hmember, rfl⟩ := List.mem_map.mp hmicro
    exact ⟨_, hpart part hmember⟩
  · intro r hr
    obtain ⟨j, hj, rfl⟩ := List.getElem_of_mem hr
    have hall : j ∈ (splitRows size (List.range indices.length)).flatten := by
      rw [flatten_splitRows hsize]
      exact List.mem_range.mpr hj
    obtain ⟨part, hmember, hmem⟩ := List.mem_flatten.mp hall
    refine ⟨_, List.mem_map_of_mem hmember, _, hpart part hmember, ?_⟩
    exact List.mem_map.mpr ⟨j, hmem, List.getD_eq_getElem _ _ hj⟩

theorem chunkStarts_self (hsize : 0 < size) : chunkStarts size size = [0] := by
  have hone : (size + size - 1) / size = 1 := by
    rw [Nat.div_eq_iff hsize]
    omega
  rw [chunkStarts, hone]
  simp

theorem epochBatches_eq (hlibrary : setting.library.Documented)
    (hconfig : setting.config.postInit = .ok ()) (hnumbered : Numbered data)
    (hdata : 0 < data.length)
    (hpermutation : permutation.Perm (List.range data.length)) :
    ∃ microBatches, setting.epochBatches data permutation = [microBatches] ∧
      (∀ microBatch ∈ microBatches, ∃ rows, MicroRows data microBatch rows) ∧
      ∀ r < data.length, ∃ microBatch ∈ microBatches,
        ∃ rows, MicroRows data microBatch rows ∧ r ∈ rows := by
  obtain ⟨hmicro, hfull⟩ := FlowGrpoActorConfig.accepted hconfig
  have hlength : permutation.length = data.length := by
    rw [hpermutation.length_eq, List.length_range]
  have hslice : sliceRows (0, 0 + data.length) permutation = permutation := by
    rw [sliceRows, Nat.add_sub_cancel_left, List.drop_zero, ← hlength,
      List.take_length]
  have hbounded : ∀ r ∈ permutation, r < data.length := by
    intro r hr
    exact List.mem_range.mp (hpermutation.mem_iff.mp hr)
  obtain ⟨hrows, hcover⟩ := split_minibatch hlibrary hnumbered hmicro hbounded
  refine ⟨_, ?_, hrows, ?_⟩
  · rw [FlowGrpoSetting.epochBatches, FlowGrpoSetting.localMiniBatchSize,
      if_pos hfull, chunkStarts_self hdata, List.map_singleton, hslice]
  · intro r hr
    exact hcover r (hpermutation.mem_iff.mpr (List.mem_range.mpr hr))

end Epoch

/-! ## The law of an evaluation -/

def executedMean (horizon : ℕ) (mask f : ℕ → ℚ) : ℚ :=
  (∑ h ∈ (Finset.range horizon).filter (fun h => mask h = 1), f h) /
    ((Finset.range horizon).filter fun h => mask h = 1).card

theorem maskedDifference_eq (horizon : ℕ) (old current : ℕ → ℚ)
    (hmask : ∀ h, mask h = 0 ∨ mask h = 1) :
    maskedDifference horizon old current mask =
      executedMean horizon mask fun h => current h - old h := by
  have hmask : ∀ h, mask h = if mask h = 1 then 1 else 0 := by
    intro h
    rcases hmask h with hzero | hone
    · simp [hzero]
    · simp [hone]
  have hcount : ∑ h ∈ Finset.range horizon, mask h =
      ((Finset.range horizon).filter fun h => mask h = 1).card := by
    rw [Finset.sum_congr rfl fun h _ => hmask h, Finset.sum_boole]
  have hsum : ∑ h ∈ Finset.range horizon, (current h - old h) * mask h =
      ∑ h ∈ (Finset.range horizon).filter (fun h => mask h = 1),
        (current h - old h) := by
    rw [Finset.sum_filter]
    apply Finset.sum_congr rfl
    intro h _
    rw [hmask h]
    by_cases hone : mask h = 1
    · simp [hone]
    · simp [hone]
  rw [maskedDifference, executedMean, hsum, hcount]
  by_cases hnone : ((Finset.range horizon).filter fun h => mask h = 1).card = 0
  · rw [Finset.card_eq_zero.mp hnone]
    simp
  · congr 1
    apply max_eq_left
    exact_mod_cast Nat.one_le_iff_ne_zero.mpr hnone

namespace FlowEvaluation

variable (entry : FlowEvaluation Θ ω)

def Agree (first second : ℕ → ℕ → ℚ) : Prop :=
  ∀ t < entry.transitions, ∀ h < entry.horizon, first t h = second t h

/-- The log ratio is that of the row against the parameters that started the
update, and its reference was written in the first epoch of the update. -/
structure Law (setting : FlowGrpoSetting Θ ω)
    (earlier : List (FlowEvaluation Θ ω)) (entry : FlowEvaluation Θ ω) :
    Prop where
  row_lt : entry.row < entry.data.length
  reference : entry.Agree entry.reference (rowLogProbs setting
    entry.oldParameters entry.data entry.transitions entry.row)
  logRatio : (∀ h, actionMask (entry.data.row entry.row) h = 0 ∨
      actionMask (entry.data.row entry.row) h = 1) →
    ∀ t < entry.transitions, entry.logRatio t =
      executedMean entry.horizon (actionMask (entry.data.row entry.row))
        fun h => rowLogProbs setting entry.parameters entry.data
            entry.transitions entry.row t h -
          rowLogProbs setting entry.oldParameters entry.data
            entry.transitions entry.row t h
  first : entry.epoch = 0 → entry.optimizerSteps = 0 ∧
    ∀ t < entry.transitions, entry.logRatio t = 0
  later : entry.epoch ≠ 0 → ∃ source ∈ earlier,
    source.update = entry.update ∧ source.epoch = 0 ∧
      source.data = entry.data ∧ source.row = entry.row ∧
        entry.Agree entry.reference source.reference

theorem Law.mono {entry : FlowEvaluation Θ ω}
    (hlaw : Law setting earlier entry) (more : List (FlowEvaluation Θ ω)) :
    Law setting (earlier ++ more) entry where
  row_lt := hlaw.row_lt
  reference := hlaw.reference
  logRatio := hlaw.logRatio
  first := hlaw.first
  later := by
    intro hepoch
    obtain ⟨source, hsource, hrest⟩ := hlaw.later hepoch
    exact ⟨source, List.mem_append_left more hsource, hrest⟩

end FlowEvaluation

/-! ## The references of an update -/

section References

variable (setting)

structure Kept (entries : List (FlowEvaluation Θ ω)) (updates : ℕ)
    (data : DataProto ω) (oldParameters : Θ) (reference : FrozenReference)
    (row count horizon : ℕ) : Prop where
  shape : reference.replayOldLogProbs.shape.tail = [count, horizon]
  value : ∀ t < count, ∀ h < horizon,
    reference.replayOldLogProbs.entry [row, t, h] =
      rowLogProbs setting oldParameters data count row t h
  source : ∃ source ∈ entries, source.update = updates ∧ source.epoch = 0 ∧
    source.data = data ∧ source.row = row ∧ ∀ t < count, ∀ h < horizon,
        reference.replayOldLogProbs.entry [row, t, h] = source.reference t h

def AllInitialized (data : DataProto ω) (reference : FrozenReference) : Prop :=
  ∀ r < data.length, reference.initialized.entry [r] = true

inductive FirstPass (parameters : Θ) (update : FlowUpdate Θ ω)
    (reference : FrozenReference) : Prop
  | running (microBatches : List (DataProto ω))
      (hsteps : update.optimizerSteps = 0)
      (hparameters : parameters = update.oldParameters)
      (hpending : update.pending = [microBatches])
      (hcover : ∀ r < update.data.length,
        reference.initialized.entry [r] = true ∨
          ∃ microBatch ∈ microBatches, ∃ rows,
            MicroRows update.data microBatch rows ∧ r ∈ rows)
  | done (hpending : update.pending = [])
      (hall : AllInitialized update.data reference)

structure UpdateInv (entries : List (FlowEvaluation Θ ω))
    (trainer : FlowTrainer Θ ω) (update : FlowUpdate Θ ω)
    (reference : FrozenReference) : Prop where
  found : trainer.worker.reference = some reference
  numbered : Numbered update.data
  nonempty : 0 < update.data.length
  epoch : 0 ≤ trainer.worker.activeUpdateEpoch
  micros : ∀ microBatches ∈ update.pending, ∀ microBatch ∈ microBatches,
    ∃ rows, MicroRows update.data microBatch rows
  kept : ∀ r < update.data.length, reference.initialized.entry [r] = true →
    ∃ count horizon, Kept setting entries trainer.updates update.data
      update.oldParameters reference r count horizon
  first : trainer.worker.activeUpdateEpoch = 0 →
    FirstPass trainer.parameters update reference
  later : 0 < trainer.worker.activeUpdateEpoch →
    AllInitialized update.data reference

variable {setting}

theorem Kept.mono
    (hkept : Kept setting entries updates data oldParameters reference row
      count horizon) (more : List (FlowEvaluation Θ ω)) :
    Kept setting (entries ++ more) updates data oldParameters reference row
      count horizon where
  shape := hkept.shape
  value := hkept.value
  source := by
    obtain ⟨source, hsource, hrest⟩ := hkept.source
    exact ⟨source, List.mem_append_left more hsource, hrest⟩

theorem prepared
    (hprepared : setting.prepareTrainingBatch uninitialized data worker =
      .ok (next, flat)) :
    Numbered flat ∧ ∃ reference, next.reference = some reference ∧
      ∀ r, reference.initialized.entry [r] = false := by
  simp only [FlowGrpoSetting.prepareTrainingBatch, bind_eq_ok] at hprepared
  obtain ⟨shape, _, rows, _, count, _, hvalue⟩ := hprepared
  cases hvalue
  constructor
  · exact AList.lookup_insert _
  · exact ⟨_, rfl, fun _ => rfl⟩

theorem begun (hconfig : setting.config.postInit = .ok ())
    (hbegun : setting.beginUpdate flat = .ok ()) :
    0 < flat.length := by
  obtain ⟨_, hfull⟩ := FlowGrpoActorConfig.accepted hconfig
  rw [FlowGrpoSetting.beginUpdate, require_bind_eq_ok, require_eq_ok,
    FlowGrpoSetting.localMiniBatchSize, if_pos hfull] at hbegun
  exact hbegun.2

theorem UpdateInv.start [Inhabited ω] (hlibrary : setting.library.Documented)
    (hconfig : setting.config.postInit = .ok ())
    {uninitialized : List ℕ → ℚ} {data flat : DataProto ω}
    {trainer : FlowTrainer Θ ω} {next : FlowGrpoWorker}
    {permutation : List ℕ} (entries : List (FlowEvaluation Θ ω))
    (hprepared : setting.prepareTrainingBatch uninitialized data
      trainer.worker = .ok (next, flat))
    (hbegun : setting.beginUpdate flat = .ok ())
    (hpermutation : permutation.Perm (List.range flat.length)) :
    ∃ reference, UpdateInv setting entries
      { trainer with
        worker := { next with activeUpdateEpoch := 0 }
        update := some ⟨flat, trainer.parameters, 0, false,
          setting.epochBatches flat permutation⟩
        updates := trainer.updates + 1 }
      ⟨flat, trainer.parameters, 0, false,
        setting.epochBatches flat permutation⟩ reference := by
  obtain ⟨hnumbered, reference, hreference, hfresh⟩ := prepared hprepared
  have hnonempty := begun hconfig hbegun
  obtain ⟨microBatches, hbatches, hmicros, hcover⟩ :=
    epochBatches_eq hlibrary hconfig hnumbered hnonempty hpermutation
  refine ⟨reference, hreference, hnumbered, hnonempty, le_rfl, ?_, ?_, ?_, ?_⟩
  · intro others hothers
    rw [hbatches, List.mem_singleton] at hothers
    rw [hothers]
    exact hmicros
  · intro r _ hinitialized
    rw [hfresh r] at hinitialized
    cases hinitialized
  · intro _
    exact .running microBatches rfl rfl hbatches fun r hr => .inr (hcover r hr)
  · intro hlater
    exact absurd hlater (lt_irrefl 0)

/-! ## One evaluation -/

theorem writeRows_of_mem (hrow : row ∈ indices) (rows tensor : Tensor ℚ) :
    ∃ i < indices.length, indices.getD i 0 = row ∧ ∀ rest,
      (tensor.writeRows indices rows).entry (row :: rest) =
        rows.entry (i :: rest) := by
  cases hindex : indices.idxOf? row with
  | none => exact absurd hrow (List.idxOf?_eq_none_iff.mp hindex)
  | some i =>
    obtain ⟨hi, hget, _⟩ := List.idxOf?_eq_some_iff.mp hindex
    refine ⟨i, hi, (List.getD_eq_getElem _ _ hi).trans hget, ?_⟩
    intro rest
    simp only [Tensor.writeRows, hindex]

theorem writeRows_of_notMem (hrow : row ∉ indices) (rows tensor : Tensor ℚ)
    (rest : List ℕ) :
    (tensor.writeRows indices rows).entry (row :: rest) =
      tensor.entry (row :: rest) := by
  simp only [Tensor.writeRows, List.idxOf?_eq_none_iff.mpr hrow]

section Evaluate

variable {entries : List (FlowEvaluation Θ ω)} {trainer : FlowTrainer Θ ω}
  {update : FlowUpdate Θ ω} {reference : FrozenReference}
  {indices : List ℕ} {count horizon : ℕ}
  {result : FlowGrpoSetting.FlowLogRatio}

def rowEntry (trainer : FlowTrainer Θ ω) (update : FlowUpdate Θ ω)
    (result : FlowGrpoSetting.FlowLogRatio) (row count horizon i : ℕ) :
    FlowEvaluation Θ ω where
  update := trainer.updates
  epoch := trainer.worker.activeUpdateEpoch
  optimizerSteps := update.optimizerSteps
  data := update.data
  oldParameters := update.oldParameters
  parameters := trainer.parameters
  row := row
  transitions := count
  horizon := horizon
  reference t h := result.replayOld.entry [i, t, h]
  logRatio t := result.logRatio.entry [i, t]

theorem mem_evaluations
    (hevaluated : Evaluated setting update.data indices trainer.parameters
      reference count horizon result) {entry : FlowEvaluation Θ ω} :
    entry ∈ FlowGrpoSetting.evaluations trainer update result ↔
      ∃ i < indices.length, rowEntry trainer update result
        (indices.getD i 0) count horizon i = entry := by
  have hshape := hevaluated.shape
  simp only [FlowGrpoSetting.evaluations, List.mem_map, List.mem_range,
    hevaluated.positions, Tensor.steps, hshape]
  rfl

/-- The log ratio against references that are the likelihoods under the old
parameters. -/
theorem logRatio_eq (hi : i < indices.length)
    (hevaluated : Evaluated setting update.data indices trainer.parameters
      reference count horizon result) (hreference : ∀ t < count, ∀ h < horizon,
      result.replayOld.entry [i, t, h] = rowLogProbs setting
        update.oldParameters update.data count (indices.getD i 0) t h)
    (ht : t < count) :
    result.logRatio.entry [i, t] = maskedDifference horizon
      (rowLogProbs setting update.oldParameters update.data count
        (indices.getD i 0) t)
      (rowLogProbs setting trainer.parameters update.data count
        (indices.getD i 0) t)
      (actionMask (update.data.row (indices.getD i 0))) := by
  rw [hevaluated.logRatio i hi t]
  unfold maskedDifference
  congr 1
  apply Finset.sum_congr rfl
  intro h hh
  have hold := hreference t ht h (Finset.mem_range.mp hh)
  simp only [hold]

theorem maskedDifference_self (horizon : ℕ) (old mask : ℕ → ℚ) :
    maskedDifference horizon old old mask = 0 := by
  simp [maskedDifference]

theorem law_of_read (hinv : UpdateInv setting entries trainer update reference)
    (hbounded : ∀ r ∈ indices, r < update.data.length)
    (hevaluated : Evaluated setting update.data indices trainer.parameters
      reference count horizon result)
    (hepoch : 0 < trainer.worker.activeUpdateEpoch)
    (hreplay : result.replayOld =
      reference.replayOldLogProbs.selectRows indices) (hi : i < indices.length) :
    FlowEvaluation.Law setting entries (rowEntry trainer update result
      (indices.getD i 0) count horizon i) := by
  have hrow : indices.getD i 0 < update.data.length := by
    apply hbounded
    rw [List.getD_eq_getElem _ _ hi]
    exact List.getElem_mem hi
  have hread : ∀ t h, result.replayOld.entry [i, t, h] =
      reference.replayOldLogProbs.entry [indices.getD i 0, t, h] := by
    intro t h
    rw [hreplay]
    rfl
  obtain ⟨others, positions, hkept⟩ :=
    hinv.kept _ hrow (hinv.later hepoch _ hrow)
  have hsame := hkept.shape.symm.trans hevaluated.frozen
  injection hsame with hcount hrest
  injection hrest with hhorizon
  subst hcount hhorizon
  have hreference : ∀ t < others, ∀ h < positions,
      result.replayOld.entry [i, t, h] = rowLogProbs setting
        update.oldParameters update.data others (indices.getD i 0) t h := by
    intro t ht h hh
    rw [hread, hkept.value t ht h hh]
  constructor
  · exact hrow
  · exact hreference
  · intro hmask t ht
    exact (logRatio_eq hi hevaluated hreference ht).trans
      (maskedDifference_eq _ _ _ hmask)
  · intro hzero
    exact absurd hzero hepoch.ne'
  · intro _
    obtain ⟨source, hsource, hupdate, hfirst, hdata, hnumber, hvalue⟩ :=
      hkept.source
    refine ⟨source, hsource, hupdate, hfirst, hdata, hnumber, ?_⟩
    intro t ht h hh
    exact (hread t h).trans (hvalue t ht h hh)

theorem law_of_written (hbounded : ∀ r ∈ indices, r < update.data.length)
    (hevaluated : Evaluated setting update.data indices trainer.parameters
      reference count horizon result)
    (hepoch : trainer.worker.activeUpdateEpoch = 0)
    (hsteps : update.optimizerSteps = 0)
    (hparameters : trainer.parameters = update.oldParameters)
    (hcurrent : ∀ i < indices.length, ∀ t h,
      result.replayOld.entry [i, t, h] = rowLogProbs setting
        trainer.parameters update.data count (indices.getD i 0) t h)
    (hi : i < indices.length) :
    FlowEvaluation.Law setting entries (rowEntry trainer update result
      (indices.getD i 0) count horizon i) := by
  have hreference : ∀ t < count, ∀ h < horizon,
      result.replayOld.entry [i, t, h] = rowLogProbs setting
        update.oldParameters update.data count (indices.getD i 0) t h := by
    intro t _ h _
    rw [hcurrent i hi, hparameters]
  constructor
  · apply hbounded
    rw [List.getD_eq_getElem _ _ hi]
    exact List.getElem_mem hi
  · exact hreference
  · intro hmask t ht
    exact (logRatio_eq hi hevaluated hreference ht).trans
      (maskedDifference_eq _ _ _ hmask)
  · intro _
    refine ⟨hsteps, ?_⟩
    intro t ht
    have hvalue := logRatio_eq hi hevaluated hreference ht
    rw [hparameters, maskedDifference_self] at hvalue
    exact hvalue
  · intro hlater
    exact absurd hepoch hlater

open FlowGrpoSetting (evaluations)
open FlowGrpoSetting.FrozenReference (freeze)

theorem kept_freeze (hinv : UpdateInv setting entries trainer update reference)
    (hevaluated : Evaluated setting update.data indices trainer.parameters
      reference count horizon result)
    (hepoch : trainer.worker.activeUpdateEpoch = 0)
    (hparameters : trainer.parameters = update.oldParameters)
    (hcurrent : ∀ i < indices.length, ∀ t h,
      result.replayOld.entry [i, t, h] = rowLogProbs setting
        trainer.parameters update.data count (indices.getD i 0) t h)
    (errors : List ℚ) (hrow : row < update.data.length)
    (hinitialized : (freeze reference indices result.replayOld
      errors).initialized.entry [row] = true) :
    ∃ transitions positions, Kept setting
      (entries ++ evaluations trainer update result) trainer.updates
      update.data update.oldParameters
      (freeze reference indices result.replayOld errors) row transitions
      positions := by
  by_cases hmem : row ∈ indices
  · obtain ⟨i, hi, hnumber, hwritten⟩ := writeRows_of_mem hmem
      result.replayOld reference.replayOldLogProbs
    have hentry : rowEntry trainer update result (indices.getD i 0) count
        horizon i ∈ entries ++ evaluations trainer update result :=
      List.mem_append_right _ ((mem_evaluations hevaluated).mpr ⟨i, hi, rfl⟩)
    refine ⟨count, horizon, hevaluated.frozen, ?_, _, hentry, rfl, hepoch,
      rfl, hnumber, ?_⟩
    · intro t _ h _
      rw [← hparameters, ← hnumber, ← hcurrent i hi, hnumber]
      exact hwritten [t, h]
    · intro t _ h _
      exact hwritten [t, h]
  · have hsame : ∀ rest, (freeze reference indices result.replayOld
        errors).replayOldLogProbs.entry (row :: rest) =
          reference.replayOldLogProbs.entry (row :: rest) :=
      writeRows_of_notMem hmem _ _
    have hbefore : reference.initialized.entry [row] = true := by
      have hfill : (freeze reference indices result.replayOld
          errors).initialized.entry [row] = if row ∈ indices then true
            else reference.initialized.entry [row] := rfl
      rwa [hfill, if_neg hmem] at hinitialized
    obtain ⟨transitions, positions, hkept⟩ := hinv.kept row hrow hbefore
    obtain ⟨hshape, hvalue, source, hsource, hupdate, hfirst, hdata, hnumber,
      hequal⟩ := hkept.mono (evaluations trainer update result)
    refine ⟨transitions, positions, hshape, ?_, source, hsource, hupdate,
      hfirst, hdata, hnumber, ?_⟩
    · intro t ht h hh
      exact (hsame [t, h]).trans (hvalue t ht h hh)
    · intro t ht h hh
      exact (hsame [t, h]).trans (hequal t ht h hh)

/-- The trainer after the first micro-batch of those pending. -/
def afterEvaluation (trainer : FlowTrainer Θ ω) (update : FlowUpdate Θ ω)
    (worker : FlowGrpoWorker) (pending : List (List (DataProto ω))) :
    FlowTrainer Θ ω :=
  { trainer with
    worker
    update := some { update with pending } }

variable {microBatch : DataProto ω} {microBatches : List (DataProto ω)}
  {rest : List (List (DataProto ω))} {worker : FlowGrpoWorker}

theorem UpdateInv.read (hinv : UpdateInv setting entries trainer update
      reference)
    (hpending : update.pending = (microBatch :: microBatches) :: rest)
    (hepoch : 0 < trainer.worker.activeUpdateEpoch)
    (more : List (FlowEvaluation Θ ω)) :
    UpdateInv setting (entries ++ more) (afterEvaluation trainer update
        { trainer.worker with frozenReferenceValidated := true }
        (microBatches :: rest))
      { update with pending := microBatches :: rest } reference where
  found := hinv.found
  numbered := hinv.numbered
  nonempty := hinv.nonempty
  epoch := hinv.epoch
  micros := by
    intro others hothers other hother
    rcases List.mem_cons.mp hothers with rfl | hothers
    · exact hinv.micros _ (by rw [hpending]; exact List.mem_cons_self) other
        (List.mem_cons_of_mem _ hother)
    · exact hinv.micros others
        (by rw [hpending]; exact List.mem_cons_of_mem _ hothers) other hother
  kept := by
    intro r hr hinitialized
    obtain ⟨transitions, positions, hkept⟩ := hinv.kept r hr hinitialized
    exact ⟨transitions, positions, hkept.mono more⟩
  first := fun hzero => absurd hzero hepoch.ne'
  later := hinv.later

theorem UpdateInv.written
    (hinv : UpdateInv setting entries trainer update reference)
    (hpending : update.pending = [microBatch :: microBatches])
    (hmicros : ∀ rows, MicroRows update.data microBatch rows → rows = indices)
    (hevaluated : Evaluated setting update.data indices trainer.parameters
      reference count horizon result)
    (hepoch : trainer.worker.activeUpdateEpoch = 0)
    (hsteps : update.optimizerSteps = 0)
    (hparameters : trainer.parameters = update.oldParameters)
    (hcover : ∀ r < update.data.length,
      reference.initialized.entry [r] = true ∨
        ∃ other ∈ microBatch :: microBatches, ∃ rows,
          MicroRows update.data other rows ∧ r ∈ rows)
    (hcurrent : ∀ i < indices.length, ∀ t h,
      result.replayOld.entry [i, t, h] = rowLogProbs setting
        trainer.parameters update.data count (indices.getD i 0) t h)
    (errors : List ℚ) :
    UpdateInv setting (entries ++ evaluations trainer update result)
      (afterEvaluation trainer update
        { trainer.worker with
          reference := some
            (freeze reference indices result.replayOld errors) }
        [microBatches])
      { update with pending := [microBatches] }
      (freeze reference indices result.replayOld errors) where
  found := rfl
  numbered := hinv.numbered
  nonempty := hinv.nonempty
  epoch := hinv.epoch
  micros := by
    intro others hothers other hother
    rw [List.mem_singleton] at hothers
    subst hothers
    exact hinv.micros _ (by rw [hpending]; exact List.mem_cons_self) other
      (List.mem_cons_of_mem _ hother)
  kept := by
    intro r hr hinitialized
    exact kept_freeze hinv hevaluated hepoch hparameters hcurrent errors hr
      hinitialized
  first := by
    intro _
    refine .running microBatches hsteps hparameters rfl ?_
    intro r hr
    have hfill : (freeze reference indices result.replayOld
        errors).initialized.entry [r] = if r ∈ indices then true
          else reference.initialized.entry [r] := rfl
    rw [hfill]
    by_cases hmem : r ∈ indices
    · exact .inl (if_pos hmem)
    · rw [if_neg hmem]
      rcases hcover r hr with hinitialized | ⟨other, hother, rows, hrows, hin⟩
      · exact .inl hinitialized
      · rcases List.mem_cons.mp hother with rfl | hother
        · rw [hmicros rows hrows] at hin
          exact absurd hin hmem
        · exact .inr ⟨other, hother, rows, hrows, hin⟩
  later := fun hlater => absurd hepoch hlater.ne'

theorem UpdateInv.evaluate
    (hinv : UpdateInv setting entries trainer update reference)
    (hpending : update.pending = (microBatch :: microBatches) :: rest)
    (hresult : setting.computePolicyLogRatio trainer.parameters
      trainer.worker microBatch = .ok (worker, result)) :
    (∀ entry ∈ evaluations trainer update result,
      FlowEvaluation.Law setting entries entry) ∧
      ∃ next, UpdateInv setting (entries ++ evaluations trainer update result)
        (afterEvaluation trainer update worker (microBatches :: rest))
        { update with pending := microBatches :: rest } next := by
  have hfirst : microBatch :: microBatches ∈ update.pending := by
    rw [hpending]
    exact List.mem_cons_self
  obtain ⟨indices, hmicro⟩ :=
    hinv.micros _ hfirst microBatch List.mem_cons_self
  obtain ⟨found, count, horizon, hfound, hevaluated, hreplayed⟩ :=
    computePolicyLogRatio_eq_ok hmicro hinv.numbered hresult
  rw [hinv.found, Option.some.injEq] at hfound
  subst hfound
  have hmicros : ∀ rows, MicroRows update.data microBatch rows →
      rows = indices := by
    intro rows hrows
    obtain ⟨_, _, _, _, hother, _⟩ :=
      computePolicyLogRatio_eq_ok hrows hinv.numbered hresult
    exact hother.positions.symm.trans hevaluated.positions
  cases hreplayed with
  | read hepoch hreplay =>
    constructor
    · intro entry hentry
      obtain ⟨i, hi, rfl⟩ := (mem_evaluations hevaluated).mp hentry
      exact law_of_read hinv hmicro.bounded hevaluated hepoch hreplay hi
    · exact ⟨reference, hinv.read hpending hepoch _⟩
  | written current errors hepoch hreplay hcurrent =>
    subst hreplay
    cases hinv.first hepoch with
    | running others hsteps hparameters honly hcover =>
      have hsplit := hpending.symm.trans honly
      injection hsplit with hothers hrest
      subst hothers hrest
      constructor
      · intro entry hentry
        obtain ⟨i, hi, rfl⟩ := (mem_evaluations hevaluated).mp hentry
        exact law_of_written hmicro.bounded hevaluated hepoch hsteps
          hparameters hcurrent hi
      · exact ⟨_, hinv.written hpending hmicros hevaluated hepoch hsteps
          hparameters hcover hcurrent errors⟩
    | done hnone _ =>
      simp [hpending] at hnone

theorem UpdateInv.allInitialized
    (hinv : UpdateInv setting entries trainer update reference)
    (hpending : update.pending = [] :: rest) :
    (trainer.worker.activeUpdateEpoch = 0 → rest = []) ∧
      AllInitialized update.data reference := by
  by_cases hepoch : trainer.worker.activeUpdateEpoch = 0
  · cases hinv.first hepoch with
    | running others _ _ honly hcover =>
      have hsplit := hpending.symm.trans honly
      injection hsplit with hothers hrest
      subst hothers
      refine ⟨fun _ => hrest, ?_⟩
      intro r hr
      rcases hcover r hr with hinitialized | ⟨other, hother, _⟩
      · exact hinitialized
      · cases hother
    | done hnone _ =>
      simp [hpending] at hnone
  · have hlater : 0 < trainer.worker.activeUpdateEpoch :=
      lt_of_le_of_ne hinv.epoch (Ne.symm hepoch)
    exact ⟨fun hzero => absurd hzero hepoch, hinv.later hlater⟩

theorem UpdateInv.stepped
    (hinv : UpdateInv setting entries trainer update reference)
    (hpending : update.pending = [] :: rest) (parameters : Θ) (steps : ℕ)
    (stopped : Bool) :
    UpdateInv setting entries
      { trainer with
        parameters
        update := some { update with
          optimizerSteps := steps
          klEarlyStopTriggered := stopped
          pending := rest } }
      { update with
        optimizerSteps := steps
        klEarlyStopTriggered := stopped
        pending := rest } reference := by
  obtain ⟨hdone, hall⟩ := hinv.allInitialized hpending
  constructor
  · exact hinv.found
  · exact hinv.numbered
  · exact hinv.nonempty
  · exact hinv.epoch
  · intro others hothers
    apply hinv.micros others
    rw [hpending]
    exact List.mem_cons_of_mem _ hothers
  · exact hinv.kept
  · intro hzero
    exact .done (hdone hzero) hall
  · intro _
    exact hall

theorem UpdateInv.nextEpoch [Inhabited ω]
    (hlibrary : setting.library.Documented)
    (hconfig : setting.config.postInit = .ok ())
    (hinv : UpdateInv setting entries trainer update reference)
    (hpending : update.pending = [])
    (hpermutation : permutation.Perm (List.range update.data.length)) :
    UpdateInv setting entries
      { trainer with
        worker := { trainer.worker with
          activeUpdateEpoch := trainer.worker.activeUpdateEpoch + 1 }
        update := some { update with
          pending := setting.epochBatches update.data permutation } }
      { update with
        pending := setting.epochBatches update.data permutation }
      reference := by
  have hepoch := hinv.epoch
  obtain ⟨microBatches, hbatches, hmicros, _⟩ :=
    epochBatches_eq hlibrary hconfig hinv.numbered hinv.nonempty hpermutation
  have hall : AllInitialized update.data reference := by
    rcases hepoch.lt_or_eq with hlater | hzero
    · exact hinv.later hlater
    · cases hinv.first hzero.symm with
      | running others _ _ honly _ =>
        simp [hpending] at honly
      | done _ hall => exact hall
  constructor
  · exact hinv.found
  · exact hinv.numbered
  · exact hinv.nonempty
  · show 0 ≤ trainer.worker.activeUpdateEpoch + 1
    omega
  · intro others hothers
    rw [hbatches, List.mem_singleton] at hothers
    rw [hothers]
    exact hmicros
  · exact hinv.kept
  · intro hzero
    have hnext : trainer.worker.activeUpdateEpoch + 1 = 0 := hzero
    omega
  · intro _
    exact hall

end Evaluate

end References

/-! ## Whole runs -/

section Runs

structure RunInv (setting : FlowGrpoSetting Θ ω)
    (entries : List (FlowEvaluation Θ ω)) (trainer : FlowTrainer Θ ω) :
    Prop where
  lawful : Lawful (FlowEvaluation.Law setting) entries
  references : ∀ update, trainer.update = some update →
    ∃ reference, UpdateInv setting entries trainer update reference

theorem RunInv.ended (hinv : RunInv setting entries trainer)
    (hended : next.update = none) :
    RunInv setting (entries ++ []) next where
  lawful := by
    rw [List.append_nil]
    exact hinv.lawful
  references := by
    intro update hupdate
    simp [hended] at hupdate

theorem RunInv.going (hinv : RunInv setting entries trainer)
    (hupdate : next.update = some update)
    (hnext : UpdateInv setting entries next update reference) :
    RunInv setting (entries ++ []) next where
  lawful := by
    rw [List.append_nil]
    exact hinv.lawful
  references := by
    intro other hother
    rw [hupdate, Option.some.injEq] at hother
    subst hother
    rw [List.append_nil]
    exact ⟨reference, hnext⟩

variable [Inhabited ω]

theorem RunInv.stepUpdate (hlibrary : setting.library.Documented)
    (hconfig : setting.config.postInit = .ok ())
    (hinv : RunInv setting entries trainer)
    (hupdate : trainer.update = some update)
    (hstep : setting.stepUpdate trainer update label = some (output, next)) :
    RunInv setting (entries ++ output) next := by
  obtain ⟨reference, hcurrent⟩ := hinv.references update hupdate
  cases label with
  | evaluate =>
    simp only [FlowGrpoSetting.stepUpdate] at hstep
    split at hstep
    · next microBatch microBatches rest hpending =>
      split at hstep
      · cases hstep
        exact hinv.ended rfl
      · next worker result hresult =>
        cases hstep
        obtain ⟨hlaws, reference, hafter⟩ := hcurrent.evaluate hpending hresult
        constructor
        · apply hinv.lawful.append
          intro left entry hentry
          exact (hlaws entry hentry).mono left
        · intro other hother
          cases hother
          exact ⟨reference, hafter⟩
    · cases hstep
  | optimizerStep parameters =>
    simp only [FlowGrpoSetting.stepUpdate] at hstep
    split at hstep
    · next rest hpending =>
      cases hstep
      exact hinv.going rfl (hcurrent.stepped hpending parameters
        (update.optimizerSteps + 1) update.klEarlyStopTriggered)
    · cases hstep
  | skipStep =>
    simp only [FlowGrpoSetting.stepUpdate] at hstep
    split at hstep
    · next rest hpending =>
      split at hstep
      · cases hstep
        exact hinv.going rfl (hcurrent.stepped hpending trainer.parameters
          update.optimizerSteps true)
      · cases hstep
    · cases hstep
  | nextEpoch permutation =>
    simp only [FlowGrpoSetting.stepUpdate] at hstep
    split at hstep
    · next hguard =>
      cases hstep
      exact hinv.going rfl
        (hcurrent.nextEpoch hlibrary hconfig hguard.1 hguard.2.2.2)
    · cases hstep
  | endUpdate =>
    simp only [FlowGrpoSetting.stepUpdate] at hstep
    split at hstep
    · cases hstep
      exact hinv.ended rfl
    · cases hstep
  | startUpdate | interrupt | load => cases hstep

theorem RunInv.step (hlibrary : setting.library.Documented)
    (hconfig : setting.config.postInit = .ok ())
    (hinv : RunInv setting entries trainer)
    (hstep : setting.updates.step trainer label = some (output, next)) :
    RunInv setting (entries ++ output) next := by
  cases label with
  | startUpdate data uninitialized permutation =>
    simp only [FlowGrpoSetting.updates] at hstep
    split at hstep
    · cases hstep
      exact hinv.ended rfl
    · next worker flat hprepared =>
      split at hstep
      · cases hstep
        exact hinv.ended rfl
      · next hbegun =>
        rw [FlowGrpoSetting.startEpochs] at hstep
        split at hstep
        · next hpermutation =>
          cases hstep
          obtain ⟨reference, hstart⟩ := UpdateInv.start hlibrary hconfig
            entries hprepared hbegun hpermutation
          exact hinv.going rfl hstart
        · cases hstep
  | interrupt | load parameters =>
    cases hstep
    exact hinv.ended rfl
  | evaluate | optimizerStep parameters | skipStep | nextEpoch permutation
  | endUpdate =>
    cases hupdate : trainer.update with
    | none => simp [FlowGrpoSetting.updates, hupdate] at hstep
    | some update =>
      simp only [FlowGrpoSetting.updates, hupdate] at hstep
      exact hinv.stepUpdate hlibrary hconfig hupdate hstep

/-- Every log ratio compares a row with the policy that started the update,
through a reference of that row from the first epoch of the update.  All
references are there before the first optimizer step, and none changes. -/
theorem references_are_old_policy (hlibrary : setting.library.Documented)
    (hconfig : setting.config.postInit = .ok ())
    {start final : FlowTrainer Θ ω} {events : List (Event (FlowTrainer Θ ω)
      (FlowLabel Θ ω) (List (FlowEvaluation Θ ω)))}
    (hrun : Run setting.updates start events final)
    (hstart : start.update = none) :
    Lawful (FlowEvaluation.Law setting) (log events) ∧
      ∀ update, final.update = some update →
        ∃ reference, final.worker.reference = some reference ∧
          (0 < update.optimizerSteps → AllInitialized update.data reference) ∧
          ∀ r < update.data.length, reference.initialized.entry [r] = true →
              ∃ count horizon, Kept setting (log events) final.updates
                update.data update.oldParameters reference r count
                horizon := by
  have hinv : RunInv setting (log events) final := by
    apply hrun.log_invariant (fun _ _ => True) (RunInv setting)
    · intro entries trainer label output next htrainer _ hstep
      exact htrainer.step hlibrary hconfig hstep
    · intro _ _
      trivial
    · constructor
      · exact lawful_nil
      · intro update hupdate
        simp [hstart] at hupdate
  refine ⟨hinv.lawful, ?_⟩
  intro update hupdate
  obtain ⟨reference, hreference⟩ := hinv.references update hupdate
  refine ⟨reference, hreference.found, ?_, hreference.kept⟩
  intro hsteps
  rcases hreference.epoch.lt_or_eq with hlater | hzero
  · exact hreference.later hlater
  · cases hreference.first hzero.symm with
    | running _ hnone _ _ _ => omega
    | done _ hall => exact hall

end Runs

/-! ## Two epochs over two chunks -/

def flowConfig : FlowGrpoActorConfig where
  policy :=
    { variant := .flowGrpo
      samples := 1
      clipCoef := 1 / 5
      spoClipCoef := 1 / 20
      samples_pos := Nat.one_pos
      clip_pos := vanillaConfig.clip_pos
      clip_lt_one := vanillaConfig.clip_lt_one
      spo_pos := by decide +kernel }
  criticEnabled := false
  miniBatchSize := 2
  microBatchSize := 1
  updateEpochs := 2
  vfCoef := 0
  normalizeAdvantages := false
  valueOnlyUpdates := 0
  targetKl := none
  klEarlyStopMode := .postEpoch
  fullLogicalBatchGradientAccumulation := true
  fpoVariant := .vanilla
  trustRegionMode := .ppo
  trainTransitionFraction := 99 / 100
  advantageClipMax := 5

def scaledLatents : FlowGrpoSetting ℚ Unit where
  config := flowConfig
  worldSize := 1
  library := rowLibrary Unit
  flowGrpoLogProbs parameters input t h := parameters *
      (input.latents.map fun latents => latents.entry [t, h, 0]).getD 0

def twoChunks : DataProto Unit where
  batch := List.toAList
    [⟨"action.full_action", ⟨[2, 1, 1], fun _ => 0⟩⟩,
      ⟨"info.valids", .vector 2 fun _ => 1⟩,
      ⟨"info.action_valids", .matrix 2 1 fun _ _ => 1⟩,
      ⟨"action.flow_grpo.latents",
        ⟨[2, 2, 1, 1], fun index => index.getD 0 0 + 1⟩⟩,
      ⟨"action.flow_grpo.old_log_probs", .cube 2 1 1 fun _ _ _ => 7⟩,
      ⟨"action.flow_grpo.sigmas", .matrix 2 1 fun _ _ => 1⟩,
      ⟨"action.flow_grpo.deltas", .matrix 2 1 fun _ _ => 1⟩,
      ⟨"fpo.advantages", .vector 2 fun _ => 1⟩,
      ⟨"fpo.loss_weights", .vector 2 fun _ => 1⟩]
  nonTensorBatch := ∅
  metaInfo := List.toAList
    [⟨"fpo_preflattened_valid_chunks", .flag true⟩,
      ⟨"advantage_estimator", .text "grpo_outcome"⟩]

def idleTrainer : FlowTrainer ℚ Unit where
  worker := ⟨none, false, false, -1⟩
  parameters := 3
  update := none
  updates := 0

def twoEpochs : List (FlowLabel ℚ Unit) :=
  [.startUpdate twoChunks (fun _ => 100) [1, 0], .evaluate, .evaluate,
    .optimizerStep 5, .nextEpoch [0, 1], .evaluate, .evaluate]

theorem twoEpochs_exec :
    (scaledLatents.updates.exec idleTrainer twoEpochs).isSome := by
  decide +kernel

def twoEpochsRun : List (Event (FlowTrainer ℚ Unit) (FlowLabel ℚ Unit)
    (List (FlowEvaluation ℚ Unit))) × FlowTrainer ℚ Unit :=
  (scaledLatents.updates.exec idleTrainer twoEpochs).get twoEpochs_exec

theorem references_are_old_policy_of_two_epochs :
    (Lawful (FlowEvaluation.Law scaledLatents) (log twoEpochsRun.1) ∧
      ∀ update, twoEpochsRun.2.update = some update →
        ∃ reference, twoEpochsRun.2.worker.reference = some reference ∧
          (0 < update.optimizerSteps →
            AllInitialized update.data reference) ∧
          ∀ r < update.data.length,
            reference.initialized.entry [r] = true →
              ∃ count horizon, Kept scaledLatents (log twoEpochsRun.1)
                twoEpochsRun.2.updates update.data update.oldParameters
                reference r count horizon) ∧
      ((log twoEpochsRun.1).map fun entry => (entry.row, entry.logRatio 0)) =
        [(1, 0), (0, 0), (0, 2), (1, 4)] := by
  constructor
  · apply references_are_old_policy RowLibrary.rowLibrary_documented
    · decide +kernel
    · exact Machine.run_of_exec (Option.some_get twoEpochs_exec).symm
    · rfl
  · decide +kernel

end VerlVla
