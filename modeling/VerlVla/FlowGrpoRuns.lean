import Mathlib.Data.List.GetD
import VerlVla.FlowGrpoWorker
import VerlVla.TransitionLog

/-!
# Updates of a Flow-GRPO worker

A long-lived worker goes through one update after another.  An update may stop
anywhere with an error, and what an optimizer step does to the parameters is
decided outside.  Every evaluation of a row leaves an entry with the references
it used, and a reference that was written keeps the likelihood under the
parameters that started the update.
-/

namespace VerlVla

open Transition

variable {Θ ω : Type}

structure FlowUpdate (Θ ω : Type) where
  data : DataProto ω
  oldParameters : Θ
  optimizerSteps : ℕ
  klEarlyStopTriggered : Bool
  /-- The micro-batches of the minibatches that the epoch still has. -/
  pending : List (List (DataProto ω))

/-- The worker, its policy and the update it is in, with the number of updates
begun so far. -/
structure FlowTrainer (Θ ω : Type) where
  worker : FlowGrpoWorker
  parameters : Θ
  update : Option (FlowUpdate Θ ω)
  updates : ℕ

inductive FlowLabel (Θ ω : Type)
  | startUpdate (data : DataProto ω) (uninitialized : List ℕ → ℚ)
      (permutation : List ℕ)
  | evaluate
  | optimizerStep (parameters : Θ)
  | skipStep
  | nextEpoch (permutation : List ℕ)
  | endUpdate
  | interrupt
  | load (parameters : Θ)

/-- The log ratios of one row, with what they were computed from. -/
structure FlowEvaluation (Θ ω : Type) where
  update : ℕ
  epoch : ℤ
  optimizerSteps : ℕ
  data : DataProto ω
  oldParameters : Θ
  parameters : Θ
  row : ℕ
  transitions : ℕ
  horizon : ℕ
  reference : ℕ → ℕ → ℚ
  logRatio : ℕ → ℚ

namespace FlowGrpoSetting

variable (setting : FlowGrpoSetting Θ ω)

def localMiniBatchSize (rows : ℕ) : ℕ :=
  if setting.config.fullLogicalBatchGradientAccumulation then rows
  else setting.config.miniBatchSize / setting.worldSize

def split (size : ℕ) (data : DataProto ω) : List (DataProto ω) :=
  (splitRows size (List.range data.length)).map (setting.library.selectIdxs data)

def epochBatches (data : DataProto ω) (permutation : List ℕ) :
    List (List (DataProto ω)) :=
  let size := setting.localMiniBatchSize data.length
  (chunkStarts data.length size).map fun start =>
    setting.split setting.config.microBatchSize
      (setting.library.selectIdxs data
        (sliceRows (start, start + size) permutation))

def beginUpdate (flat : DataProto ω) : Except (FlowGrpoError ω) Unit := do
  require (setting.localMiniBatchSize flat.length ≤ flat.length)
    (.tooFewSlots (setting.localMiniBatchSize flat.length) flat.length)
  require (0 < setting.localMiniBatchSize flat.length) .noSlots

/-- The entries of a micro-batch, one for each of its rows. -/
def evaluations (trainer : FlowTrainer Θ ω) (update : FlowUpdate Θ ω)
    (result : FlowLogRatio) : List (FlowEvaluation Θ ω) :=
  (List.range result.indices.length).map fun i =>
    { update := trainer.updates
      epoch := trainer.worker.activeUpdateEpoch
      optimizerSteps := update.optimizerSteps
      data := update.data
      oldParameters := update.oldParameters
      parameters := trainer.parameters
      row := result.indices.getD i 0
      transitions := result.replayOld.steps
      horizon := result.replayOld.shape.getD 2 0
      reference := fun t h => result.replayOld.entry [i, t, h]
      logRatio := fun t => result.logRatio.entry [i, t] }

def stepUpdate (trainer : FlowTrainer Θ ω) (update : FlowUpdate Θ ω) :
    FlowLabel Θ ω → Option (List (FlowEvaluation Θ ω) × FlowTrainer Θ ω)
  | .evaluate =>
    match update.pending with
    | (microBatch :: microBatches) :: rest =>
      match setting.computePolicyLogRatio trainer.parameters trainer.worker
          microBatch with
      | .error _ => some ([], { trainer with update := none })
      | .ok (worker, result) =>
        some (evaluations trainer update result, { trainer with
            worker
            update := some
              { update with pending := microBatches :: rest } })
    | _ => none
  | .optimizerStep parameters =>
    match update.pending with
    | [] :: rest => some ([], { trainer with
        parameters
        update := some { update with
          optimizerSteps := update.optimizerSteps + 1
          pending := rest } })
    | _ => none
  | .skipStep =>
    match update.pending with
    | [] :: rest =>
      if setting.config.klEarlyStopMode = .preOptimizer ∧
          0 < trainer.worker.activeUpdateEpoch ∧
          setting.config.targetKl.isSome then
        some ([], { trainer with update := some { update with
          klEarlyStopTriggered := true
          pending := rest } })
      else none
    | _ => none
  | .nextEpoch permutation =>
    if update.pending = [] ∧ update.klEarlyStopTriggered = false ∧
        trainer.worker.activeUpdateEpoch + 1 < setting.config.updateEpochs ∧
        permutation.Perm (List.range update.data.length) then
      some ([], { trainer with
        worker := { trainer.worker with
          activeUpdateEpoch := trainer.worker.activeUpdateEpoch + 1 }
        update := some { update with
          pending := setting.epochBatches update.data permutation } })
    else none
  | .endUpdate =>
    if update.pending = [] then
      some ([], { trainer with
        worker := { trainer.worker with activeUpdateEpoch := -1 }
        update := none })
    else none
  | _ => none

def startEpochs (permutation : List ℕ) (worker : FlowGrpoWorker)
    (flat : DataProto ω) (trainer : FlowTrainer Θ ω) :
    Option (List (FlowEvaluation Θ ω) × FlowTrainer Θ ω) :=
  if permutation.Perm (List.range flat.length) then
    some ([], { trainer with
      worker := { worker with activeUpdateEpoch := 0 }
      update := some
        { data := flat
          oldParameters := trainer.parameters
          optimizerSteps := 0
          klEarlyStopTriggered := false
          pending := setting.epochBatches flat permutation }
      updates := trainer.updates + 1 })
  else none

/-- A failed evaluation leaves a worker that the next update prepares anew. -/
def updates : Machine (FlowTrainer Θ ω) (FlowLabel Θ ω)
    (List (FlowEvaluation Θ ω)) where
  step trainer
    | .startUpdate data uninitialized permutation =>
      match setting.prepareTrainingBatch uninitialized data trainer.worker with
      | .error _ => some ([], { trainer with update := none })
      | .ok (worker, flat) =>
        match setting.beginUpdate flat with
        | .error _ => some ([], { trainer with worker, update := none })
        | .ok () => setting.startEpochs permutation worker flat trainer
    | .interrupt => some ([], { trainer with update := none })
    | .load parameters =>
      some ([], { trainer with parameters, update := none })
    | label =>
      match trainer.update with
      | none => none
      | some update => setting.stepUpdate trainer update label

end FlowGrpoSetting

/-! ## Rows of micro-batches -/

structure MicroRows (data microBatch : DataProto ω) (indices : List ℕ) :
    Prop where
  shapes : ∀ key part, microBatch.batch.lookup key = some part →
    ∃ tensor, data.batch.lookup key = some tensor ∧
      part.shape = indices.length :: tensor.shape.tail
  rows : ∀ i < indices.length, microBatch.row i = data.row (indices.getD i 0)
  bounded : ∀ r ∈ indices, r < data.length

def Numbered (data : DataProto ω) : Prop :=
  data.batch.lookup "flow_grpo.reference_index" =
    some (.vector data.length fun i => (i : ℚ))

theorem DataProto.row_tensors (data : DataProto ω) (i : ℕ) (key : String) :
    (data.row i).tensors key = (data.batch.lookup key).map (·.row i) :=
  rfl

namespace MicroRows

theorem select [Inhabited ω] {library : TrainingLibrary ω}
    (hlibrary : library.Documented) {data : DataProto ω}
    {outer inner : List ℕ} (houter : ∀ r ∈ outer, r < data.length)
    (hinner : ∀ j ∈ inner, j < outer.length) :
    MicroRows data (library.selectIdxs (library.selectIdxs data outer) inner)
      (inner.map fun j => outer.getD j 0) where
  shapes := by
    intro key part hpart
    rw [hlibrary.selectIdxs_batch, hlibrary.selectIdxs_batch,
      Option.map_map, Option.map_eq_some_iff] at hpart
    obtain ⟨tensor, htensor, rfl⟩ := hpart
    refine ⟨tensor, htensor, ?_⟩
    rw [List.length_map]
    rfl
  rows := by
    intro i hi
    rw [List.length_map] at hi
    rw [row_selectIdxs hlibrary, row_selectIdxs hlibrary]
    have hmap : i < (inner.map fun j => outer.getD j 0).length := by
      rwa [List.length_map]
    congr 1
    rw [List.getD_eq_getElem inner 0 hi, List.getD_eq_getElem _ 0 hmap,
      List.getElem_map]
  bounded := by
    intro r hr
    obtain ⟨j, hj, rfl⟩ := List.mem_map.mp hr
    have hlt := hinner j hj
    apply houter
    rw [List.getD_eq_getElem _ _ hlt]
    exact List.getElem_mem hlt

theorem entry (hmicro : MicroRows data microBatch indices)
    (hpart : microBatch.batch.lookup key = some part) (hi : i < indices.length) :
    (data.row (indices.getD i 0)).tensors key = some (part.row i) := by
  rw [← hmicro.rows i hi, DataProto.row_tensors, hpart]
  rfl

theorem part_rows (hmicro : MicroRows data microBatch indices)
    (hpart : microBatch.batch.lookup key = some part) :
    part.rows = indices.length := by
  obtain ⟨tensor, _, hshape⟩ := hmicro.shapes key part hpart
  rw [Tensor.rows, hshape]
  rfl

theorem truncate_natCast (n : ℕ) : (truncate (n : ℚ)).toNat = n := by
  simp [truncate]

theorem numbers (hmicro : MicroRows data microBatch indices)
    (hnumbered : Numbered data)
    (hpart : microBatch.batch.lookup "flow_grpo.reference_index" = some part) :
    ((List.range part.rows).map fun i =>
      (truncate (part.entry [i])).toNat) = indices := by
  rw [hmicro.part_rows hpart]
  apply List.ext_getElem
  · simp
  · intro i _ hi
    have hentry := hmicro.entry hpart hi
    have hnumber : (data.row (indices.getD i 0)).tensors
        "flow_grpo.reference_index" = some (Tensor.row (.vector data.length
          fun i => (i : ℚ)) (indices.getD i 0)) := by
      rw [DataProto.row_tensors, hnumbered]
      rfl
    rw [hnumber, Option.some.injEq] at hentry
    have hvalue := congrArg (fun tensor => tensor.entry []) hentry
    have hpartValue : part.entry [i] = (indices.getD i 0 : ℚ) := hvalue.symm
    rw [List.getElem_map, List.getElem_range, hpartValue, truncate_natCast,
      List.getD_eq_getElem _ _ hi]

end MicroRows

/-! ## What an evaluation computes -/

section Evaluation

variable {setting : FlowGrpoSetting Θ ω}

def actionMask (row : DataProto.Row ω) (position : ℕ) : ℚ :=
  ((row.tensors "info.action_valids").map fun tensor =>
    tensor.entry [position]).getD 0

theorem maskedDifference_corrected (horizon : ℕ)
    (rollout replay current mask : ℕ → ℚ) :
    maskedDifference horizon rollout
        (fun h => current h + (rollout h - replay h)) mask =
      maskedDifference horizon replay current mask := by
  unfold maskedDifference
  congr 1
  apply Finset.sum_congr rfl
  intro h _
  ring

theorem calibrated_eq_ok
    (hratio : computeReplayCalibratedFlowGrpoLogRatio (ω := ω) rolloutOld
      replayOld current actionValids = .ok logRatio) :
    ∃ rows count horizon, replayOld.shape = [rows, count, horizon] ∧
      current.shape = [rows, count, horizon] ∧
      ∀ i t, logRatio.entry [i, t] = maskedDifference horizon
        (fun h => replayOld.entry [i, t, h])
        (fun h => current.entry [i, t, h])
        (fun h => actionValids.entry [i, h]) := by
  simp only [computeReplayCalibratedFlowGrpoLogRatio, computeFlowGrpoLogRatio,
    bind_eq_ok, require_eq_ok, exists_const] at hratio
  obtain ⟨hreplay, ⟨hcurrent, hthree⟩, _, hvalue⟩ := hratio
  cases hvalue
  obtain ⟨rows, count, horizon, hshape⟩ := List.length_eq_three.mp hthree
  refine ⟨rows, count, horizon, ?_, ?_, ?_⟩
  · rw [← hreplay, hshape]
  · exact hcurrent.symm.trans hshape
  · intro i t
    rw [← maskedDifference_corrected horizon
      (fun h => rolloutOld.entry [i, t, h])]
    simp only [Tensor.matrix, hshape]
    rfl

/-- The likelihoods of the row at an index, as the network gives them. -/
def rowLogProbs (setting : FlowGrpoSetting Θ ω) (parameters : Θ)
    (data : DataProto ω) (count row : ℕ) : ℕ → ℕ → ℚ :=
  setting.flowGrpoLogProbs parameters (flowInput count (data.row row))

/-- The parts of a result that belong to the rows at some indices. -/
structure Evaluated (setting : FlowGrpoSetting Θ ω) (data : DataProto ω)
    (indices : List ℕ) (parameters : Θ) (reference : FrozenReference)
    (count horizon : ℕ) (result : FlowGrpoSetting.FlowLogRatio) : Prop where
  positions : result.indices = indices
  shape : result.replayOld.shape = [indices.length, count, horizon]
  frozen : reference.replayOldLogProbs.shape.tail = [count, horizon]
  logRatio : ∀ i < indices.length, ∀ t,
    result.logRatio.entry [i, t] = maskedDifference horizon
      (fun h => result.replayOld.entry [i, t, h])
      (rowLogProbs setting parameters data count (indices.getD i 0) t)
      (actionMask (data.row (indices.getD i 0)))

/-- Later epochs read the references of the rows, and the first one writes
what it evaluates. -/
inductive Replayed (setting : FlowGrpoSetting Θ ω) (data : DataProto ω)
    (indices : List ℕ) (parameters : Θ) (worker : FlowGrpoWorker)
    (reference : FrozenReference) (count : ℕ)
    (result : FlowGrpoSetting.FlowLogRatio) : FlowGrpoWorker → Prop
  | read (hepoch : 0 < worker.activeUpdateEpoch)
      (hreplay : result.replayOld =
        reference.replayOldLogProbs.selectRows indices) :
      Replayed setting data indices parameters worker reference count result
        { worker with frozenReferenceValidated := true }
  | written (current : Tensor ℚ) (errors : List ℚ)
      (hepoch : worker.activeUpdateEpoch = 0)
      (hreplay : result.replayOld = current)
      (hcurrent : ∀ i < indices.length, ∀ t h, current.entry [i, t, h] =
        rowLogProbs setting parameters data count (indices.getD i 0) t h) :
      Replayed setting data indices parameters worker reference count result
        { worker with
          reference := some (FlowGrpoSetting.FrozenReference.freeze reference
            indices current errors) }

theorem MicroRows.actionMask (hmicro : MicroRows data microBatch indices)
    (hpart : microBatch.batch.lookup "info.action_valids" = some part)
    (hi : i < indices.length) :
    (fun h => part.entry [i, h]) =
      VerlVla.actionMask (data.row (indices.getD i 0)) := by
  funext h
  rw [VerlVla.actionMask, hmicro.entry hpart hi]
  rfl

theorem computePolicyLogRatio_eq_ok
    (hmicro : MicroRows data microBatch indices) (hnumbered : Numbered data)
    (hresult : setting.computePolicyLogRatio parameters worker microBatch =
      .ok (next, result)) :
    ∃ reference count horizon, worker.reference = some reference ∧
      Evaluated setting data indices parameters reference count horizon
        result ∧
      Replayed setting data indices parameters worker reference count result
        next := by
  simp only [FlowGrpoSetting.computePolicyLogRatio, bind_eq_ok,
    mapError_eq_ok, Dict.fetch_eq_ok] at hresult
  obtain ⟨sigmas, hsigmas, latents, _, count, _, oldLogProbs, _, hresult⟩ :=
    hresult
  cases hreference : worker.reference with
  | none =>
    simp [hreference] at hresult
  | some reference =>
    rw [hreference] at hresult
    simp only [bind_eq_ok, mapError_eq_ok, Dict.fetch_eq_ok] at hresult
    obtain ⟨numbers, hnumbers, actionValids, hactionValids, valids, _,
      ⟨replayed, replayOld⟩, hreplay, logRatio, hratio, hvalue⟩ := hresult
    cases hvalue
    rw [hmicro.numbers hnumbered hnumbers] at hreplay ⊢
    obtain ⟨rows, transitions, horizon, hshape, hcurrent, hentry⟩ :=
      calibrated_eq_ok hratio
    generalize herrors : FlowGrpoSetting.replayErrors _ _ _ _ = errors
      at hreplay
    generalize hvalues : FlowGrpoSetting.currentLogProbs _ _ _ _ _ _ =
      current at hreplay hcurrent hentry
    have hrows : sigmas.rows = rows ∧ count = transitions := by
      rw [← hvalues] at hcurrent
      injection hcurrent with hrows htail
      injection htail with hcount
      exact ⟨hrows, hcount⟩
    obtain ⟨rfl, rfl⟩ := hrows
    rw [hmicro.part_rows hsigmas] at hshape hcurrent
    have hnow : ∀ i < indices.length, ∀ t h, current.entry [i, t, h] =
        rowLogProbs setting parameters data count (indices.getD i 0) t h := by
      intro i hi t h
      rw [← hvalues, rowLogProbs, ← hmicro.rows i hi]
      rfl
    have hlogRatio : ∀ i < indices.length, ∀ t,
        logRatio.entry [i, t] = maskedDifference horizon
          (fun h => replayOld.entry [i, t, h])
          (rowLogProbs setting parameters data count (indices.getD i 0) t)
          (actionMask (data.row (indices.getD i 0))) := by
      intro i hi t
      rw [hentry, hmicro.actionMask hactionValids hi]
      congr 1
      funext h
      exact hnow i hi t h
    simp only [FlowGrpoSetting.replayOldLogProbs, bind_eq_ok,
      require_eq_ok] at hreplay
    obtain ⟨_, _, hreplay⟩ := hreplay
    refine ⟨reference, count, horizon, rfl, ?_⟩
    by_cases hepoch : 0 < worker.activeUpdateEpoch
    · rw [if_pos hepoch, require_bind_eq_ok] at hreplay
      cases hreplay.2
      refine ⟨⟨rfl, hshape, ?_, hlogRatio⟩, .read hepoch rfl⟩
      injection hshape
    · rw [if_neg hepoch, require_bind_eq_ok] at hreplay
      obtain ⟨hfits, hreplay⟩ := hreplay
      cases hreplay
      refine ⟨⟨rfl, hshape, ?_, hlogRatio⟩, .written _ errors ?_ rfl hnow⟩
      · rw [hcurrent] at hfits
        injection hfits with _ htail
        exact htail.symm
      · omega

end Evaluation

end VerlVla
