import Mathlib.Data.List.GetD
import Mathlib.Tactic.Ring
import VerlVla.BlockPartition
import VerlVla.Checks
import VerlVla.TransitionLog

/-!
# LIBERO reset states

Every process plans its own reset states.  The evaluation states are repeated
up to a whole number of waves and dealt out, wave by wave, to the processes
and their environments; each process goes through its share with a cursor.
-/

namespace VerlVla

open List hiding after count filter nil
namespace Libero

open Transition

/-! ## Configuration and states -/

structure ProcessGrid where
  globalProcessCount : ℕ
  envsPerProcess : ℕ
  processes_pos : 0 < globalProcessCount
  envs_pos : 0 < envsPerProcess

namespace ProcessGrid

variable (grid : ProcessGrid)

def totalEnvSlots : ℕ := grid.globalProcessCount * grid.envsPerProcess

theorem totalEnvSlots_pos : 0 < grid.totalEnvSlots :=
  Nat.mul_pos grid.processes_pos grid.envs_pos

def numBatches (count : ℕ) : ℕ :=
  (count + grid.totalEnvSlots - 1) / grid.totalEnvSlots

end ProcessGrid

structure LiberoConfig where
  taskIds : List ℤ
  numTrialsPerTask : Option ℤ
  specificResetId : Option ℤ

structure ResetState where
  taskId : ℤ
  trialId : ℕ
  resetStateId : ℕ
  deriving DecidableEq, Inhabited

/-- A reset state and its episode; a training state has the episode -1. -/
structure PlannedState where
  reset : ResetState
  evalEpisodeId : ℤ
  deriving DecidableEq, Inhabited

inductive PlannerError
  | unknownTask (taskId : ℤ)
  | specificResetId (resetId : ℤ)
  | noStates
  | emptyQueue
  deriving DecidableEq

/-! ## The valid states -/

abbrev StatesByTask : Type := List (ℤ × List ResetState)

def resetStatesFrom (taskId nextResetStateId : ℕ) : List ℕ → StatesByTask
  | [] => []
  | numTrials :: trials =>
    ((taskId : ℤ), (range numTrials).map fun trial =>
      ⟨taskId, trial, nextResetStateId + trial⟩) ::
        resetStatesFrom (taskId + 1) (nextResetStateId + numTrials) trials

/-- A Python slice up to an index, which may count from the end. -/
def sliceUpTo {α : Type} (stop : ℤ) (items : List α) : List α :=
  if 0 ≤ stop then items.take stop.toNat
  else items.take (items.length - (-stop).toNat)

def selectTasks (byTask : StatesByTask) (taskIds : List ℤ) :
    Except PlannerError StatesByTask :=
  if taskIds = [] then .ok byTask
  else taskIds.eraseDups.mapM fun taskId =>
    match byTask.lookup taskId with
    | some states => .ok (taskId, states)
    | none => .error (.unknownTask taskId)

def limitTrials (byTask : StatesByTask) : Option ℤ → StatesByTask
  | none => byTask
  | some count => byTask.map fun task => (task.1, sliceUpTo count task.2)

def selectResetId (byTask : StatesByTask) :
    Option ℤ → Except PlannerError StatesByTask
  | none => .ok byTask
  | some resetId => do
    let matched := (byTask.map fun task =>
      (task.1, task.2.filter fun state =>
        (state.resetStateId : ℤ) = resetId)).filter fun task =>
          task.2 ≠ []
    require (matched ≠ []) (.specificResetId resetId)
    .ok matched

def filterResetStatesByTask (config : LiberoConfig)
    (byTask : StatesByTask) : Except PlannerError StatesByTask := do
  let selected ← selectTasks byTask config.taskIds
  let limited := limitTrials selected config.numTrialsPerTask
  let matched ← selectResetId limited config.specificResetId
  require (∃ task ∈ matched, task.2 ≠ []) .noStates
  .ok matched

def evalStates (states : List ResetState) : List PlannedState :=
  states.mapIdx fun index state => ⟨state, index⟩

def resizeStates (states : List PlannedState) (size : ℕ) : List PlannedState :=
  (range size).map fun index =>
    states.getD (index % states.length) default

/-- The padded states, split into waves and these into processes; a process
gets its part of every wave. -/
def processQueue (grid : ProcessGrid) (states : List PlannedState)
    (process : ℕ) : List PlannedState :=
  let numBatches := grid.numBatches states.length
  let paddedSize := max grid.totalEnvSlots (numBatches * grid.totalEnvSlots)
  let padded := resizeStates states paddedSize
  (range (paddedSize / grid.totalEnvSlots)).flatMap fun batch =>
    block grid.envsPerProcess process (block grid.totalEnvSlots batch padded)

def buildProcessQueue (grid : ProcessGrid) (states : List PlannedState) :
    Except PlannerError (List (List PlannedState)) := do
  require (states ≠ []) .emptyQueue
  .ok ((range grid.globalProcessCount).map (processQueue grid states))

/-! ## The planner of a process -/

structure Planner where
  globalProcessId : ℕ
  validResetStates : List ResetState
  evalProcessQueue : List (List PlannedState)
  evalCursor : ℕ

namespace Planner

def validEvalStates (planner : Planner) : List PlannedState :=
  evalStates planner.validResetStates

def ofStates (grid : ProcessGrid) (process : ℕ)
    (states : List ResetState) : Except PlannerError Planner := do
  let queue ← buildProcessQueue grid (evalStates states)
  .ok ⟨process, states, queue, 0⟩

/-- The planner of a task suite with the given numbers of trials. -/
def create (grid : ProcessGrid) (config : LiberoConfig) (process : ℕ)
    (trials : List ℕ) : Except PlannerError Planner := do
  let valid ← filterResetStatesByTask config (resetStatesFrom 0 0 trials)
  ofStates grid process (valid.flatMap Prod.snd)

/-- `draws` are the indices that the generator returns. -/
def sampleTrainStates (planner : Planner) (draws : List ℕ) :
    List PlannedState :=
  draws.map fun index => ⟨planner.validResetStates.getD index default, -1⟩

def resetEvalCursor (grid : ProcessGrid) (planner : Planner) :
    Except PlannerError Planner := do
  let queue ← buildProcessQueue grid planner.validEvalStates
  .ok { planner with evalCursor := 0, evalProcessQueue := queue }

def nextEvalStates (planner : Planner) (count : ℕ) :
    List PlannedState × Planner :=
  let processStates := planner.evalProcessQueue.getD planner.globalProcessId []
  ((range count).map fun offset => processStates.getD
      ((planner.evalCursor + offset) % processStates.length) default,
    { planner with
      evalCursor := (planner.evalCursor + count) % processStates.length })

end Planner

inductive PlannerCall
  | resetEvalCursor
  | nextEvalStates (count : ℕ)
  | sampleTrainStates (draws : List ℕ)

inductive PlannerEntry
  | reset
  | drawn (states : List PlannedState)
  | sampled (states : List PlannedState)

def Planner.step (grid : ProcessGrid) (planner : Planner) :
    PlannerCall → Option (PlannerEntry × Planner)
  | .resetEvalCursor =>
    match planner.resetEvalCursor grid with
    | .ok next => some (.reset, next)
    | .error _ => none
  | .nextEvalStates count =>
    let drawn := planner.nextEvalStates count
    some (.drawn drawn.1, drawn.2)
  | .sampleTrainStates draws =>
    some (.sampled (planner.sampleTrainStates draws), planner)

def plannerMachine (grid : ProcessGrid) :
    Machine (Fin grid.globalProcessCount → Planner)
      (Fin grid.globalProcessCount × PlannerCall)
      (List (Fin grid.globalProcessCount × PlannerEntry)) where
  step planners label :=
    ((planners label.1).step grid label.2).map fun result =>
      ([(label.1, result.1)], Function.update planners label.1 result.2)

/-! ## The queue of a process -/

section Queues

variable {grid : ProcessGrid} {states : List PlannedState}

theorem ProcessGrid.numBatches_pos (hcount : 0 < count) :
    0 < grid.numBatches count := by
  have hslots := grid.totalEnvSlots_pos
  unfold ProcessGrid.numBatches
  apply Nat.div_pos
  · omega
  · exact hslots

theorem ProcessGrid.le_numBatches_mul (count : ℕ) :
    count ≤ grid.numBatches count * grid.totalEnvSlots := by
  have hslots := grid.totalEnvSlots_pos
  have hround := Nat.div_add_mod (count + grid.totalEnvSlots - 1)
    grid.totalEnvSlots
  have hrest := Nat.mod_lt (count + grid.totalEnvSlots - 1) hslots
  unfold ProcessGrid.numBatches
  rw [Nat.mul_comm]
  omega

def ProcessGrid.queueLength (grid : ProcessGrid) (count : ℕ) : ℕ :=
  grid.numBatches count * grid.envsPerProcess

theorem ProcessGrid.queueLength_pos (hcount : 0 < count) :
    0 < grid.queueLength count :=
  Nat.mul_pos (grid.numBatches_pos hcount) grid.envs_pos

theorem resizeStates_getElem? (hstates : states ≠ []) (hindex : index < size) :
    (resizeStates states size)[index]? = states[index % states.length]? := by
  have hlength := length_pos_iff.mpr hstates
  have hrange : index % states.length < states.length := Nat.mod_lt _ hlength
  unfold resizeStates
  rw [getElem?_map, getElem?_range hindex, Option.map_some,
    getD_eq_getElem _ _ hrange, getElem?_eq_getElem hrange]

@[simp] theorem length_resizeStates (size : ℕ) :
    (resizeStates states size).length = size := by
  simp [resizeStates]

/-- The number of a state in the order of the waves, of the draw of a
process with some index. -/
def ProcessGrid.waveOrder (grid : ProcessGrid) (process draw : ℕ) : ℕ :=
  (draw / grid.envsPerProcess * grid.globalProcessCount + process) *
    grid.envsPerProcess + draw % grid.envsPerProcess

theorem ProcessGrid.waveOrder_lt (hprocess : process < grid.globalProcessCount)
    (hdraw : draw < batches * grid.envsPerProcess) :
    grid.waveOrder process draw < batches * grid.totalEnvSlots := by
  have hbatch : draw / grid.envsPerProcess < batches :=
    Nat.div_lt_of_lt_mul (by rw [Nat.mul_comm]; exact hdraw)
  have henv : draw % grid.envsPerProcess < grid.envsPerProcess :=
    Nat.mod_lt _ grid.envs_pos
  have hrow : draw / grid.envsPerProcess * grid.globalProcessCount +
      process + 1 ≤ batches * grid.globalProcessCount := by
    calc draw / grid.envsPerProcess * grid.globalProcessCount + process + 1
        ≤ (draw / grid.envsPerProcess + 1) * grid.globalProcessCount := by
          rw [Nat.add_mul, Nat.one_mul]
          omega
      _ ≤ batches * grid.globalProcessCount := Nat.mul_le_mul_right _ hbatch
  calc grid.waveOrder process draw
      < (draw / grid.envsPerProcess * grid.globalProcessCount + process + 1)
          * grid.envsPerProcess := by
        unfold ProcessGrid.waveOrder
        rw [Nat.add_mul _ 1, Nat.one_mul]
        omega
    _ ≤ batches * grid.globalProcessCount * grid.envsPerProcess :=
        Nat.mul_le_mul_right _ hrow
    _ = batches * grid.totalEnvSlots := by
        unfold ProcessGrid.totalEnvSlots
        ring

theorem ProcessGrid.waveOrder_surj (grid : ProcessGrid) (order : ℕ) :
    ∃ process < grid.globalProcessCount, ∃ draw,
      grid.waveOrder process draw = order := by
  have hprocess := Nat.mod_lt (order / grid.envsPerProcess) grid.processes_pos
  have henv : order % grid.envsPerProcess < grid.envsPerProcess :=
    Nat.mod_lt _ grid.envs_pos
  have hbatch : (order / grid.envsPerProcess / grid.globalProcessCount *
      grid.envsPerProcess + order % grid.envsPerProcess) /
        grid.envsPerProcess =
      order / grid.envsPerProcess / grid.globalProcessCount := by
    rw [Nat.mul_comm, Nat.mul_add_div grid.envs_pos, Nat.div_eq_of_lt henv,
      Nat.add_zero]
  have hplace : (order / grid.envsPerProcess / grid.globalProcessCount *
      grid.envsPerProcess + order % grid.envsPerProcess) %
        grid.envsPerProcess = order % grid.envsPerProcess := by
    rw [Nat.mul_comm, Nat.mul_add_mod, Nat.mod_eq_of_lt henv]
  refine ⟨order / grid.envsPerProcess % grid.globalProcessCount, hprocess,
    order / grid.envsPerProcess / grid.globalProcessCount *
      grid.envsPerProcess + order % grid.envsPerProcess, ?_⟩
  unfold ProcessGrid.waveOrder
  rw [hbatch, hplace, Nat.div_add_mod', Nat.div_add_mod']

theorem ProcessGrid.draw_lt
    (horder : grid.waveOrder process draw < batches * grid.totalEnvSlots) :
    draw < batches * grid.envsPerProcess := by
  by_contra hlate
  have hbatch : batches ≤ draw / grid.envsPerProcess :=
    (Nat.le_div_iff_mul_le grid.envs_pos).mpr (by omega)
  have hrow : batches * grid.globalProcessCount ≤
      draw / grid.envsPerProcess * grid.globalProcessCount + process :=
    le_trans (Nat.mul_le_mul_right _ hbatch) (Nat.le_add_right _ _)
  have hslots : batches * grid.totalEnvSlots =
      batches * grid.globalProcessCount * grid.envsPerProcess := by
    unfold ProcessGrid.totalEnvSlots
    ring
  have hplace := Nat.mul_le_mul_right grid.envsPerProcess hrow
  unfold ProcessGrid.waveOrder at horder
  omega

theorem paddedSize_eq (hstates : states ≠ []) : max grid.totalEnvSlots
        (grid.numBatches states.length * grid.totalEnvSlots) =
      grid.numBatches states.length * grid.totalEnvSlots := by
  have hbatches : 0 < grid.numBatches states.length :=
    grid.numBatches_pos (length_pos_iff.mpr hstates)
  apply max_eq_right
  exact Nat.le_mul_of_pos_left _ hbatches

theorem processQueue_eq (hstates : states ≠ []) (process : ℕ) :
    processQueue grid states process =
      ((range (grid.numBatches states.length)).map fun batch =>
        block grid.envsPerProcess process (block grid.totalEnvSlots batch
          (resizeStates states (grid.numBatches states.length *
              grid.totalEnvSlots)))).flatten := by
  unfold processQueue
  simp only [paddedSize_eq hstates,
    Nat.mul_div_cancel _ grid.totalEnvSlots_pos]
  exact flatMap_def

theorem length_wavePart (hprocess : process < grid.globalProcessCount)
    (hbatch : batch < grid.numBatches states.length) :
    (block grid.envsPerProcess process (block grid.totalEnvSlots batch
      (resizeStates states (grid.numBatches states.length *
        grid.totalEnvSlots)))).length = grid.envsPerProcess := by
  apply length_block _ hprocess
  rw [length_block (length_resizeStates _) hbatch]
  rfl

theorem length_processQueue (hstates : states ≠ [])
    (hprocess : process < grid.globalProcessCount) :
    (processQueue grid states process).length =
      grid.queueLength states.length := by
  rw [processQueue_eq hstates, length_flatten, map_map,
    map_congr_left (g := fun _ => grid.envsPerProcess)]
  · simp [ProcessGrid.queueLength]
  · intro batch hbatch
    exact length_wavePart hprocess (mem_range.mp hbatch)

theorem processQueue_getElem? (hstates : states ≠ [])
    (hprocess : process < grid.globalProcessCount)
    (hdraw : draw < grid.queueLength states.length) :
    (processQueue grid states process)[draw]? =
      states[grid.waveOrder process draw % states.length]? := by
  have hbatch : draw / grid.envsPerProcess < grid.numBatches states.length :=
    Nat.div_lt_of_lt_mul (by rw [Nat.mul_comm]; exact hdraw)
  have henv : draw % grid.envsPerProcess < grid.envsPerProcess :=
    Nat.mod_lt _ grid.envs_pos
  have hslot : process * grid.envsPerProcess + draw % grid.envsPerProcess <
      grid.totalEnvSlots := by
    have hfits := Nat.mul_le_mul_right grid.envsPerProcess
      (Nat.succ_le_of_lt hprocess)
    rw [Nat.succ_eq_add_one, Nat.add_mul, Nat.one_mul] at hfits
    unfold ProcessGrid.totalEnvSlots
    omega
  have hplace : draw / grid.envsPerProcess * grid.totalEnvSlots +
      (process * grid.envsPerProcess + draw % grid.envsPerProcess) =
        grid.waveOrder process draw := by
    unfold ProcessGrid.waveOrder ProcessGrid.totalEnvSlots
    ring
  rw [processQueue_eq hstates, getElem?_flatten_of_length grid.envs_pos (by
      intro part hpart
      simp only [mem_map, mem_range] at hpart
      obtain ⟨batch, hrange, hpart⟩ := hpart
      rw [← hpart]
      exact length_wavePart hprocess hrange),
    getElem?_map, getElem?_range hbatch, Option.map_some,
    Option.bind_some, block_getElem? _ _ henv, block_getElem? _ _ hslot,
    hplace, resizeStates_getElem? hstates (grid.waveOrder_lt hprocess hdraw)]

end Queues

/-! ## The planner of a process along its calls -/

def drawnSince {count : ℕ} (process : Fin count)
    (entries : List (Fin count × PlannerEntry)) : List PlannedState :=
  entries.foldl (fun drawn entry =>
    if entry.1 = process then
      match entry.2 with
      | .reset => []
      | .drawn states => drawn ++ states
      | .sampled _ => drawn
    else drawn) []

/-- The number of states asked of a process since its last reset. -/
def requestedSince {count : ℕ} (process : Fin count)
    (calls : List (Fin count × PlannerCall)) : ℕ :=
  calls.foldl (fun requested call =>
    if call.1 = process then
      match call.2 with
      | .resetEvalCursor => 0
      | .nextEvalStates draws => requested + draws
      | .sampleTrainStates _ => requested
    else requested) 0

section Planners

variable {grid : ProcessGrid} {states : List ResetState}

theorem evalStates_ne_nil (hstates : states ≠ []) :
    evalStates states ≠ [] := by
  intro hempty
  apply hstates
  simpa [evalStates, mapIdx_eq_nil_iff] using hempty

@[simp] theorem length_evalStates :
    (evalStates states).length = states.length := by
  simp [evalStates]

theorem evalStates_getElem? (index : ℕ) : (evalStates states)[index]? =
      states[index]?.map fun state => ⟨state, index⟩ := by
  simp [evalStates]

def processQueues (grid : ProcessGrid) (states : List ResetState) :
    List (List PlannedState) :=
  (range grid.globalProcessCount).map (processQueue grid (evalStates states))

theorem buildProcessQueue_ok (hstates : states ≠ []) :
    buildProcessQueue grid (evalStates states) =
      .ok (processQueues grid states) := by
  have hne := evalStates_ne_nil hstates
  simp [buildProcessQueue, require, hne, processQueues]

structure Draws (grid : ProcessGrid) (states : List ResetState)
    (process : Fin grid.globalProcessCount) (planner : Planner)
    (drawn : List PlannedState) : Prop where
  process_eq : planner.globalProcessId = process
  valid : planner.validResetStates = states
  queue : planner.evalProcessQueue = processQueues grid states
  cursor : planner.evalCursor = drawn.length % grid.queueLength states.length
  drawn_eq : ∀ index < drawn.length, drawn[index]? =
    (processQueue grid (evalStates states)
      process)[index % grid.queueLength states.length]?

variable {process : Fin grid.globalProcessCount} {planner : Planner}
  {drawn : List PlannedState}

theorem Draws.none (hprocess : planner.globalProcessId = process)
    (hvalid : planner.validResetStates = states) :
    Draws grid states process
      { planner with
        evalCursor := 0, evalProcessQueue := processQueues grid states }
      [] := by
  constructor
  · exact hprocess
  · exact hvalid
  · rfl
  · rw [length_nil, Nat.zero_mod]
  · exact nofun

theorem Draws.of_create (hstates : states ≠ [])
    (hcreate : Planner.ofStates grid process states = .ok planner) :
    Draws grid states process planner [] := by
  unfold Planner.ofStates at hcreate
  rw [buildProcessQueue_ok hstates] at hcreate
  cases hcreate
  have hnone : ∀ fresh : Planner, fresh.globalProcessId = process →
      fresh.validResetStates = states → Draws grid states process
        { fresh with
          evalCursor := 0, evalProcessQueue := processQueues grid states }
        [] := fun _ => Draws.none
  exact hnone ⟨process, states, [], 0⟩ rfl rfl

theorem Draws.own_queue (hdraws : Draws grid states process planner drawn) :
    planner.evalProcessQueue.getD planner.globalProcessId [] =
      processQueue grid (evalStates states) process := by
  rw [hdraws.queue, hdraws.process_eq, processQueues,
    getD_eq_getElem _ _ (by simp), getElem_map,
    getElem_range]

theorem Draws.reset (hstates : states ≠ [])
    (hdraws : Draws grid states process planner drawn) :
    ∃ next, planner.resetEvalCursor grid = .ok next ∧
      Draws grid states process next [] := by
  refine ⟨_, ?_, Draws.none hdraws.process_eq hdraws.valid⟩
  unfold Planner.resetEvalCursor Planner.validEvalStates
  rw [hdraws.valid, buildProcessQueue_ok hstates]
  rfl

theorem Draws.next (hstates : states ≠ [])
    (hdraws : Draws grid states process planner drawn) (count : ℕ) :
    (planner.nextEvalStates count).1.length = count ∧
      Draws grid states process (planner.nextEvalStates count).2
        (drawn ++ (planner.nextEvalStates count).1) := by
  have hvalid := evalStates_ne_nil hstates
  have hlength : (processQueue grid (evalStates states) process).length =
      grid.queueLength states.length := by
    rw [length_processQueue hvalid process.isLt, length_evalStates]
  have hpos : 0 < grid.queueLength states.length :=
    grid.queueLength_pos (length_pos_iff.mpr hstates)
  have hcount : (planner.nextEvalStates count).1.length = count := by
    simp [Planner.nextEvalStates]
  refine ⟨hcount, hdraws.process_eq, hdraws.valid, hdraws.queue, ?_, ?_⟩
  · rw [length_append, hcount]
    unfold Planner.nextEvalStates
    simp only [hdraws.own_queue, hlength, hdraws.cursor, Nat.mod_add_mod]
  · intro index hindex
    rw [length_append, hcount] at hindex
    by_cases hbefore : index < drawn.length
    · rw [getElem?_append_left hbefore]
      exact hdraws.drawn_eq index hbefore
    · have hoffset : index - drawn.length < count := by omega
      have hplace : drawn.length + (index - drawn.length) = index := by
        omega
      have hrange : index % grid.queueLength states.length <
          (processQueue grid (evalStates states) process).length := by
        rw [hlength]
        exact Nat.mod_lt _ hpos
      rw [getElem?_append_right (by omega)]
      unfold Planner.nextEvalStates
      simp only [hdraws.own_queue, hlength, hdraws.cursor]
      rw [getElem?_map, getElem?_range hoffset, Option.map_some,
        Nat.mod_add_mod, hplace, getD_eq_getElem _ _ hrange,
        getElem?_eq_getElem hrange]

/-- A planner that is created has a state; the filter refuses to leave
none. -/
theorem ofStates_of_create {id : ℕ}
    (hcreate : Planner.create grid config id trials = .ok planner) :
    planner.validResetStates ≠ [] ∧
      Planner.ofStates grid id planner.validResetStates = .ok planner := by
  unfold Planner.create at hcreate
  obtain ⟨valid, hvalid, hplanner⟩ := bind_eq_ok.mp hcreate
  have hstates : valid.flatMap Prod.snd ≠ [] := by
    unfold filterResetStatesByTask at hvalid
    obtain ⟨selected, _, hvalid⟩ := bind_eq_ok.mp hvalid
    obtain ⟨matched, _, hvalid⟩ := bind_eq_ok.mp hvalid
    obtain ⟨hsome, hmatched⟩ := require_bind_eq_ok.mp hvalid
    cases hmatched
    obtain ⟨task, htask, hne⟩ := hsome
    intro hempty
    exact hne (flatMap_eq_nil_iff.mp hempty task htask)
  have hkept : planner.validResetStates = valid.flatMap Prod.snd := by
    unfold Planner.ofStates at hplanner
    rw [buildProcessQueue_ok hstates] at hplanner
    cases hplanner
    rfl
  rw [hkept]
  exact ⟨hstates, hplanner⟩

end Planners

/-! ## Runs of all processes -/

section Runs

variable {grid : ProcessGrid} {states : List ResetState}
  {planners next final : Fin grid.globalProcessCount → Planner}
  {events : List (Event (Fin grid.globalProcessCount → Planner)
    (Fin grid.globalProcessCount × PlannerCall)
    (List (Fin grid.globalProcessCount × PlannerEntry)))}

theorem plannerMachine_step
    (hstep : (plannerMachine grid).step planners label = some (output, next)) :
    ∃ entry planner,
      (planners label.1).step grid label.2 = some (entry, planner) ∧
        output = [(label.1, entry)] ∧
        next = Function.update planners label.1 planner := by
  cases hown : (planners label.1).step grid label.2 with
  | none => simp [plannerMachine, hown] at hstep
  | some result =>
    simp only [plannerMachine, hown, Option.map_some,
      Option.some.injEq, Prod.mk.injEq] at hstep
    exact ⟨result.1, result.2, rfl, hstep.1.symm, hstep.2.symm⟩

/-- A call leaves the planners of the other processes as they are, and
training states leave every planner as it is. -/
theorem plannerMachine_others
    (hrun : Run (plannerMachine grid) planners events final) :
    ∀ event ∈ events, (∀ other, other ≠ event.label.1 →
        event.after other = event.before other) ∧
      ∀ draws, event.label.2 = .sampleTrainStates draws →
        event.after = event.before := by
  intro event hevent
  obtain ⟨entry, planner, hown, _, hafter⟩ :=
    plannerMachine_step (hrun.step_of_mem hevent)
  constructor
  · intro other hother
    rw [hafter, Function.update_of_ne hother]
  · intro draws hsample
    rw [hsample] at hown
    simp only [Planner.step, Option.some.injEq, Prod.mk.injEq] at hown
    rw [hafter, ← hown.2, Function.update_eq_self]

section

variable (hstates : states ≠ [])
  (hcreate : ∀ process : Fin grid.globalProcessCount, Planner.ofStates grid process states = .ok (planners process))
  (hrun : Run (plannerMachine grid) planners events final)
  (process : Fin grid.globalProcessCount)

include hstates hcreate hrun

/-- Every process has drawn as many states as were asked of it since its last
reset, and they are those of its queue. -/
theorem draws_of_run : (drawnSince process (log events)).length =
        requestedSince process (events.map Event.label) ∧
      Draws grid states process (final process)
        (drawnSince process (log events)) := by
  induction hrun with
  | nil => exact ⟨rfl, .of_create hstates (hcreate process)⟩
  | @snoc before after prior label output _ hstep ih =>
    obtain ⟨hcount, hdraws⟩ := ih
    obtain ⟨entry, planner, hown, houtput, hafter⟩ := plannerMachine_step hstep
    rw [log_append, log_singleton, map_append, map_singleton, houtput, hafter]
    unfold drawnSince requestedSince
    rw [foldl_append, foldl_append, foldl_cons,
      foldl_nil, foldl_cons, foldl_nil]
    change (drawnSince process (log prior)).length = _ at hcount
    unfold drawnSince requestedSince at hcount
    unfold drawnSince at hdraws
    by_cases hsame : label.1 = process
    · rw [← hsame] at hcount hdraws ⊢
      rw [Function.update_self]
      simp only [if_true]
      cases hcall : label.2 with
      | resetEvalCursor =>
        rw [hcall] at hown
        obtain ⟨reset, hreset, hnone⟩ := hdraws.reset hstates
        simp only [Planner.step, hreset, Option.some.injEq,
          Prod.mk.injEq] at hown
        obtain ⟨hentry, hplanner⟩ := hown
        rw [← hentry, ← hplanner]
        exact ⟨rfl, hnone⟩
      | nextEvalStates count =>
        rw [hcall] at hown
        obtain ⟨hlength, hnext⟩ := hdraws.next hstates count
        simp only [Planner.step, Option.some.injEq, Prod.mk.injEq] at hown
        obtain ⟨hentry, hplanner⟩ := hown
        rw [← hentry, ← hplanner]
        refine ⟨?_, hnext⟩
        rw [length_append, hlength, hcount]
      | sampleTrainStates draws =>
        rw [hcall] at hown
        simp only [Planner.step, Option.some.injEq, Prod.mk.injEq] at hown
        obtain ⟨hentry, hplanner⟩ := hown
        rw [← hentry, ← hplanner]
        exact ⟨hcount, hdraws⟩
    · rw [Function.update_of_ne (Ne.symm hsame)]
      simp only [hsame, if_false]
      exact ⟨hcount, hdraws⟩

theorem drawnSince_getElem?
    (hdraw : draw < (drawnSince process (log events)).length) :
    (drawnSince process (log events))[draw]? =
      (evalStates states)[grid.waveOrder process
        (draw % grid.queueLength states.length) % states.length]? := by
  obtain ⟨_, hdraws⟩ := draws_of_run hstates hcreate hrun process
  have hvalid := evalStates_ne_nil hstates
  have hpos : 0 < grid.queueLength states.length :=
    grid.queueLength_pos (length_pos_iff.mpr hstates)
  have hrange := Nat.mod_lt draw hpos
  rw [hdraws.drawn_eq draw hdraw]
  have hlength : (evalStates states).length = states.length :=
    length_evalStates
  rw [← hlength] at hrange ⊢
  exact processQueue_getElem? hvalid process.isLt hrange

end

theorem evalStates_inj (hfirst : first < states.length)
    (heq : (evalStates states)[first]? = (evalStates states)[second]?) :
    first = second := by
  rw [evalStates_getElem?, evalStates_getElem?,
    getElem?_eq_getElem hfirst, Option.map_some] at heq
  cases hsecond : states[second]? with
  | none => simp [hsecond] at heq
  | some state =>
    simp only [hsecond, Option.map_some, Option.some.injEq,
      PlannedState.mk.injEq] at heq
    exact Int.ofNat.inj heq.2

/-- A draw among the first of the order of the waves is the state of that
number. -/
theorem drawn_of_order (hstates : states ≠ [])
    (hcreate : ∀ process : Fin grid.globalProcessCount,
      Planner.ofStates grid process states = .ok (planners process))
    (hrun : Run (plannerMachine grid) planners events final)
    (process : Fin grid.globalProcessCount)
    (hdraw : draw < (drawnSince process (log events)).length)
    (horder : grid.waveOrder process draw < states.length) :
    (drawnSince process (log events))[draw]? =
      (evalStates states)[grid.waveOrder process draw]? := by
  have hpadded := grid.le_numBatches_mul states.length
  have hqueue : draw < grid.queueLength states.length :=
    grid.draw_lt (horder.trans_le hpadded)
  rw [drawnSince_getElem? hstates hcreate hrun process hdraw,
    Nat.mod_eq_of_lt hqueue, Nat.mod_eq_of_lt horder]

/-- In every run of the processes' planners, a process draws the states of
its waves in turn; once every process has drawn its queue every state has been
drawn, and in the order of the waves no state is drawn twice before all of
them; an episode is the index of its state; and a call of one process leaves
the others as they are. -/
theorem eval_states_covered (grid : ProcessGrid) (states : List ResetState)
    (hstates : states ≠ [])
    (planners final : Fin grid.globalProcessCount → Planner)
    (hcreate : ∀ process : Fin grid.globalProcessCount,
      Planner.ofStates grid process states = .ok (planners process))
    (events : List (Event (Fin grid.globalProcessCount → Planner)
      (Fin grid.globalProcessCount × PlannerCall)
      (List (Fin grid.globalProcessCount × PlannerEntry))))
    (hrun : Run (plannerMachine grid) planners events final) :
    let n := states.length
    let P := grid.globalProcessCount
    let E := grid.envsPerProcess
    let N := (n + P * E - 1) / (P * E)
    let drawn := fun process => drawnSince process (log events)
    (∀ process, (drawn process).length =
      requestedSince process (events.map Event.label)) ∧
    (∀ process, ∀ k < (drawn process).length, ∀ b e, e < E →
      b * E + e = k % (N * E) →
      (drawn process)[k]? =
        (evalStates states)[((b * P + process) * E + e) % n]?) ∧
    ((∀ process, N * E ≤ (drawn process).length) →
      ∀ state ∈ evalStates states, ∃ process, state ∈ drawn process) ∧
    (∀ process other k j, k < (drawn process).length →
      (drawn other)[j]? = (drawn process)[k]? →
      grid.waveOrder other j < grid.waveOrder process k →
      ∀ state ∈ evalStates states, ∃ (early : Fin P) (i : ℕ),
        grid.waveOrder early i < grid.waveOrder process k ∧
          (i < (drawn early).length → (drawn early)[i]? = some state)) ∧
    (∀ i < n, (evalStates states)[i]?.map PlannedState.evalEpisodeId =
      some (i : ℤ) ∧
      (evalStates states)[i]?.map PlannedState.reset = states[i]?) ∧
    (∀ state ∈ evalStates states, ∀ other ∈ evalStates states,
      state.evalEpisodeId = other.evalEpisodeId → state = other) ∧
    ∀ event ∈ events, (∀ other, other ≠ event.label.1 →
        event.after other = event.before other) ∧
      ∀ draws, event.label.2 = .sampleTrainStates draws →
        event.after = event.before := by
  intro n P E N drawn
  have hpos : 0 < n := length_pos_iff.mpr hstates
  have hpadded : n ≤ N * grid.totalEnvSlots := grid.le_numBatches_mul n
  have hplaces : ∀ i < n, ∃ early : Fin P, ∃ draw,
      grid.waveOrder early draw = i := by
    intro i hi
    obtain ⟨early, hearly, draw, horder⟩ := grid.waveOrder_surj i
    exact ⟨⟨early, hearly⟩, draw, horder⟩
  have hnumber : ∀ state ∈ evalStates states, ∃ i < n,
      (evalStates states)[i]? = some state := by
    intro state hstate
    obtain ⟨i, hi, hentry⟩ := getElem_of_mem hstate
    have hlt : i < n := by
      rw [length_evalStates] at hi
      exact hi
    refine ⟨i, hlt, ?_⟩
    rw [getElem?_eq_getElem hi, hentry]
  have horder : ∀ process k, k < (drawn process).length →
      grid.waveOrder process k < n → (drawn process)[k]? =
        (evalStates states)[grid.waveOrder process k]? :=
    fun process k hk => drawn_of_order hstates hcreate hrun process hk
  refine ⟨?_, ?_, ?_, ?_, ?_, ?_, plannerMachine_others hrun⟩
  · intro process
    exact (draws_of_run hstates hcreate hrun process).1
  · intro process k hk b e he hbe
    have hdraw := drawnSince_getElem? hstates hcreate hrun process hk
    have hbatch : (b * E + e) / E = b := by
      rw [Nat.mul_comm, Nat.mul_add_div grid.envs_pos, Nat.div_eq_of_lt he,
        Nat.add_zero]
    have hplace : (b * E + e) % E = e := by
      rw [Nat.mul_comm, Nat.mul_add_mod, Nat.mod_eq_of_lt he]
    have hk' : k % grid.queueLength states.length = b * E + e := hbe.symm
    rw [hdraw, hk']
    unfold ProcessGrid.waveOrder
    change (evalStates states)[(((b * E + e) / E * P + process) * E +
      (b * E + e) % E) % n]? = _
    rw [hbatch, hplace]
  · intro hall state hstate
    obtain ⟨i, hi, hentry⟩ := hnumber state hstate
    obtain ⟨process, draw, hplace⟩ := hplaces i hi
    have hdraw : draw < N * E := grid.draw_lt (hplace ▸ hi.trans_le hpadded)
    have hmade : draw < (drawn process).length := hdraw.trans_le (hall process)
    have hstate := horder process draw hmade (hplace ▸ hi)
    rw [hplace, hentry] at hstate
    exact ⟨process, mem_of_getElem? hstate⟩
  · intro process other k j hk hsame hbefore state hstate
    have hlate : n ≤ grid.waveOrder process k := by
      by_contra hearly
      have hother : j < (drawn other).length := by
        rw [getElem?_eq_getElem hk] at hsame
        exact (List.getElem?_eq_some_iff.mp hsame).1
      rw [horder other j hother (by omega),
        horder process k hk (by omega)] at hsame
      have heq := evalStates_inj (by omega) hsame
      omega
    obtain ⟨i, hi, hentry⟩ := hnumber state hstate
    obtain ⟨early, draw, hplace⟩ := hplaces i hi
    refine ⟨early, draw, by omega, ?_⟩
    intro hmade
    rw [horder early draw hmade (by omega), hplace, hentry]
  · intro i hi
    rw [evalStates_getElem?, getElem?_eq_getElem hi]
    constructor <;> rfl
  · intro state hstate other hother hepisode
    obtain ⟨i, hi, hentry⟩ := hnumber state hstate
    obtain ⟨j, hj, hentry'⟩ := hnumber other hother
    rw [evalStates_getElem?, getElem?_eq_getElem hi,
      Option.map_some, Option.some.injEq] at hentry
    rw [evalStates_getElem?, getElem?_eq_getElem hj,
      Option.map_some, Option.some.injEq] at hentry'
    rw [← hentry, ← hentry'] at hepisode
    have hsame : i = j := Int.ofNat.inj hepisode
    subst hsame
    rw [← hentry, ← hentry']

end Runs

def onePerProcess : ProcessGrid := ⟨2, 1, Nat.two_pos, Nat.one_pos⟩

def threeStates : List ResetState := [⟨0, 0, 0⟩, ⟨0, 1, 1⟩, ⟨1, 0, 2⟩]

def freshPlanners (process : Fin 2) : Planner :=
  ⟨process, threeStates, processQueues onePerProcess threeStates, 0⟩

local instance twoProcesses : NeZero 2 := ⟨two_ne_zero⟩

def mixedCalls : List (Fin 2 × PlannerCall) :=
  [(0, .nextEvalStates 1), (0, .resetEvalCursor), (1, .nextEvalStates 2),
    (1, .sampleTrainStates [2]), (0, .nextEvalStates 3)]

theorem eval_states_covered_mixedCalls : ∃ events final,
    (plannerMachine onePerProcess).exec freshPlanners mixedCalls =
      some (events, final) ∧
    (∀ process, (drawnSince process (log events)).length =
      requestedSince process (events.map Event.label)) ∧
    ∀ event ∈ events, ∀ other, other ≠ event.label.1 →
      event.after other = event.before other := by
  have hsome : ((plannerMachine onePerProcess).exec freshPlanners
      mixedCalls).isSome = true := rfl
  obtain ⟨⟨events, final⟩, hexec⟩ := Option.isSome_iff_exists.mp hsome
  have hcreate : ∀ process : Fin 2, Planner.ofStates onePerProcess process
      threeStates = .ok (freshPlanners process) := fun _ => rfl
  have hcovered := eval_states_covered onePerProcess threeStates
    (by decide) freshPlanners final hcreate events
    (Machine.run_of_exec hexec)
  obtain ⟨hlength, _, _, _, _, _, hothers⟩ := hcovered
  exact ⟨events, final, hexec, hlength,
    fun event hevent => (hothers event hevent).1⟩

end Libero
end VerlVla
