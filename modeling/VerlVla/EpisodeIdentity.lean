import Mathlib.Data.Finset.Basic
import VerlVla.LaneAlignment

/-!
# Episode identity across the worker boundary

An environment reports the condition and the policy draw of its episode with
every observation.  The worker copies these fields into its batches from lists
of its own, and collation fills with zeros the slots in which a field is
missing.
-/

namespace VerlVla

open List hiding cons nil

inductive IdentityField
  | suiteId
  | evalEpisodeId
  | layoutId
  | environmentSeed
  | policySeed
  deriving DecidableEq

namespace IdentityField

def name : IdentityField → String
  | suiteId => "suite_id"
  | evalEpisodeId => "eval_episode_id"
  | layoutId => "layout_id"
  | environmentSeed => "environment_seed"
  | policySeed => "policy_seed"

def key (field : IdentityField) : String := "obs." ++ field.name

end IdentityField

/-- The fields that survive an action chunk in the environment. -/
def episodeIdentityFields : Finset IdentityField :=
  {.suiteId, .evalEpisodeId, .layoutId, .environmentSeed, .policySeed}

/-- What the environments report before the action of a slot: some of the
fields, and their values for every lane. -/
structure IdentityReports (A : Type) where
  fields : ℕ → Finset IdentityField
  value : IdentityField → EnvLane → List A → ℤ

/-! ## The worker -/

namespace EnvWorker

/-- The identity columns of an observation, with one entry for every row. -/
abbrev IdentityColumns (α : Type) := IdentityField → Option α

def resetFields : List IdentityField :=
  [.layoutId, .environmentSeed, .policySeed]

def stepFields : List IdentityField :=
  [.layoutId, .environmentSeed, .policySeed]

/-- The values of the stages of a worker, where there are any. -/
def resetColumn (results : List (IdentityColumns (List ℤ)))
    (field : IdentityField) : Option (List ℤ) :=
  let values := results.flatMap fun obs => (obs field).getD []
  if values = [] then none else some values

def resetEnv (results : List (IdentityColumns (List ℤ))) :
    IdentityColumns (List ℤ) := fun field =>
  if field = .evalEpisodeId then resetColumn results .evalEpisodeId
  else if field ∈ resetFields then resetColumn results field
  else none

def createEnvBatchDataproto {α : Type} (obs : IdentityColumns α) :
    IdentityColumns α := fun field =>
  if field = .evalEpisodeId then obs .evalEpisodeId
  else if field ∈ stepFields then obs field
  else none

end EnvWorker

section Reports

variable {A : Type} (config : EnvLoopConfig) (reports : IdentityReports A)

def IdentityReports.processReset (stageId rank : ℕ) :
    EnvWorker.IdentityColumns (List ℤ) := fun field =>
  if field ∈ reports.fields 0 then
    some ((config.processLanes stageId rank).map fun lane =>
      reports.value field lane [])
  else none

def IdentityReports.laneObs (lane : EnvLane) (actions : List A) :
    EnvWorker.IdentityColumns ℤ := fun field =>
  if field ∈ reports.fields actions.length then
    some (reports.value field lane actions)
  else none

/-- A lane as the loop sees it behind its worker: its row of the worker's
reset batch, then its rows of the step batches. -/
def workerSimulators :
    LaneSimulators (EnvWorker.IdentityColumns ℤ) A Unit where
  reset lane := fun field =>
    (EnvWorker.resetEnv ((range config.stageNum).map fun stageId =>
        reports.processReset config stageId lane.rank) field).bind
      fun column => column[lane.stageId * config.numEnvs + lane.env]?
  step lane actions :=
    (EnvWorker.createEnvBatchDataproto (reports.laneObs lane actions), ())

end Reports

namespace EnvLoop

def identityColumn (field : IdentityField)
    (rows : List (EnvWorker.IdentityColumns ℤ)) : Option (List ℤ) :=
  rows.mapM fun row => row field

/-- A field that some slot has gets zeros in the slots that miss it. -/
def stackDataprotoWithPadding (field : IdentityField)
    (slots : List (List (EnvWorker.IdentityColumns ℤ))) :
    Option (List (List ℤ)) :=
  let columns := slots.map (identityColumn field)
  (columns.findSome? id).map fun template =>
    stackRows (columns.map fun column =>
      column.getD (template.map fun _ => 0))

def collateIdentity {A : Type} (library : BatchLibrary)
    (state : LoopState (EnvWorker.IdentityColumns ℤ) A Unit)
    (activeStageIds : List ℕ) (field : IdentityField) :
    Option (List (List ℤ)) := do
  let stages ← activeStageIds.mergeSort.mapM fun stageId =>
    stackDataprotoWithPadding field
      ((state.stage stageId).trajectory.map TrajectorySlot.obs)
  pure (library.concat stages)

end EnvLoop

/-! ## Validation -/

inductive GroupError
  | missing (key : String)
  | leadingRows (key : String) (rows : ℕ)
  | emptyRow (key : String)
  | changed (key : String) (trajectoryIndex : ℕ)
  deriving DecidableEq

def constantRow (key : String) (trajectoryIndex : ℕ) :
    List ℤ → Except GroupError ℤ
  | [] => .error (.emptyRow key)
  | first :: rest => do
    require (∀ value ∈ rest, value = first) (.changed key trajectoryIndex)
    pure first

def constantTrajectoryValues (rollout : IdentityField → Option (List (List ℤ)))
    (size : ℕ) (field : IdentityField) : Except GroupError (List ℤ) :=
  match rollout field with
  | none => .error (.missing field.key)
  | some values => do
    require (values.length = size) (.leadingRows field.key values.length)
    values.zipIdx.mapM fun row => constantRow field.key row.2 row.1

theorem constantRow_eq (hne : row ≠ []) (hrow : ∀ other ∈ row, other = value) :
    constantRow key trajectoryIndex row = .ok value := by
  obtain ⟨first, rest, rfl⟩ := exists_cons_of_ne_nil hne
  obtain ⟨hfirst, hrest⟩ := forall_mem_cons.mp hrow
  unfold constantRow
  rw [require_bind_eq_ok, hfirst]
  exact ⟨hrest, rfl⟩

theorem constantTrajectoryValues_eq {ι : Type} {lanes : List ι}
    {row : ι → List ℤ} {value : ι → ℤ}
    {rollout : IdentityField → Option (List (List ℤ))}
    {field : IdentityField} (hrows : rollout field = some (lanes.map row))
    (hrow : ∀ lane ∈ lanes, row lane ≠ [] ∧
      ∀ other ∈ row lane, other = value lane) :
    constantTrajectoryValues rollout lanes.length field =
      .ok (lanes.map value) := by
  have hvalues : ∀ start, ((lanes.map row).zipIdx start).mapM
      (fun row => constantRow field.key row.2 row.1) =
        Except.ok (lanes.map value) := by
    clear hrows
    induction lanes with
    | nil => exact fun _ => rfl
    | cons lane lanes ih =>
      intro start
      obtain ⟨⟨hne, hconstant⟩, hrest⟩ := forall_mem_cons.mp hrow
      rw [map_cons, zipIdx_cons, mapM_cons, bind_eq_ok]
      refine ⟨value lane, constantRow_eq hne hconstant, ?_⟩
      rw [bind_eq_ok]
      exact ⟨lanes.map value, ih hrest (start + 1), rfl⟩
  simp only [constantTrajectoryValues, hrows]
  rw [require_bind_eq_ok, length_map]
  exact ⟨rfl, hvalues 0⟩

/-! ## Reset rows -/

section Rows

variable {A : Type} {config : EnvLoopConfig} {reports : IdentityReports A}

theorem resetColumn_eq (hstages : 0 < config.stageNum) (rank : ℕ)
    (field : IdentityField) :
    EnvWorker.resetColumn ((range config.stageNum).map fun stageId =>
        reports.processReset config stageId rank) field =
      if field ∈ reports.fields 0 then
        some ((config.workerLanes rank).map fun lane =>
          reports.value field lane [])
      else none := by
  unfold EnvWorker.resetColumn
  rw [flatMap_map]
  by_cases hfield : field ∈ reports.fields 0
  · have hvalues : ((range config.stageNum).flatMap fun stageId =>
        (reports.processReset config stageId rank field).getD []) =
          (config.workerLanes rank).map fun lane =>
            reports.value field lane [] := by
      simp only [IdentityReports.processReset, if_pos hfield,
        Option.getD_some, EnvLoopConfig.workerLanes, map_flatMap]
    have hne : ((config.workerLanes rank).map fun lane =>
        reports.value field lane []) ≠ [] := by
      apply ne_nil_of_length_pos
      simp [EnvLoopConfig.workerLanes, EnvLoopConfig.length_processLanes,
        config.numEnvs_pos, hstages]
    simp only [hvalues, if_neg hne, if_pos hfield]
  · simp [IdentityReports.processReset, hfield]

theorem workerLanes_getElem? (hstage : lane.stageId < config.stageNum)
    (henv : lane.env < config.numEnvs) :
    (config.workerLanes lane.rank)[lane.stageId * config.numEnvs +
      lane.env]? = some lane := by
  have hblock : block config.numEnvs lane.stageId
      (config.workerLanes lane.rank) =
        config.processLanes lane.stageId lane.rank := by
    apply block_flatMap _ hstage
    intro stageId _
    exact config.length_processLanes stageId lane.rank
  rw [← block_getElem? _ _ henv, hblock, EnvLoopConfig.processLanes,
    getElem?_map, getElem?_range henv]
  rfl

/-- The row of a lane in the reset batch of its worker carries what a step
would carry. -/
theorem workerSimulators_reset (hstage : lane.stageId < config.stageNum)
    (henv : lane.env < config.numEnvs) :
    (workerSimulators config reports).reset lane =
      EnvWorker.createEnvBatchDataproto (reports.laneObs lane []) := by
  have hcolumn : ∀ field, (EnvWorker.resetColumn
      ((range config.stageNum).map fun stageId =>
        reports.processReset config stageId lane.rank) field).bind
      (fun column => column[lane.stageId * config.numEnvs + lane.env]?) =
        reports.laneObs lane [] field := by
    intro field
    rw [resetColumn_eq (Nat.zero_lt_of_lt hstage)]
    by_cases hfield : field ∈ reports.fields 0
    · rw [if_pos hfield, Option.bind_some, getElem?_map,
        workerLanes_getElem? hstage henv]
      simp [IdentityReports.laneObs, hfield]
    · simp [IdentityReports.laneObs, hfield]
  funext field
  simp only [workerSimulators, EnvWorker.resetEnv,
    EnvWorker.createEnvBatchDataproto]
  by_cases hepisode : field = .evalEpisodeId
  · rw [if_pos hepisode, if_pos hepisode, hcolumn]
  · rw [if_neg hepisode, if_neg hepisode]
    by_cases hlisted : field ∈ EnvWorker.stepFields
    · have hreset : field ∈ EnvWorker.resetFields := hlisted
      rw [if_pos hlisted, if_pos hreset, hcolumn]
    · have hreset : field ∉ EnvWorker.resetFields := hlisted
      rw [if_neg hlisted, if_neg hreset]
      rfl

theorem workerSimulators_obsAt (hstage : lane.stageId < config.stageNum)
    (henv : lane.env < config.numEnvs) :
    (workerSimulators config reports).obsAt lane actions slot =
      EnvWorker.createEnvBatchDataproto
        (reports.laneObs lane (actions.take slot)) := by
  unfold LaneSimulators.obsAt
  split
  case isTrue hslot =>
    rw [workerSimulators_reset hstage henv, hslot, take_zero]
  case isFalse => rfl

theorem createEnvBatchDataproto_eq {α : Type}
    (obs : EnvWorker.IdentityColumns α) (field : IdentityField) :
    EnvWorker.createEnvBatchDataproto obs field =
      if field = .suiteId then none else obs field := by
  cases field <;> rfl

end Rows

/-! ## Padded rows -/

namespace EnvLoop

section Columns

variable {ι : Type} {lanes : List ι}
  {row : ι → EnvWorker.IdentityColumns ℤ} {field : IdentityField}

theorem identityColumn_some
    (hrow : ∀ lane ∈ lanes, row lane field = some (value lane)) :
    identityColumn field (lanes.map row) = some (lanes.map value) := by
  unfold identityColumn
  induction lanes with
  | nil => rfl
  | cons lane lanes ih =>
    obtain ⟨hlane, hrest⟩ := forall_mem_cons.mp hrow
    rw [map_cons, mapM_cons, hlane, ih hrest]
    rfl

theorem identityColumn_none (hlanes : lanes ≠ [])
    (hrow : ∀ lane ∈ lanes, row lane field = none) :
    identityColumn field (lanes.map row) = none := by
  obtain ⟨lane, rest, rfl⟩ := exists_cons_of_ne_nil hlanes
  unfold identityColumn
  rw [map_cons, mapM_cons, hrow lane (mem_cons_self ..)]
  rfl

end Columns

section Padding

variable {A : Type} {library : BatchLibrary} {config : EnvLoopConfig}
  {reports : IdentityReports A} {activeStageIds : List ℕ}
  {state final : LoopState (EnvWorker.IdentityColumns ℤ) A Unit}
  {stageId : ℕ} {field : IdentityField}

def paddedRow (config : EnvLoopConfig) (reports : IdentityReports A)
    (field : IdentityField) (lane : EnvLane) (actions : List A) : List ℤ :=
  (range config.maxInteractions).map fun slot =>
    if field ∈ reports.fields slot then
      reports.value field lane (actions.take slot)
    else 0

section

variable (hstage : stageId < config.stageNum) {actions : EnvLane → List A}
  {slots : List (TrajectorySlot (EnvWorker.IdentityColumns ℤ) A Unit)}
  (hslots : Collected config (workerSimulators config reports) actions stageId config.maxInteractions 0 slots)

include hstage hslots

theorem slotColumn_eq (hslot : slots[index]? = some slot) :
    identityColumn field slot.obs =
      if field ≠ .suiteId ∧ field ∈ reports.fields index then
        some ((config.stageLanes stageId).map fun lane =>
          reports.value field lane ((actions lane).take index))
      else none := by
  have hindex : index < config.maxInteractions := by
    rw [← hslots.length]
    exact (List.getElem?_eq_some_iff.mp hslot).1
  have hrow : ∀ lane ∈ config.stageLanes stageId,
      (workerSimulators config reports).obsAt lane (actions lane) index field =
        if field = .suiteId then none
        else if field ∈ reports.fields index then
          some (reports.value field lane ((actions lane).take index))
        else none := by
    intro lane hlane
    obtain ⟨hown, _, henv⟩ := mem_stageLanes.mp hlane
    have hlength : ((actions lane).take index).length = index := by
      rw [length_take, hslots.actions lane hlane]
      omega
    rw [workerSimulators_obsAt (hown ▸ hstage) henv,
      createEnvBatchDataproto_eq, IdentityReports.laneObs, hlength]
  have hlanes : config.stageLanes stageId ≠ [] := by
    apply ne_nil_of_length_pos
    rw [config.length_stageLanes]
    exact Nat.mul_pos config.worldSize_pos config.numEnvs_pos
  rw [(hslots.complete index slot hslot).obs]
  by_cases hcarried : field ≠ .suiteId ∧ field ∈ reports.fields index
  · rw [if_pos hcarried]
    apply identityColumn_some
    intro lane hlane
    rw [hrow lane hlane, if_neg hcarried.1, if_pos hcarried.2]
  · rw [if_neg hcarried]
    apply identityColumn_none hlanes
    intro lane hlane
    rw [hrow lane hlane]
    by_cases hsuite : field = .suiteId
    · rw [if_pos hsuite]
    · rw [if_neg hsuite, if_neg (fun hfield => hcarried ⟨hsuite, hfield⟩)]

theorem stackDataprotoWithPadding_missing (hmissing : field = .suiteId ∨
      ∀ slot < config.maxInteractions, field ∉ reports.fields slot) :
    stackDataprotoWithPadding field (slots.map TrajectorySlot.obs) = none := by
  have hcolumns : ∀ column ∈ (slots.map TrajectorySlot.obs).map
      (identityColumn field), column = none := by
    intro column hcolumn
    rw [map_map] at hcolumn
    obtain ⟨slot, hslot, rfl⟩ := mem_map.mp hcolumn
    obtain ⟨index, hindex, hget⟩ := getElem_of_mem hslot
    have hslot? : slots[index]? = some slot := by
      rw [getElem?_eq_getElem hindex, hget]
    rw [Function.comp, slotColumn_eq hstage hslots hslot?, if_neg]
    rintro ⟨hsuite, hfield⟩
    cases hmissing with
    | inl heq => exact hsuite heq
    | inr hnever =>
      rw [hslots.length] at hindex
      exact hnever index hindex hfield
  have hnone : ((slots.map TrajectorySlot.obs).map
      (identityColumn field)).findSome? id = none := by
    rw [findSome?_eq_none_iff]
    exact hcolumns
  simp only [stackDataprotoWithPadding, hnone, Option.map_none]

theorem stackDataprotoWithPadding_carried (hsuite : field ≠ .suiteId)
    (hreported : reported < config.maxInteractions)
    (hfield : field ∈ reports.fields reported) :
    stackDataprotoWithPadding field (slots.map TrajectorySlot.obs) =
      some ((config.stageLanes stageId).map fun lane =>
        paddedRow config reports field lane (actions lane)) := by
  let columns := (slots.map TrajectorySlot.obs).map (identityColumn field)
  have hcount : columns.length = config.maxInteractions := by
    rw [length_map, length_map, hslots.length]
  have hcolumn : ∀ index column, columns[index]? = some column → column =
      if field ∈ reports.fields index then
        some ((config.stageLanes stageId).map fun lane =>
          reports.value field lane ((actions lane).take index))
      else none := by
    intro index column hget
    rw [getElem?_map, getElem?_map, Option.map_map,
      Option.map_eq_some_iff] at hget
    obtain ⟨slot, hslot, rfl⟩ := hget
    rw [Function.comp, slotColumn_eq hstage hslots hslot]
    simp only [ne_eq, hsuite, not_false_eq_true, true_and]
  have htemplate : ∃ template, columns.findSome? id = some template ∧
      template.length = (config.stageLanes stageId).length := by
    have hget := getElem?_eq_getElem (hcount ▸ hreported)
    have hsome := hcolumn reported _ hget
    rw [if_pos hfield] at hsome
    have hfound : (columns.findSome? id).isSome := by
      rw [findSome?_isSome_iff]
      exact ⟨_, getElem_mem _, by rw [hsome]; rfl⟩
    obtain ⟨template, htemplate⟩ := Option.isSome_iff_exists.mp hfound
    obtain ⟨column, hmember, heq⟩ := exists_of_findSome?_eq_some htemplate
    obtain ⟨index, hindex, hcolumn'⟩ := getElem_of_mem hmember
    have hvalue := hcolumn index column
      (by rw [getElem?_eq_getElem hindex, hcolumn'])
    rw [show column = some template from heq] at hvalue
    split at hvalue
    case isTrue =>
      cases hvalue
      exact ⟨_, htemplate, length_map ..⟩
    case isFalse => cases hvalue
  obtain ⟨template, hfind, hlength⟩ := htemplate
  have hstack : stackRows (columns.map fun column =>
      column.getD (template.map fun _ => 0)) =
        (config.stageLanes stageId).map fun lane =>
          paddedRow config reports field lane (actions lane) := by
    apply stackRows_eq
    · apply ne_nil_of_length_pos
      rw [length_map, hcount]
      exact config.maxInteractions_pos
    · intro lane _
      rw [paddedRow, length_map, length_range, length_map, hcount]
    · intro index column hget
      rw [getElem?_map, Option.map_eq_some_iff] at hget
      obtain ⟨read, hread, rfl⟩ := hget
      have hindex : index < config.maxInteractions := by
        rw [← hcount]
        exact (List.getElem?_eq_some_iff.mp hread).1
      have hpadded : ∀ lane, (paddedRow config reports field lane
          (actions lane))[index]? = some (if field ∈ reports.fields index then
              reports.value field lane ((actions lane).take index)
            else 0) := by
        intro lane
        rw [paddedRow, getElem?_map, getElem?_range hindex]
        rfl
      rw [hcolumn index read hread]
      simp only [hpadded]
      by_cases hhere : field ∈ reports.fields index
      · simp only [if_pos hhere, Option.getD_some, map_map]
        rfl
      · simp only [if_neg hhere, Option.getD_none, map_const', hlength,
          map_replicate]
  simp only [stackDataprotoWithPadding]
  rw [hfind, Option.map_some, hstack]

end

theorem collateIdentity_missing
    (hinv : LoopInv config (workerSimulators config reports) activeStageIds
      final) (hfinished : Finished final activeStageIds)
    (hrange : ∀ stageId ∈ activeStageIds, stageId < config.stageNum)
    (hne : activeStageIds ≠ [])
    (hmissing : field = .suiteId ∨
      ∀ slot < config.maxInteractions, field ∉ reports.fields slot) :
    collateIdentity library final activeStageIds field = none := by
  have hsorted : activeStageIds.mergeSort ≠ [] := by
    apply ne_nil_of_length_pos
    rw [length_mergeSort]
    exact length_pos_of_ne_nil hne
  obtain ⟨stageId, rest, hstages⟩ := exists_cons_of_ne_nil hsorted
  have hactive : stageId ∈ activeStageIds := by
    rw [← mem_mergeSort, hstages]
    exact mem_cons_self ..
  have hstage := stackDataprotoWithPadding_missing (hrange stageId hactive)
    (hinv.collected hfinished hactive) hmissing
  rw [collateIdentity, hstages, mapM_cons, hstage]
  rfl

theorem collateIdentity_carried (hlibrary : library.Documented)
    (hinv : LoopInv config (workerSimulators config reports) activeStageIds
      final) (hfinished : Finished final activeStageIds)
    (hrange : ∀ stageId ∈ activeStageIds, stageId < config.stageNum)
    (hsuite : field ≠ .suiteId) (hreported : reported < config.maxInteractions)
    (hfield : field ∈ reports.fields reported) :
    collateIdentity library final activeStageIds field =
      some ((activeStageIds.mergeSort.flatMap config.stageLanes).map
        fun lane =>
          paddedRow config reports field lane (final.actions lane)) := by
  have hmap : ∀ stageIds : List ℕ, (∀ stageId ∈ stageIds,
      stageId ∈ activeStageIds) → stageIds.mapM (fun stageId =>
        stackDataprotoWithPadding field
          ((final.stage stageId).trajectory.map TrajectorySlot.obs)) =
        some (stageIds.map fun stageId =>
          (config.stageLanes stageId).map fun lane =>
            paddedRow config reports field lane (final.actions lane)) := by
    intro stageIds hstages
    induction stageIds with
    | nil => rfl
    | cons stageId rest ih =>
      obtain ⟨hactive, hrest⟩ := forall_mem_cons.mp hstages
      have hstage := stackDataprotoWithPadding_carried
        (hrange stageId hactive) (hinv.collected hfinished hactive) hsuite
        hreported hfield
      rw [mapM_cons, hstage, ih hrest]
      rfl
  rw [collateIdentity, hmap _ fun stageId hmember =>
    mem_mergeSort.mp hmember]
  simp only [Option.bind_eq_bind, Option.bind_some, hlibrary.concat]
  rw [← flatMap_def, map_flatMap]
  rfl

end Padding

/-! ## Rollouts -/

section Rollouts

variable {A : Type} {library : BatchLibrary} {config : EnvLoopConfig}
  {reports : IdentityReports A} {activeStageIds : List ℕ}
  {state final : LoopState (EnvWorker.IdentityColumns ℤ) A Unit}

def IdentityCarried (library : BatchLibrary) (config : EnvLoopConfig)
    (reports : IdentityReports A)
    (final : LoopState (EnvWorker.IdentityColumns ℤ) A Unit)
    (activeStageIds : List ℕ) (field : IdentityField) (slot : ℕ) : Prop :=
  ∃ rows, collateIdentity library final activeStageIds field = some rows ∧
    ∀ (index : ℕ) lane,
      (activeStageIds.mergeSort.flatMap config.stageLanes)[index]? =
        some lane →
      ∃ row, rows[index]? = some row ∧ row[slot]? =
          some (reports.value field lane ((final.actions lane).take slot))

theorem identityCarried_of_ne (hlibrary : library.Documented)
    (hinv : LoopInv config (workerSimulators config reports) activeStageIds
      final) (hfinished : Finished final activeStageIds)
    (hrange : ∀ stageId ∈ activeStageIds, stageId < config.stageNum)
    (hsuite : field ≠ .suiteId) (hslot : slot < config.maxInteractions)
    (hfield : field ∈ reports.fields slot) :
    IdentityCarried library config reports final activeStageIds field
      slot := by
  have hrows := collateIdentity_carried hlibrary hinv hfinished hrange hsuite
    hslot hfield
  refine ⟨_, hrows, ?_⟩
  intro index lane hlane
  refine ⟨paddedRow config reports field lane (final.actions lane), ?_, ?_⟩
  · rw [getElem?_map, hlane]
    rfl
  · rw [paddedRow, getElem?_map, getElem?_range hslot,
      Option.map_some, if_pos hfield]

/-- A field that is reported in every slot and does not change is read back
by the validation of a group. -/
theorem constantTrajectoryValues_reported (hlibrary : library.Documented)
    (hinv : LoopInv config (workerSimulators config reports) activeStageIds
      final) (hfinished : Finished final activeStageIds)
    (hrange : ∀ stageId ∈ activeStageIds, stageId < config.stageNum)
    {field : IdentityField} (hsuite : field ≠ .suiteId)
    (hfields : ∀ slot < config.maxInteractions, field ∈ reports.fields slot)
    (hconstant : ∀ lane ∈ activeStageIds.mergeSort.flatMap config.stageLanes,
      ∀ slot < config.maxInteractions,
        reports.value field lane ((final.actions lane).take slot) =
          reports.value field lane []) :
    constantTrajectoryValues (collateIdentity library final activeStageIds)
        (activeStageIds.mergeSort.flatMap config.stageLanes).length field =
      .ok ((activeStageIds.mergeSort.flatMap config.stageLanes).map
        fun lane => reports.value field lane []) := by
  have hpos := config.maxInteractions_pos
  have hrows := collateIdentity_carried hlibrary hinv hfinished hrange hsuite
    hpos (hfields 0 hpos)
  apply constantTrajectoryValues_eq hrows
  intro lane hlane
  constructor
  · apply ne_nil_of_length_pos
    rw [paddedRow, length_map, length_range]
    exact hpos
  · intro other hother
    obtain ⟨slot, hslot, rfl⟩ := mem_map.mp hother
    have hlt := mem_range.mp hslot
    rw [if_pos (hfields slot hlt), hconstant lane hlane slot hlt]

/-- Every reported field reaches the rollout exactly when the suite is not
one of them.  Without the suite no group passes the validation. -/
theorem identity_carried_iff (hlibrary : library.Documented)
    (hstart : start library config (workerSimulators config reports)
      activeStageIds = .ok state)
    {events : List (Transition.Event
      (LoopState (EnvWorker.IdentityColumns ℤ) A Unit) (LoopLabel A) Unit)}
    (hrun : Transition.Run
      (machine library config (workerSimulators config reports)
        activeStageIds) state events final)
    (hfinished : Finished final activeStageIds) :
    ((∀ slot < config.maxInteractions, ∀ field ∈ reports.fields slot,
        IdentityCarried library config reports final activeStageIds field
          slot) ↔
      ∀ slot < config.maxInteractions, .suiteId ∉ reports.fields slot) ∧
    (∀ size, constantTrajectoryValues
        (collateIdentity library final activeStageIds) size .suiteId =
      .error (.missing "obs.suite_id")) ∧
    ∀ field : IdentityField, field ≠ .suiteId →
      (∀ slot < config.maxInteractions, field ∈ reports.fields slot) →
      (∀ lane ∈ activeStageIds.mergeSort.flatMap config.stageLanes,
        ∀ slot < config.maxInteractions,
          reports.value field lane ((final.actions lane).take slot) =
            reports.value field lane []) →
      constantTrajectoryValues
          (collateIdentity library final activeStageIds)
          (activeStageIds.mergeSort.flatMap config.stageLanes).length field =
        .ok ((activeStageIds.mergeSort.flatMap config.stageLanes).map
          fun lane => reports.value field lane []) := by
  have hinv := loopInv_of_run hlibrary hstart hrun
  obtain ⟨hne, _, hrange⟩ := checks_of_start hstart
  have hmissing : collateIdentity library final activeStageIds .suiteId =
      none :=
    collateIdentity_missing hinv hfinished hrange hne (.inl rfl)
  refine ⟨?_, ?_, ?_⟩
  · constructor
    · intro hcarried slot hslot hsuite
      obtain ⟨rows, hrows, _⟩ := hcarried slot hslot .suiteId hsuite
      simp [hmissing] at hrows
    · intro hsuite slot hslot field hfield
      apply identityCarried_of_ne hlibrary hinv hfinished hrange _ hslot
        hfield
      rintro rfl
      exact hsuite slot hslot hfield
  · intro size
    unfold constantTrajectoryValues
    rw [hmissing]
    rfl
  · intro field hsuite hfields hconstant
    exact constantTrajectoryValues_reported hlibrary hinv hfinished hrange
      hsuite hfields hconstant

/-! ## A group of one suite -/

def groupOfTwo : EnvLoopConfig where
  worldSize := 1
  stageNum := 1
  numEnvs := 2
  numEnvs_pos := Nat.two_pos
  worldSize_pos := Nat.one_pos
  maxInteractions := 2
  maxInteractions_pos := Nat.two_pos
  partitionByEnvWorker := false
  partitionSize := 0

def suiteOneReports (suite : Bool) : IdentityReports ℕ where
  fields _ := if suite then episodeIdentityFields
    else episodeIdentityFields.erase .suiteId
  value field lane _ := match field with
    | .suiteId => 1
    | .layoutId | .environmentSeed => 7
    | .evalEpisodeId | .policySeed => lane.env

def groupLabels : List (LoopLabel ℕ) :=
  [.actions 0 [[1, 2]], .result 0, .actions 0 [[3, 4]], .result 0]

theorem identity_carried_without_suite : ∃ state events final,
      start evenBatches groupOfTwo
        (workerSimulators groupOfTwo (suiteOneReports false)) [0] = .ok state ∧
      Transition.Run (machine evenBatches groupOfTwo
        (workerSimulators groupOfTwo (suiteOneReports false)) [0]) state
        events final ∧
      Finished final [0] ∧
      IdentityCarried evenBatches groupOfTwo (suiteOneReports false) final
        [0] .policySeed 1 := by
  have hend : completes evenBatches groupOfTwo
      (workerSimulators groupOfTwo (suiteOneReports false)) [0]
      groupLabels = true := by decide +kernel
  obtain ⟨state, events, final, hstart, hrun, hfinished⟩ :=
    run_of_completes hend
  have hiff := (identity_carried_iff evenBatches_documented hstart hrun
    hfinished).1
  have hcarried := hiff.mpr (by decide)
  exact ⟨state, events, final, hstart, hrun, hfinished,
    hcarried 1 (by decide) .policySeed (by decide)⟩

/-- Every observation tells suite 1, and the rollout has no suite. -/
theorem suite_dropped : ∃ state events final, start evenBatches groupOfTwo
        (workerSimulators groupOfTwo (suiteOneReports true)) [0] = .ok state ∧
      Transition.Run (machine evenBatches groupOfTwo
        (workerSimulators groupOfTwo (suiteOneReports true)) [0]) state
        events final ∧
      Finished final [0] ∧
      IdentityField.suiteId ∈ (suiteOneReports true).fields 0 ∧
      ¬ IdentityCarried evenBatches groupOfTwo (suiteOneReports true) final
        [0] .suiteId 0 ∧
      constantTrajectoryValues (collateIdentity evenBatches final [0]) 2
        .suiteId = .error (.missing "obs.suite_id") := by
  have hend : completes evenBatches groupOfTwo
      (workerSimulators groupOfTwo (suiteOneReports true)) [0]
      groupLabels = true := by decide +kernel
  obtain ⟨state, events, final, hstart, hrun, hfinished⟩ :=
    run_of_completes hend
  have hinv := loopInv_of_run evenBatches_documented hstart hrun
  obtain ⟨hne, _, hrange⟩ := checks_of_start hstart
  have hmissing : collateIdentity evenBatches final [0] .suiteId = none :=
    collateIdentity_missing hinv hfinished hrange hne (.inl rfl)
  refine ⟨state, events, final, hstart, hrun, hfinished, by decide, ?_, ?_⟩
  · rintro ⟨rows, hrows, _⟩
    simp [hmissing] at hrows
  · unfold constantTrajectoryValues
    rw [hmissing]
    rfl

end Rollouts

end EnvLoop

end VerlVla
