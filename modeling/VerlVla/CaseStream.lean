import Mathlib.Data.List.Range
import VerlVla.Checks

/-!
# The case stream of the simulators

Every simulator process of a RoboDojo run draws its cases from lists of the
configuration with cursors of its own.  A reset takes the next cases of one
mode; evaluation cases can be replaced at run time.
-/

namespace VerlVla

open List

structure CaseList where
  layouts : List ℤ
  seeds : List ℤ
  nonempty : layouts ≠ []
  aligned : seeds.length = layouts.length
  deriving DecidableEq

structure SelectedCase where
  layout : ℤ
  policySeed : ℤ
  caseId : ℕ
  deriving DecidableEq

namespace CaseList

def size (cases : CaseList) : ℕ := cases.layouts.length

theorem size_pos (cases : CaseList) : 0 < cases.size :=
  length_pos_iff.mpr cases.nonempty

def layoutAt (cases : CaseList) (index : ℕ) : ℤ :=
  cases.layouts.get ⟨index % cases.size, Nat.mod_lt _ cases.size_pos⟩

def seedAt (cases : CaseList) (index : ℕ) : ℤ :=
  cases.seeds.get ⟨index % cases.size, by
    rw [cases.aligned]
    exact Nat.mod_lt _ cases.size_pos⟩

def caseAt (cases : CaseList) (index : ℕ) : SelectedCase where
  layout := cases.layoutAt index
  policySeed := cases.seedAt index
  caseId := index % cases.size

theorem layoutAt_mod (cases : CaseList) (index : ℕ) :
    cases.layoutAt (index % cases.size) = cases.layoutAt index := by
  simp [layoutAt]

theorem seedAt_mod (cases : CaseList) (index : ℕ) :
    cases.seedAt (index % cases.size) = cases.seedAt index := by
  simp [seedAt]

theorem caseAt_mod (cases : CaseList) (index : ℕ) :
    cases.caseAt (index % cases.size) = cases.caseAt index := by
  simp [caseAt, layoutAt_mod, seedAt_mod]

end CaseList

/-! ## Configuration -/

/-- The schedule fields of the RoboDojo simulator configuration, with the
checks of its `__post_init__` that concern them. -/
structure RoboDojoConfig where
  layoutIds : List ℤ
  trainLayoutSchedule : List ℤ
  trainPolicySeedSchedule : List ℤ
  trainLayoutRepeat : ℕ
  trainPolicySeedStart : Option ℤ
  trainCaseCursorStart : ℕ
  evalPolicySeedSchedule : List ℤ
  seed : ℤ
  layoutIds_ne : layoutIds ≠ []
  trainSeeds_aligned : trainPolicySeedSchedule ≠ [] →
    trainPolicySeedSchedule.length = trainLayoutSchedule.length
  repeat_pos : 0 < trainLayoutRepeat
  repeat_generated : trainLayoutRepeat ≠ 1 → trainPolicySeedSchedule = []
  start_generated : trainPolicySeedStart ≠ none → trainPolicySeedSchedule = []
  evalSeeds_aligned : evalPolicySeedSchedule ≠ [] →
    evalPolicySeedSchedule.length = layoutIds.length

namespace RoboDojoConfig

variable (config : RoboDojoConfig)

def trainCases : CaseList :=
  if hschedule : config.trainLayoutSchedule = [] then
    { layouts := config.layoutIds
      seeds := replicate config.layoutIds.length config.seed
      nonempty := config.layoutIds_ne
      aligned := length_replicate }
  else if hseeds : config.trainPolicySeedSchedule = [] then
    { layouts := config.trainLayoutSchedule
      seeds := replicate config.trainLayoutSchedule.length config.seed
      nonempty := hschedule
      aligned := length_replicate }
  else
    { layouts := config.trainLayoutSchedule
      seeds := config.trainPolicySeedSchedule
      nonempty := hschedule
      aligned := config.trainSeeds_aligned hseeds }

def evalCases : CaseList := if hseeds : config.evalPolicySeedSchedule = [] then
    { layouts := config.layoutIds
      seeds := replicate config.layoutIds.length config.seed
      nonempty := config.layoutIds_ne
      aligned := length_replicate }
  else
    { layouts := config.layoutIds
      seeds := config.evalPolicySeedSchedule
      nonempty := config.layoutIds_ne
      aligned := config.evalSeeds_aligned hseeds }

theorem trainCases_layouts : config.trainCases.layouts =
      if config.trainLayoutSchedule = [] then config.layoutIds
      else config.trainLayoutSchedule := by
  unfold trainCases
  split_ifs <;> rfl

/-- Training cases are one global stream with generated policy seeds. -/
def generatesSeeds : Bool :=
  config.trainLayoutRepeat ≠ 1 || config.trainPolicySeedStart.isSome

def seedStart : ℤ := config.trainPolicySeedStart.getD config.seed

def expandedSize : ℕ := config.trainCases.size * config.trainLayoutRepeat

def envBenchmarkSize : ℕ := config.layoutIds.length

def streamCase (index : ℕ) : SelectedCase where
  layout := config.trainCases.layoutAt
    (index % config.expandedSize / config.trainLayoutRepeat)
  policySeed := config.seedStart + index
  caseId := index % config.expandedSize

theorem streamCase_layout (index : ℕ) : (config.streamCase index).layout =
      config.trainCases.layoutAt (index / config.trainLayoutRepeat) := by
  have hdiv : index % config.expandedSize / config.trainLayoutRepeat =
      index / config.trainLayoutRepeat % config.trainCases.size := by
    rw [expandedSize, Nat.mul_comm, Nat.mod_mul_right_div_self]
  simp only [streamCase]
  rw [hdiv, CaseList.layoutAt_mod]

end RoboDojoConfig

/-! ## Processes -/

/-- Worker ranks, pipeline stages and the vector width of a simulator. -/
structure EnvTopology where
  worldSize : ℕ
  stageNum : ℕ
  numEnvs : ℕ
  numEnvs_pos : 0 < numEnvs

/-- One simulator process. -/
structure EnvSlot where
  stageId : ℕ
  rank : ℕ
  deriving DecidableEq

namespace EnvTopology

variable (topology : EnvTopology)

def parallelWidth : ℕ :=
  topology.worldSize * topology.stageNum * topology.numEnvs

def localOffset (slot : EnvSlot) : ℕ :=
  (slot.stageId * topology.worldSize + slot.rank) * topology.numEnvs

/-- The share of a process in the reset wave its cursor stands at. -/
def absoluteIndices (slot : EnvSlot) (cursor : ℕ) : List ℕ :=
  (range topology.numEnvs).map fun offset =>
    cursor / topology.numEnvs * topology.parallelWidth +
      topology.localOffset slot + offset

/-- The order in which a rollout batch is collated: all ranks of stage 0,
then all ranks of stage 1. -/
def stageMajor {α : Type} (rows : EnvSlot → List α) : List α :=
  (range topology.stageNum).flatMap fun stageId =>
    (range topology.worldSize).flatMap fun rank =>
      rows ⟨stageId, rank⟩

end EnvTopology

inductive ResetMode
  | train
  | eval
  deriving DecidableEq

/-- Evaluation cases given at run time, one for each environment. -/
structure RuntimeCases (topology : EnvTopology) where
  layouts : List ℤ
  seeds : List ℤ
  layouts_length : layouts.length = topology.numEnvs
  seeds_length : seeds.length = topology.numEnvs

def RuntimeCases.toCaseList {topology : EnvTopology}
    (cases : RuntimeCases topology) : CaseList where
  layouts := cases.layouts
  seeds := cases.seeds
  nonempty := by
    apply length_pos_iff.mp
    rw [cases.layouts_length]
    exact topology.numEnvs_pos
  aligned := cases.seeds_length.trans cases.layouts_length.symm

structure CaseState (topology : EnvTopology) where
  trainCaseCursor : ℕ
  evalCaseCursor : ℕ
  runtimeEval : Option (RuntimeCases topology)

/-- What `get_state` returns. -/
structure CaseCursors where
  trainCaseCursor : ℕ
  evalCaseCursor : ℕ
  deriving DecidableEq

namespace CaseState

variable {topology : EnvTopology}

def initial (config : RoboDojoConfig) : CaseState topology where
  trainCaseCursor := config.trainCaseCursorStart
  evalCaseCursor := 0
  runtimeEval := none

def getState (state : CaseState topology) : CaseCursors where
  trainCaseCursor := state.trainCaseCursor
  evalCaseCursor := state.evalCaseCursor

def loadState (state : CaseState topology) (saved : CaseCursors) :
    CaseState topology :=
  { state with
    trainCaseCursor := saved.trainCaseCursor
    evalCaseCursor := saved.evalCaseCursor }

def activeEvalCases (config : RoboDojoConfig)
    (state : CaseState topology) : CaseList :=
  match state.runtimeEval with
  | some cases => cases.toCaseList
  | none => config.evalCases

def nextCases (config : RoboDojoConfig) (slot : EnvSlot)
    (state : CaseState topology) :
    ResetMode → List SelectedCase × CaseState topology
  | .eval =>
    let indices := topology.absoluteIndices slot state.evalCaseCursor
    (indices.map (state.activeEvalCases config).caseAt, { state with
        evalCaseCursor := state.evalCaseCursor + topology.numEnvs })
  | .train =>
    let cursor := state.trainCaseCursor
    if config.generatesSeeds then
      let indices := topology.absoluteIndices slot cursor
      (indices.map config.streamCase,
        { state with trainCaseCursor := cursor + topology.numEnvs })
    else
      let cases := config.trainCases
      ((range topology.numEnvs).map fun offset =>
          cases.caseAt (cursor + offset),
        { state with
          trainCaseCursor := (cursor + topology.numEnvs) % cases.size })

/-- The part of `env_reset` that moves the schedule. -/
def envReset (config : RoboDojoConfig) (slot : EnvSlot)
    (state : CaseState topology) (mode : ResetMode) (resetEval : Bool) :
    List SelectedCase × CaseState topology :=
  let opened := if resetEval then { state with evalCaseCursor := 0 } else state
  opened.nextCases config slot mode

structure RuntimeCasesError where
  layouts : ℕ
  seeds : ℕ
  numEnvs : ℕ
  deriving DecidableEq

def setRuntimeEvalCases (state : CaseState topology)
    (layouts seeds : List ℤ) :
    Except RuntimeCasesError (CaseState topology) :=
  if haligned : layouts.length = topology.numEnvs ∧
      seeds.length = topology.numEnvs then
    .ok
      { state with
        runtimeEval := some ⟨layouts, seeds, haligned.1, haligned.2⟩
        evalCaseCursor := 0 }
  else
    .error ⟨layouts.length, seeds.length, topology.numEnvs⟩

end CaseState

end VerlVla
