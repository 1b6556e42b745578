import Mathlib.Data.List.GetD
import Mathlib.Data.Nat.Prime.Basic
import VerlVla.CollectionSpec
import VerlVla.StrideRotation

/-!
# The predeclared schedule of a window

Each candidate of a window has its task, suite, layout and seeds before any
outcome is known.  The conditions take turns, and each condition goes through
its pool of layouts with a stride of seven.
-/

namespace VerlVla

open List
namespace CollectionStore

/-- What a schedule is made from, besides the window. -/
structure ScheduleArgs where
  taskNames : List String
  suiteIds : List ℤ
  trainingLayouts : String × ℤ → Option (List ℤ)
  runSeed : ℤ

def CandidateAssignment.condition (assignment : CandidateAssignment) :
    String × ℤ :=
  (assignment.taskName, assignment.suiteId)

namespace ScheduleArgs

variable (args : ScheduleArgs)

def conditionCount : ℕ := args.taskNames.length * args.suiteIds.length

def conditionAt (slot : ℕ) : String × ℤ :=
  (args.taskNames.getD (slot / args.suiteIds.length) "",
    args.suiteIds.getD (slot % args.suiteIds.length) 0)

def layoutSchedule (slot : ℕ) : List ℤ :=
  (args.trainingLayouts (args.conditionAt slot)).getD []

end ScheduleArgs

section Assignment

variable (digest : String → ℕ) (spec : CollectionWindowSpec)
  (args : ScheduleArgs)

def layoutSlot (candidateIndex : ℕ) : ℕ :=
  (candidateIndex / args.conditionCount * 7 +
      candidateIndex % args.conditionCount * 11 + spec.intendedUpdate - 1) %
    (args.layoutSchedule (candidateIndex % args.conditionCount)).length

def seedPayload (candidateIndex : ℕ) : String := let seedNamespace :=
    if spec.policySeedNamespace = "" then spec.runId
    else spec.policySeedNamespace
  s!"{seedNamespace}:{args.runSeed}:{spec.policy.rolloutPolicyVersion}:" ++
    s!"{spec.intendedUpdate}:{candidateIndex}"

def assignmentAt (candidateIndex : ℕ) : CandidateAssignment :=
  let conditionSlot := candidateIndex % args.conditionCount
  let seedBase := digest (seedPayload spec args candidateIndex) % 2000000000
  { candidateIndex
    taskName := (args.conditionAt conditionSlot).1
    taskId := conditionSlot / args.suiteIds.length
    suiteId := (args.conditionAt conditionSlot).2
    layoutId := (args.layoutSchedule conditionSlot).getD
      (layoutSlot spec args candidateIndex) 0
    policySeeds := (range spec.groupSize).map fun member =>
      ((seedBase + member : ℕ) : ℤ) }

def candidateAssignment (candidateIndex : ℕ) :
    Except String CandidateAssignment := do
  require (candidateIndex < spec.maxCandidateGroups)
    (s!"candidate_index must be in [0,{spec.maxCandidateGroups}), got " ++
      s!"{candidateIndex}.")
  require (args.taskNames ≠ []) "task_names must not be empty."
  require (args.suiteIds ≠ [] ∧ args.suiteIds.Nodup)
    "suite_ids must contain at least one unique RoboDojo suite id."
  let pool := args.layoutSchedule (candidateIndex % args.conditionCount)
  require (pool ≠ [] ∧ pool.Nodup)
    ("training_layouts must provide a non-empty unique layout pool for " ++
      "every (task,suite)")
  .ok (assignmentAt digest spec args candidateIndex)

/-- The assignments of a window to one task and suite, in order. -/
def laneAttempts (lane : String × ℤ) : List CandidateAssignment :=
  ((range spec.maxCandidateGroups).filterMap fun candidateIndex =>
    (candidateAssignment digest spec args candidateIndex).toOption).filter
      fun assignment => assignment.condition = lane

end Assignment

structure ScheduleArgs.Valid (args : ScheduleArgs) : Prop where
  tasks : args.taskNames ≠ []
  distinctTasks : args.taskNames.Nodup
  suites : args.suiteIds ≠ []
  distinctSuites : args.suiteIds.Nodup
  pools : ∀ task ∈ args.taskNames, ∀ suite ∈ args.suiteIds, ∃ pool,
    args.trainingLayouts (task, suite) = some pool ∧ pool ≠ [] ∧ pool.Nodup

/-- Consecutive candidates, as many as there are conditions, have each
condition once. -/
def BlocksCovered (digest : String → ℕ) (spec : CollectionWindowSpec)
    (args : ScheduleArgs) : Prop :=
  ∀ start, start + args.conditionCount ≤ spec.maxCandidateGroups →
    ∀ task ∈ args.taskNames, ∀ suite ∈ args.suiteIds,
      ∃! index, (start ≤ index ∧ index < start + args.conditionCount) ∧
        ∃ assignment,
          candidateAssignment digest spec args index = .ok assignment ∧
            assignment.condition = (task, suite)

/-- Consecutive attempts of a lane, as many as its pool has layouts, use each
layout once. -/
def LanesCovered (digest : String → ℕ) (spec : CollectionWindowSpec)
    (args : ScheduleArgs) : Prop :=
  ∀ task ∈ args.taskNames, ∀ suite ∈ args.suiteIds, ∀ pool,
    args.trainingLayouts (task, suite) = some pool → ∀ first,
      first + pool.length ≤
          (laneAttempts digest spec args (task, suite)).length →
        (((laneAttempts digest spec args (task, suite)).drop first).take
          pool.length |>.map CandidateAssignment.layoutId).Perm pool

def BudgetIndependent (digest : String → ℕ) (spec : CollectionWindowSpec)
    (args : ScheduleArgs) : Prop :=
  ∀ other : CollectionWindowSpec,
    other.toWindowFields = { spec.toWindowFields with
        maxCandidateGroups := other.maxCandidateGroups } →
      ∀ index, index < spec.maxCandidateGroups →
        index < other.maxCandidateGroups →
          candidateAssignment digest other args index =
            candidateAssignment digest spec args index

/-! ## Slots of conditions -/

section Slots

variable {args : ScheduleArgs}

theorem ScheduleArgs.Valid.conditionCount_pos (hvalid : args.Valid) :
    0 < args.conditionCount :=
  Nat.mul_pos (length_pos_of_ne_nil hvalid.tasks)
    (length_pos_of_ne_nil hvalid.suites)

structure SlotOf (args : ScheduleArgs) (lane : String × ℤ) (slot : ℕ) :
    Prop where
  lt : slot < args.conditionCount
  condition : args.conditionAt slot = lane

theorem exists_slot (htask : task ∈ args.taskNames)
    (hsuite : suite ∈ args.suiteIds) :
    ∃ slot, SlotOf args (task, suite) slot := by
  obtain ⟨taskSlot, htaskSlot, rfl⟩ := mem_iff_getElem.mp htask
  obtain ⟨suiteSlot, hsuiteSlot, rfl⟩ := mem_iff_getElem.mp hsuite
  have hpositive : 0 < args.suiteIds.length := by omega
  refine ⟨args.suiteIds.length * taskSlot + suiteSlot, ?_, ?_⟩
  · have hrows : args.suiteIds.length * (taskSlot + 1) ≤
        args.suiteIds.length * args.taskNames.length :=
      Nat.mul_le_mul_left _ htaskSlot
    rw [ScheduleArgs.conditionCount, Nat.mul_comm args.taskNames.length]
    rw [Nat.mul_add, Nat.mul_one] at hrows
    omega
  · have hdiv : (args.suiteIds.length * taskSlot + suiteSlot) /
        args.suiteIds.length = taskSlot := by
      rw [Nat.mul_add_div hpositive, Nat.div_eq_of_lt hsuiteSlot, Nat.add_zero]
    have hmod : (args.suiteIds.length * taskSlot + suiteSlot) %
        args.suiteIds.length = suiteSlot := by
      rw [Nat.mul_comm]
      exact Nat.mul_add_mod_of_lt hsuiteSlot
    unfold ScheduleArgs.conditionAt
    rw [hdiv, hmod, getD_eq_getElem _ _ htaskSlot,
      getD_eq_getElem _ _ hsuiteSlot]

theorem conditionAt_mem (hslot : slot < args.conditionCount) :
    ∃ task ∈ args.taskNames, ∃ suite ∈ args.suiteIds,
      args.conditionAt slot = (task, suite) := by
  have hpositive : 0 < args.suiteIds.length := by
    apply Nat.pos_of_ne_zero
    intro hzero
    rw [ScheduleArgs.conditionCount, hzero, Nat.mul_zero] at hslot
    exact Nat.not_lt_zero _ hslot
  have htask : slot / args.suiteIds.length < args.taskNames.length :=
    Nat.div_lt_of_lt_mul (by
      rw [Nat.mul_comm]
      exact hslot)
  have hsuite := Nat.mod_lt slot hpositive
  refine ⟨_, getElem_mem htask, _, getElem_mem hsuite, ?_⟩
  unfold ScheduleArgs.conditionAt
  rw [getD_eq_getElem _ _ htask, getD_eq_getElem _ _ hsuite]

theorem ScheduleArgs.Valid.slot_unique (hvalid : args.Valid)
    (hleft : SlotOf args lane left) (hright : SlotOf args lane right) :
    left = right := by
  have hpositive := length_pos_of_ne_nil hvalid.suites
  have hrow : ∀ {slot : ℕ}, slot < args.conditionCount →
      slot / args.suiteIds.length < args.taskNames.length := by
    intro slot hslot
    apply Nat.div_lt_of_lt_mul
    rw [Nat.mul_comm]
    exact hslot
  have hsame := hleft.condition.trans hright.condition.symm
  unfold ScheduleArgs.conditionAt at hsame
  obtain ⟨htask, hsuite⟩ := Prod.mk.inj hsame
  rw [getD_eq_getElem _ _ (hrow hleft.lt),
    getD_eq_getElem _ _ (hrow hright.lt),
    hvalid.distinctTasks.getElem_inj_iff] at htask
  rw [getD_eq_getElem _ _ (Nat.mod_lt _ hpositive),
    getD_eq_getElem _ _ (Nat.mod_lt _ hpositive),
    hvalid.distinctSuites.getElem_inj_iff] at hsuite
  rw [← Nat.div_add_mod left args.suiteIds.length,
    ← Nat.div_add_mod right args.suiteIds.length, htask, hsuite]

theorem ScheduleArgs.Valid.pool (hvalid : args.Valid)
    (hslot : slot < args.conditionCount) :
    args.trainingLayouts (args.conditionAt slot) =
        some (args.layoutSchedule slot) ∧
      args.layoutSchedule slot ≠ [] ∧ (args.layoutSchedule slot).Nodup := by
  obtain ⟨task, htask, suite, hsuite, hcondition⟩ := conditionAt_mem hslot
  obtain ⟨pool, hpool, hsome, hnodup⟩ := hvalid.pools task htask suite hsuite
  unfold ScheduleArgs.layoutSchedule
  rw [hcondition, hpool]
  exact ⟨rfl, hsome, hnodup⟩

end Slots

/-! ## Attempts of a lane -/

section Attempts

variable {digest : String → ℕ} {spec : CollectionWindowSpec}
  {args : ScheduleArgs}

theorem candidateAssignment_eq_ok (hvalid : args.Valid)
    (hindex : index < spec.maxCandidateGroups) :
    candidateAssignment digest spec args index =
      .ok (assignmentAt digest spec args index) := by
  have hslot := Nat.mod_lt index hvalid.conditionCount_pos
  obtain ⟨-, hpool⟩ := hvalid.pool hslot
  unfold candidateAssignment
  simp only [require_of hindex, require_of hvalid.tasks,
    require_of (And.intro hvalid.suites hvalid.distinctSuites),
    require_of hpool]
  rfl

theorem assignmentAt_condition (index : ℕ) :
    (assignmentAt digest spec args index).condition =
      args.conditionAt (index % args.conditionCount) := rfl

section

variable (hvalid : args.Valid) {slot : ℕ} (hslot : SlotOf args lane slot)

include hvalid hslot

theorem condition_eq_iff (index : ℕ) :
    (assignmentAt digest spec args index).condition = lane ↔
      index % args.conditionCount = slot := by
  rw [assignmentAt_condition]
  constructor
  · intro hcondition
    exact hvalid.slot_unique
      ⟨Nat.mod_lt _ hvalid.conditionCount_pos, hcondition⟩ hslot
  · intro hsame
    rw [hsame]
    exact hslot.condition

theorem laneAttempts_eq : laneAttempts digest spec args lane =
      (range (residueCount args.conditionCount slot
        spec.maxCandidateGroups)).map fun turn =>
          assignmentAt digest spec args
            (slot + turn * args.conditionCount) := by
  have hall : ((range spec.maxCandidateGroups).filterMap fun index =>
      (candidateAssignment digest spec args index).toOption) =
      (range spec.maxCandidateGroups).map (assignmentAt digest spec args) := by
    rw [← filterMap_eq_map]
    apply filterMap_congr
    intro index hindex
    rw [candidateAssignment_eq_ok hvalid (mem_range.mp hindex)]
    rfl
  unfold laneAttempts
  rw [hall, filter_map]
  have hfilter : (range spec.maxCandidateGroups).filter
      ((fun assignment : CandidateAssignment =>
        decide (assignment.condition = lane)) ∘
          assignmentAt digest spec args) =
      (range spec.maxCandidateGroups).filter fun index =>
        index % args.conditionCount = slot := by
    apply filter_congr
    intro index _
    exact decide_eq_decide.mpr (condition_eq_iff hvalid hslot index)
  rw [hfilter, filter_residue_range hslot.lt, map_map]
  rfl

theorem layouts_of_attempts
    (hfits : first + turns ≤ (laneAttempts digest spec args lane).length) :
    (((laneAttempts digest spec args lane).drop first).take turns).map
        CandidateAssignment.layoutId =
      (rotation (args.layoutSchedule slot).length
        (first * 7 + slot * 11 + spec.intendedUpdate - 1) 7 turns).map
        fun layout => (args.layoutSchedule slot).getD layout 0 := by
  rw [laneAttempts_eq hvalid hslot, length_map, length_range] at hfits
  rw [laneAttempts_eq hvalid hslot, ← map_drop, ← map_take,
    map_map, range_eq_range', drop_range',
    take_range'_of_length_ge (by omega), Nat.mul_one, Nat.zero_add,
    rotation, map_map, range_eq_range', range'_eq_map_range,
    map_map, range_eq_range']
  apply map_congr_left
  intro turn _
  have hindex : slot + (first + turn) * args.conditionCount =
      args.conditionCount * (first + turn) + slot := by
    rw [Nat.mul_comm, Nat.add_comm]
  have hdiv : (slot + (first + turn) * args.conditionCount) /
      args.conditionCount = first + turn := by
    rw [hindex, Nat.mul_add_div hvalid.conditionCount_pos,
      Nat.div_eq_of_lt hslot.lt, Nat.add_zero]
  have hmod : (slot + (first + turn) * args.conditionCount) %
      args.conditionCount = slot := by
    rw [hindex, Nat.mul_comm]
    exact Nat.mul_add_mod_of_lt hslot.lt
  have hupdate : 0 < spec.intendedUpdate := by
    have hchecked := spec.checked
    simp only [WindowFields.postInit, require_bind_eq_ok] at hchecked
    exact hchecked.2.1
  have hslots : layoutSlot spec args
      (slot + (first + turn) * args.conditionCount) =
      (first * 7 + slot * 11 + spec.intendedUpdate - 1 + turn * 7) %
        (args.layoutSchedule slot).length := by
    unfold layoutSlot
    rw [hdiv, hmod]
    congr 1
    omega
  simp only [Function.comp_apply, assignmentAt, hmod, hslots]

theorem length_laneAttempts : (laneAttempts digest spec args lane).length =
      residueCount args.conditionCount slot spec.maxCandidateGroups := by
  rw [laneAttempts_eq hvalid hslot, length_map, length_range]

end

theorem map_getD_range {pool : List ℤ} :
    (range pool.length).map (fun layout => pool.getD layout 0) = pool := by
  apply ext_getElem
  · rw [length_map, length_range]
  · intro layout _ hlayout
    rw [getElem_map, getElem_range, getD_eq_getElem _ _ hlayout]

theorem blocks_covered (hvalid : args.Valid) :
    BlocksCovered digest spec args := by
  intro start hfits task htask suite hsuite
  obtain ⟨slot, hslot⟩ := exists_slot htask hsuite
  have hpositive := hvalid.conditionCount_pos
  have hassigned : ∀ index, index < start + args.conditionCount →
      ((∃ assignment,
          candidateAssignment digest spec args index = .ok assignment ∧
            assignment.condition = (task, suite)) ↔
        index % args.conditionCount = slot) := by
    intro index hindex
    rw [candidateAssignment_eq_ok hvalid (by omega),
      ← condition_eq_iff hvalid hslot]
    constructor
    · intro hfound
      obtain ⟨assignment, hsame, hcondition⟩ := hfound
      cases hsame
      exact hcondition
    · intro hcondition
      exact ⟨_, rfl, hcondition⟩
  obtain ⟨index, hindex, hunique⟩ := existsUnique_residue hslot.lt start
  refine ⟨index, ⟨hindex.1, (hassigned index hindex.1.2).mpr hindex.2⟩, ?_⟩
  intro other hother
  apply hunique
  exact ⟨hother.1, (hassigned other hother.1.2).mp hother.2⟩

theorem layouts_perm (hvalid : args.Valid) {lane : String × ℤ} {slot : ℕ}
    (hslot : SlotOf args lane slot) {first : ℕ}
    (hseven : ¬ 7 ∣ (args.layoutSchedule slot).length)
    (hfits : first + (args.layoutSchedule slot).length ≤
      (laneAttempts digest spec args lane).length) :
    (((laneAttempts digest spec args lane).drop first).take
      (args.layoutSchedule slot).length |>.map
        CandidateAssignment.layoutId).Perm (args.layoutSchedule slot) := by
  have hcoprime : Nat.Coprime (args.layoutSchedule slot).length 7 :=
    Nat.Coprime.symm ((Nat.Prime.coprime_iff_not_dvd (by decide)).mpr hseven)
  rw [layouts_of_attempts hvalid hslot hfits]
  have hperm := (perm_rotation
    (first * 7 + slot * 11 + spec.intendedUpdate - 1) hcoprime).map
      fun layout => (args.layoutSchedule slot).getD layout 0
  rw [map_getD_range] at hperm
  exact hperm

theorem not_layouts_perm (hvalid : args.Valid) (hslot : SlotOf args lane slot)
    (hseven : 7 ∣ (args.layoutSchedule slot).length)
    (hfits : first + (args.layoutSchedule slot).length ≤
      (laneAttempts digest spec args lane).length) :
    ¬ (((laneAttempts digest spec args lane).drop first).take
      (args.layoutSchedule slot).length |>.map
        CandidateAssignment.layoutId).Perm (args.layoutSchedule slot) := by
  intro hperm
  obtain ⟨-, hsome, hnodup⟩ := hvalid.pool hslot.lt
  rw [layouts_of_attempts hvalid hslot hfits] at hperm
  have hturns := (hperm.nodup_iff.mpr hnodup).of_map
  apply not_nodup_rotation _ (length_pos_of_ne_nil hsome) _ hturns
  intro hcoprime
  exact absurd (hcoprime.symm.eq_one_of_dvd hseven) (by decide)

theorem budget_independent (hvalid : args.Valid) :
    BudgetIndependent digest spec args := by
  intro other hother index hindex hotherIndex
  rw [candidateAssignment_eq_ok hvalid hindex,
    candidateAssignment_eq_ok hvalid hotherIndex]
  unfold assignmentAt seedPayload layoutSlot
  rw [hother]

/-- The lanes go through their pools when no pool whose length is a multiple of
seven gets as many attempts as it has layouts. -/
theorem lanes_covered_iff (hvalid : args.Valid) :
    LanesCovered digest spec args ↔ ∀ slot < args.conditionCount,
        7 ∣ (args.layoutSchedule slot).length →
          spec.maxCandidateGroups ≤ slot +
            ((args.layoutSchedule slot).length - 1) *
              args.conditionCount := by
  constructor
  · intro hcovered slot hslot hseven
    by_contra hlong
    obtain ⟨task, htask, suite, hsuite, hcondition⟩ := conditionAt_mem hslot
    obtain ⟨hpool, hsome, -⟩ := hvalid.pool hslot
    have hlane : SlotOf args (task, suite) slot := ⟨hslot, hcondition⟩
    have hturns : (args.layoutSchedule slot).length ≤
        (laneAttempts digest spec args (task, suite)).length := by
      rw [length_laneAttempts hvalid hlane,
        le_residueCount_iff hslot (length_pos_of_ne_nil hsome)]
      exact Nat.lt_of_not_le hlong
    have hfits : 0 + (args.layoutSchedule slot).length ≤
        (laneAttempts digest spec args (task, suite)).length := by
      rw [Nat.zero_add]
      exact hturns
    rw [hcondition] at hpool
    exact not_layouts_perm hvalid hlane hseven hfits
      (hcovered task htask suite hsuite _ hpool 0 hfits)
  · intro hshort task htask suite hsuite pool hpool first hfits
    obtain ⟨slot, hslot⟩ := exists_slot htask hsuite
    have hsame : args.layoutSchedule slot = pool := by
      unfold ScheduleArgs.layoutSchedule
      rw [hslot.condition, hpool]
      rfl
    subst hsame
    apply layouts_perm hvalid hslot _ hfits
    intro hseven
    have hbudget := hshort slot hslot.lt hseven
    obtain ⟨-, hsome, -⟩ := hvalid.pool hslot.lt
    have hturns : (args.layoutSchedule slot).length ≤
        residueCount args.conditionCount slot spec.maxCandidateGroups := by
      rw [length_laneAttempts hvalid hslot] at hfits
      omega
    rw [le_residueCount_iff hslot.lt (length_pos_of_ne_nil hsome)] at hturns
    omega

end Attempts

/-! ## The schedule -/

/-- A schedule covers its conditions and its layouts, and does not depend on
the budget, exactly when no pool whose length is a multiple of seven gets as
many attempts as it has layouts. -/
theorem schedule_unbiased_iff (digest : String → ℕ)
    (spec : CollectionWindowSpec) (args : ScheduleArgs)
    (hvalid : args.Valid) :
    (BlocksCovered digest spec args ∧ LanesCovered digest spec args ∧
        BudgetIndependent digest spec args) ↔
      ∀ slot < args.conditionCount, 7 ∣ (args.layoutSchedule slot).length →
          spec.maxCandidateGroups ≤ slot +
            ((args.layoutSchedule slot).length - 1) *
              args.conditionCount := by
  constructor
  · intro hunbiased
    exact (lanes_covered_iff hvalid).mp hunbiased.2.1
  · intro hshort
    exact ⟨blocks_covered hvalid, (lanes_covered_iff hvalid).mpr hshort,
      budget_independent hvalid⟩

def singleLane (pool : List ℤ) : ScheduleArgs where
  taskNames := ["stack"]
  suiteIds := [3]
  trainingLayouts := fun _ => some pool
  runSeed := 1

theorem singleLane_valid (hsome : pool ≠ []) (hnodup : pool.Nodup) :
    (singleLane pool).Valid where
  tasks := cons_ne_nil _ _
  distinctTasks := nodup_singleton _
  suites := cons_ne_nil _ _
  distinctSuites := nodup_singleton _
  pools := by
    intro task _ suite _
    exact ⟨pool, rfl, hsome, hnodup⟩

def sevenSpec : CollectionWindowSpec where
  runId := "run"
  intendedUpdate := 1
  groupSize := 8
  targetAcceptedGroups := 2
  minimumAcceptedGroups := 2
  maxCandidateGroups := 7
  policy := pairSpec.policy
  checked := by decide +kernel

theorem schedule_of_five_layouts :
    (BlocksCovered String.length sevenSpec (singleLane [0, 1, 2, 3, 4]) ∧
      LanesCovered String.length sevenSpec (singleLane [0, 1, 2, 3, 4]) ∧
      BudgetIndependent String.length sevenSpec
        (singleLane [0, 1, 2, 3, 4])) := by
  apply (schedule_unbiased_iff String.length sevenSpec
    (singleLane [0, 1, 2, 3, 4])
    (singleLane_valid (by decide) (by decide))).mpr
  intro slot _ hseven
  have hlength :
      ((singleLane [0, 1, 2, 3, 4]).layoutSchedule slot).length = 5 := rfl
  rw [hlength] at hseven
  exact absurd hseven (by decide)

/-- Seven attempts on a pool of seven layouts all use its first layout. -/
theorem seven_layouts_starve : ((laneAttempts String.length sevenSpec
        (singleLane [0, 1, 2, 3, 4, 5, 6]) ("stack", 3)).map
          CandidateAssignment.layoutId) = replicate 7 0 ∧
      ¬ LanesCovered String.length sevenSpec
        (singleLane [0, 1, 2, 3, 4, 5, 6]) := by
  constructor
  · decide
  · intro hcovered
    have hall := hcovered "stack" (by decide) 3 (by decide) _ rfl 0
      (by decide)
    have hone : (1 : ℤ) ∈ replicate 7 0 := hall.mem_iff.mpr (by decide)
    exact absurd hone (by decide)

end CollectionStore
end VerlVla
