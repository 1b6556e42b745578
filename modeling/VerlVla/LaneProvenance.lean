import VerlVla.LaneAlignment

/-!
# The lanes of a rollout

Observations and feedbacks that name their lane show whose they are.  Every
collated row is the history of one lane, for every order in which the loops
advance.  It is the lane of the last observation at the same place exactly
when the stages were requested in increasing order.
-/

namespace VerlVla

open List hiding cons nil

variable {O A F : Type}

/-- Simulators whose observations and feedbacks name their lane. -/
def LaneSimulators.tagged (simulators : LaneSimulators O A F) :
    LaneSimulators (EnvLane × O) A (EnvLane × F) where
  reset lane := (lane, simulators.reset lane)
  step lane actions := let result := simulators.step lane actions
    ((lane, result.1), (lane, result.2))

namespace EnvLoop

/-- A row that starts with the reset of a lane.  The observation after every
slot, the last one included, comes from the step of the slot's feedback. -/
structure LaneHistory (simulators : LaneSimulators O A F) (lane : EnvLane)
    (row : List (O × A × F)) (last : O) : Prop where
  reset : ∀ slot, row[0]? = some slot → slot.1 = simulators.reset lane
  next : ∀ (index : ℕ) (slot next : O × A × F), row[index]? = some slot →
    row[index + 1]? = some next → (next.1, slot.2.2) =
        simulators.step lane ((row.take (index + 1)).map (·.2.1))
  last : ∀ slot, row.getLast? = some slot →
    (last, slot.2.2) = simulators.step lane (row.map (·.2.1))

section Rows

variable {simulators : LaneSimulators O A F} {lane : EnvLane}
  {actions : List A}

theorem laneRow_actions :
    (laneRow simulators lane actions).map (·.2.1) = actions := by
  apply ext_getElem
  · rw [length_map, laneRow, length_mapIdx]
  · intro index _ _
    simp only [laneRow, getElem_map, getElem_mapIdx]

theorem laneRow_getElem?
    (hslot : (laneRow simulators lane actions)[index]? = some slot) :
    index < actions.length ∧ slot.1 = simulators.obsAt lane actions index ∧
      slot.2.2 = simulators.feedbackAt lane actions index := by
  rw [laneRow, getElem?_mapIdx, Option.map_eq_some_iff] at hslot
  obtain ⟨action, haction, rfl⟩ := hslot
  exact ⟨(List.getElem?_eq_some_iff.mp haction).1, rfl, rfl⟩

theorem laneHistory_laneRow :
    LaneHistory simulators lane (laneRow simulators lane actions)
      (simulators.step lane actions).1 := by
  constructor
  · intro slot hslot
    exact (laneRow_getElem? hslot).2.1
  · intro index slot next hslot hnext
    obtain ⟨_, _, hfeedback⟩ := laneRow_getElem? hslot
    obtain ⟨_, hobs, _⟩ := laneRow_getElem? hnext
    rw [hfeedback, hobs, map_take, laneRow_actions]
    rfl
  · intro slot hslot
    rw [getLast?_eq_getElem?] at hslot
    obtain ⟨hindex, _, hfeedback⟩ := laneRow_getElem? hslot
    have hlength : (laneRow simulators lane actions).length =
        actions.length := length_mapIdx
    have hall : actions.take (actions.length - 1 + 1) = actions :=
      take_of_length_le (by omega)
    rw [hfeedback, laneRow_actions, LaneSimulators.feedbackAt, hlength, hall]

theorem lane_of_tagged (hpos : actions ≠ [])
    (hhistory : LaneHistory simulators.tagged lane
      (laneRow simulators.tagged other actions) last) :
    other = lane ∧ last.1 = lane := by
  obtain ⟨action, rest, hactions⟩ := exists_cons_of_ne_nil hpos
  have hrow : laneRow simulators.tagged other actions ≠ [] := by
    intro hnil
    have hmap := @laneRow_actions _ _ _ simulators.tagged other actions
    rw [hnil] at hmap
    exact hpos hmap.symm
  constructor
  · have hfirst := hhistory.reset _ (getElem?_eq_getElem
      (length_pos_of_ne_nil hrow))
    obtain ⟨_, hobs, _⟩ := laneRow_getElem? (getElem?_eq_getElem
      (length_pos_of_ne_nil hrow))
    exact congrArg Prod.fst (hobs.symm.trans hfirst)
  · have hlast := hhistory.last _ (getLast?_eq_some_getLast hrow)
    exact congrArg (fun step => step.1.1) hlast

end Rows

/-! ## Orders of the stages -/

section Stages

variable {config : EnvLoopConfig}

theorem flatMap_stageLanes_inj {left right : List ℕ}
    (heq : left.flatMap config.stageLanes =
      right.flatMap config.stageLanes) : left = right := by
  have hne : ∀ stageId, config.stageLanes stageId ≠ [] := by
    intro stageId
    apply ne_nil_of_length_pos
    rw [config.length_stageLanes]
    exact Nat.mul_pos config.worldSize_pos config.numEnvs_pos
  induction left generalizing right with
  | nil =>
    cases right with
    | nil => rfl
    | cons stageId _ =>
      rw [flatMap_nil, flatMap_cons] at heq
      exact absurd (append_eq_nil_iff.mp heq.symm).1 (hne stageId)
  | cons stageId left ih =>
    cases right with
    | nil =>
      rw [flatMap_nil, flatMap_cons] at heq
      exact absurd (append_eq_nil_iff.mp heq).1 (hne stageId)
    | cons other right =>
      rw [flatMap_cons, flatMap_cons] at heq
      obtain ⟨hstage, hrest⟩ := append_inj heq
        (by rw [config.length_stageLanes, config.length_stageLanes])
      have hmember := head_mem (hne stageId)
      have hother : (config.stageLanes stageId).head (hne stageId) ∈
          config.stageLanes other := hstage ▸ hmember
      rw [ih hrest, ← config.stageId_of_mem hmember,
        ← config.stageId_of_mem hother]

theorem mergeSort_eq_iff {stageIds : List ℕ} (hnodup : stageIds.Nodup) :
    stageIds.mergeSort = stageIds ↔ stageIds.Pairwise (· < ·) := by
  constructor
  · intro heq
    have hsorted : stageIds.Pairwise (· ≤ ·) := by
      rw [← heq]
      exact pairwise_mergeSort' (· ≤ ·) stageIds
    apply (hsorted.and hnodup).imp
    intro stageId other hle
    exact Nat.lt_of_le_of_ne hle.1 hle.2
  · intro hsorted
    apply mergeSort_of_pairwise
    apply hsorted.imp
    intro stageId other hlt
    exact decide_eq_true hlt.le

end Stages

def RowsKeepLanes (simulators : LaneSimulators O A F)
    (output : List (List (O × A × F))) (lastObs : List O) : Prop :=
  ∀ (index : ℕ) (row : List (O × A × F)) (last : O),
    output[index]? = some row → lastObs[index]? = some last →
      ∃ lane, LaneHistory simulators lane row last

theorem rowsKeepLanes_iff {config : EnvLoopConfig}
    {simulators : LaneSimulators O A F} {stageIds : List ℕ}
    {actions : EnvLane → List A} (hnodup : stageIds.Nodup)
    (hactions : ∀ lane ∈ stageIds.flatMap config.stageLanes,
      actions lane ≠ []) :
    RowsKeepLanes simulators.tagged
        ((stageIds.mergeSort.flatMap config.stageLanes).map fun lane =>
          laneRow simulators.tagged lane (actions lane))
        ((stageIds.flatMap config.stageLanes).map fun lane =>
          (simulators.tagged.step lane (actions lane)).1) ↔
      stageIds.Pairwise (· < ·) := by
  have hperm : (stageIds.mergeSort.flatMap config.stageLanes).Perm
      (stageIds.flatMap config.stageLanes) :=
    (mergeSort_perm stageIds _).flatMap_right _
  rw [← mergeSort_eq_iff hnodup]
  constructor
  · intro haligned
    apply flatMap_stageLanes_inj
    apply ext_getElem hperm.length_eq
    intro index hsorted hgiven
    obtain ⟨lane, hhistory⟩ := haligned index _ _
      (by rw [getElem?_map, getElem?_eq_getElem hsorted]; rfl)
      (by rw [getElem?_map, getElem?_eq_getElem hgiven]; rfl)
    have hpos := hactions _ (hperm.mem_iff.mp (getElem_mem hsorted))
    obtain ⟨hlane, hlast⟩ := lane_of_tagged hpos hhistory
    rw [hlane, ← hlast]
    rfl
  · intro hsorted index row last hrow hlast
    rw [hsorted] at hrow
    rw [getElem?_map, Option.map_eq_some_iff] at hrow hlast
    obtain ⟨lane, hlane, rfl⟩ := hrow
    obtain ⟨other, hother, rfl⟩ := hlast
    rw [hlane] at hother
    cases hother
    exact ⟨lane, laneHistory_laneRow⟩

/-- Every row is the history of a lane, of the lane of the last observation
at its place exactly when the stages were requested in increasing order. -/
theorem rows_keep_lanes_iff {library : BatchLibrary}
    (hlibrary : library.Documented) {config : EnvLoopConfig}
    {simulators : LaneSimulators O A F} {activeStageIds : List ℕ}
    {state final : LoopState (EnvLane × O) A (EnvLane × F)}
    (hstart : start library config simulators.tagged activeStageIds =
      .ok state)
    {events : List (Transition.Event
      (LoopState (EnvLane × O) A (EnvLane × F)) (LoopLabel A) Unit)}
    (hrun : Transition.Run
      (machine library config simulators.tagged activeStageIds) state events
      final)
    (hfinished : Finished final activeStageIds) :
    ∃ output lastObs,
      result library final activeStageIds = .ok (output, lastObs) ∧
      output.length = lastObs.length ∧
      (∀ row ∈ output, row.length = config.maxInteractions ∧
        ∃ lane last, LaneHistory simulators.tagged lane row last) ∧
      (RowsKeepLanes simulators.tagged output lastObs ↔
        activeStageIds.Pairwise (· < ·)) := by
  have hinv := loopInv_of_run hlibrary hstart hrun
  have hactions : ∀ lane ∈ activeStageIds.flatMap config.stageLanes,
      (final.actions lane).length = config.maxInteractions := by
    intro lane hlane
    exact hinv.length_actions hfinished hlane
  have hperm : (activeStageIds.mergeSort.flatMap config.stageLanes).Perm
      (activeStageIds.flatMap config.stageLanes) :=
    (mergeSort_perm activeStageIds _).flatMap_right _
  refine ⟨_, _, result_eq hlibrary hinv hfinished, ?_, ?_, ?_⟩
  · rw [length_map, length_map, hperm.length_eq]
  · intro row hrow
    obtain ⟨lane, hlane, rfl⟩ := mem_map.mp hrow
    refine ⟨?_, lane, _, laneHistory_laneRow⟩
    rw [laneRow, length_mapIdx, hactions lane (hperm.mem_iff.mp hlane)]
  · apply rowsKeepLanes_iff (checks_of_start hstart).2.1
    intro lane hlane
    exact ne_nil_of_length_pos
      (hactions lane hlane ▸ config.maxInteractions_pos)

/-! ## Two stages -/

def twoStages : EnvLoopConfig where
  worldSize := 2
  stageNum := 2
  numEnvs := 1
  numEnvs_pos := Nat.one_pos
  worldSize_pos := Nat.two_pos
  maxInteractions := 2
  maxInteractions_pos := Nat.two_pos
  partitionByEnvWorker := true
  partitionSize := 1

/-- The observation and the feedback tell the actions so far. -/
def historySimulators : LaneSimulators (List ℕ) ℕ (List ℕ) where
  reset _ := []
  step _ actions := (actions, actions)

/-- Both loops to their end, the loop of stage 1 ahead. -/
def twoStageLabels : List (LoopLabel ℕ) :=
  [.actions 1 [[10], [11]], .actions 0 [[20], [21]], .result 1,
    .actions 1 [[12], [13]], .result 1, .result 0,
    .actions 0 [[22], [23]], .result 0]

theorem rows_keep_lanes_in_order : ∃ state events final output lastObs,
      start evenBatches twoStages historySimulators.tagged [0, 1] = .ok state ∧
      Transition.Run
        (machine evenBatches twoStages historySimulators.tagged [0, 1])
        state events final ∧
      Finished final [0, 1] ∧
      result evenBatches final [0, 1] = .ok (output, lastObs) ∧
      RowsKeepLanes historySimulators.tagged output lastObs := by
  have hend : completes evenBatches twoStages historySimulators.tagged [0, 1]
      twoStageLabels = true := by decide +kernel
  obtain ⟨state, events, final, hstart, hrun, hfinished⟩ :=
    run_of_completes hend
  obtain ⟨output, lastObs, hresult, _, _, hlanes⟩ :=
    rows_keep_lanes_iff evenBatches_documented hstart hrun hfinished
  exact ⟨state, events, final, output, lastObs, hstart, hrun, hfinished,
    hresult, hlanes.mpr (by decide)⟩

/-- Stages requested as 1, 0: the rows of stage 0 come first, and the last
observations of stage 1. -/
theorem unordered_stages_mix_lanes : ∃ state events final output lastObs,
      start evenBatches twoStages historySimulators.tagged [1, 0] = .ok state ∧
      Transition.Run
        (machine evenBatches twoStages historySimulators.tagged [1, 0])
        state events final ∧
      Finished final [1, 0] ∧
      result evenBatches final [1, 0] = .ok (output, lastObs) ∧
      ¬ RowsKeepLanes historySimulators.tagged output lastObs := by
  have hend : completes evenBatches twoStages historySimulators.tagged [1, 0]
      twoStageLabels = true := by decide +kernel
  obtain ⟨state, events, final, hstart, hrun, hfinished⟩ :=
    run_of_completes hend
  have hinv := loopInv_of_run evenBatches_documented hstart hrun
  refine ⟨state, events, final, _, _, hstart, hrun, hfinished,
    result_eq evenBatches_documented hinv hfinished, ?_⟩
  rw [rowsKeepLanes_iff (checks_of_start hstart).2.1]
  · decide
  · intro lane hlane
    have hlength := hinv.length_actions hfinished hlane
    exact ne_nil_of_length_pos (hlength ▸ Nat.two_pos)

end EnvLoop

end VerlVla
