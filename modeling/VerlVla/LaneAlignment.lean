import Mathlib.Data.List.GetD
import Mathlib.Data.List.ModifyLast
import VerlVla.EnvLoop

/-!
# Lanes of the environment loop

Reset rows come worker by worker and are regrouped stage by stage.  From there
on row `i` of a stage is the same lane in every batch of the stage, whatever
the other stages do.  The collated rows follow the stages in increasing order
and the last observations follow the requested order.
-/

namespace VerlVla

variable {O A F : Type}

namespace EnvLoopConfig

variable (config : EnvLoopConfig)

theorem length_processLanes (stageId rank : ℕ) :
    (config.processLanes stageId rank).length = config.numEnvs := by
  simp [processLanes]

theorem length_stageLanes (stageId : ℕ) : (config.stageLanes stageId).length =
      config.worldSize * config.numEnvs := by
  simp [stageLanes, processLanes]

theorem stageId_of_mem (hlane : lane ∈ config.stageLanes stageId) :
    lane.stageId = stageId := by
  obtain ⟨rank, _, hprocess⟩ := List.mem_flatMap.mp hlane
  obtain ⟨env, _, rfl⟩ := List.mem_map.mp hprocess
  rfl

theorem stageLanes_map {β : Type} (f : EnvLane → β) (stageId : ℕ) :
    (config.stageLanes stageId).map f =
      (List.range config.worldSize).flatMap fun rank =>
        (config.processLanes stageId rank).map f :=
  List.map_flatMap

end EnvLoopConfig

namespace EnvLoop

section Batches

variable {library : BatchLibrary} {config : EnvLoopConfig}
  {simulators : LaneSimulators O A F}

/-! ## Regrouping -/

theorem restructure_resetEnv (hlibrary : library.Documented) :
    restructureObsData library config (resetEnv library config simulators) =
      (List.range config.stageNum).map fun stageId =>
        (config.stageLanes stageId).map simulators.reset := by
  have hworker : ∀ rank, (resetWorker config simulators rank).length =
      config.stageNum * config.numEnvs := by
    intro rank
    simp [resetWorker, EnvLoopConfig.processLanes]
  have hreset : resetEnv library config simulators =
      (List.range config.worldSize).flatMap
        (resetWorker config simulators) := by
    rw [resetEnv, hlibrary.concat, ← List.flatMap_def]
  have hlength : (resetEnv library config simulators).length =
      config.worldSize * (config.stageNum * config.numEnvs) := by
    rw [hreset, List.length_flatMap]
    simp [hworker]
  have hworkers : library.chunk config.worldSize
      (resetEnv library config simulators) = (List.range config.worldSize).map
          (resetWorker config simulators) := by
    rw [hlibrary.chunk _ _ _ config.worldSize_pos hlength]
    apply List.map_congr_left
    intro rank hrank
    rw [hreset]
    exact block_flatMap (fun other _ => hworker other)
      (List.mem_range.mp hrank)
  rw [restructureObsData, hworkers]
  apply List.map_congr_left
  intro stageId hstage
  have hlt := List.mem_range.mp hstage
  have hpart : ∀ rank, (library.chunk config.stageNum
      (resetWorker config simulators rank)).getD stageId [] =
        (config.processLanes stageId rank).map simulators.reset := by
    intro rank
    rw [hlibrary.chunk _ _ _ (Nat.zero_lt_of_lt hlt) (hworker rank),
      List.getD_eq_getElem _ _ (by simpa using hlt), List.getElem_map,
      List.getElem_range, resetWorker]
    apply block_flatMap _ hlt
    intro other _
    rw [List.length_map, config.length_processLanes]
  rw [hlibrary.concat, List.map_map, List.map_map, config.stageLanes_map,
    List.flatMap_def]
  congr 1
  apply List.map_congr_left
  intro rank _
  exact hpart rank

/-! ## Requests and their answers -/

theorem flatten_chunk (hlibrary : library.Documented) {α : Type}
    {count size : ℕ} {rows : List α} (hcount : 0 < count)
    (hrows : rows.length = count * size) :
    (library.chunk count rows).flatten = rows := by
  rw [hlibrary.chunk count size rows hcount hrows, flatten_blocks hrows]

theorem map_eq_of_forall₂ {α β : Type} {relation : α → β → Prop}
    {back : β → α} {items : List α} {values : List β}
    (hvalues : List.Forall₂ relation items values)
    (hback : ∀ item ∈ items, ∀ value, relation item value →
      back value = item) : values.map back = items := by
  induction hvalues with
  | nil => rfl
  | cons hvalue _ ih =>
    obtain ⟨hfirst, hrest⟩ := List.forall_mem_cons.mp hback
    rw [List.map_cons, hfirst _ hvalue, ih hrest]

theorem flatten_requests (hlibrary : library.Documented) {obs : List O}
    {requests : List (List O)}
    (hobs : obs.length = config.worldSize * config.numEnvs)
    (hrequests : submitRollout library config obs = .ok requests) :
    requests.flatten = obs := by
  unfold submitRollout at hrequests
  cases hpartition : config.partitionByEnvWorker with
  | false =>
    rw [hpartition, if_neg Bool.false_ne_true] at hrequests
    cases hrequests
    exact List.append_nil obs
  | true =>
    rw [hpartition, if_pos rfl, require_bind_eq_ok, bind_eq_ok] at hrequests
    obtain ⟨_, parts, hparts, hpure⟩ := hrequests
    cases hpure
    have hworkers := flatten_chunk hlibrary config.worldSize_pos hobs
    have hworkerLength : ∀ workerData ∈ library.chunk config.worldSize obs,
        workerData.length = config.numEnvs := by
      rw [hlibrary.chunk _ _ _ config.worldSize_pos hobs]
      intro workerData hworker
      obtain ⟨rank, hrank, rfl⟩ := List.mem_map.mp hworker
      exact length_block hobs (List.mem_range.mp hrank)
    have hflat : parts.map List.flatten =
        library.chunk config.worldSize obs := by
      apply map_eq_of_forall₂ (mapM_eq_ok.mp hparts)
      intro workerData hworker pieces hpieces
      by_cases hsize : config.partitionSize ≠ 0
      · rw [if_pos hsize, require_bind_eq_ok] at hpieces
        obtain ⟨hdivides, hpure⟩ := hpieces
        cases hpure
        have hdvd := Nat.dvd_of_mod_eq_zero hdivides
        have hpos : 0 < workerData.length := by
          rw [hworkerLength workerData hworker]
          exact config.numEnvs_pos
        exact flatten_chunk hlibrary
          (Nat.div_pos (Nat.le_of_dvd hpos hdvd) (Nat.pos_of_ne_zero hsize))
          (Nat.div_mul_cancel hdvd).symm
      · rw [if_neg hsize] at hpieces
        cases hpieces
        exact List.append_nil workerData
    rw [← hworkers, ← hflat, ← List.flatten_flatten]

theorem resolveRollout_eq (hlibrary : library.Documented)
    (parts : List (List A)) : resolveRollout library parts = parts.flatten := by
  unfold resolveRollout
  split
  · exact (List.append_nil _).symm
  · exact hlibrary.concat _

theorem length_resolveRollout (hlibrary : library.Documented)
    {parts : List (List A)} {requests : List (List O)}
    (hparts : parts.map List.length = requests.map List.length) :
    (resolveRollout library parts).length = requests.flatten.length := by
  rw [resolveRollout_eq hlibrary, List.length_flatten, List.length_flatten,
    hparts]

/-! ## A step of a stage -/

theorem mem_stageLanes : lane ∈ config.stageLanes stageId ↔
      lane.stageId = stageId ∧ lane.rank < config.worldSize ∧
        lane.env < config.numEnvs := by
  simp only [EnvLoopConfig.stageLanes, EnvLoopConfig.processLanes,
    List.mem_flatMap, List.mem_map, List.mem_range]
  constructor
  · rintro ⟨rank, hrank, env, henv, rfl⟩
    exact ⟨rfl, hrank, henv⟩
  · rintro ⟨rfl, hrank, henv⟩
    exact ⟨lane.rank, hrank, lane.env, henv, rfl⟩

def rowOf (config : EnvLoopConfig) (lane : EnvLane) : ℕ :=
  lane.rank * config.numEnvs + lane.env

theorem map_some_eq {α : Type} {rows : List α}
    (hrows : rows.length = config.worldSize * config.numEnvs)
    (stageId : ℕ) :
    rows.map some = (config.stageLanes stageId).map fun lane =>
      rows[rowOf config lane]? := by
  have hprocess : ∀ rank < config.worldSize,
      (block config.numEnvs rank rows).map some =
        (config.processLanes stageId rank).map fun lane =>
          rows[rowOf config lane]? := by
    intro rank hrank
    have hlength := length_block hrows hrank
    apply List.ext_getElem
    · rw [List.length_map, hlength, List.length_map,
        config.length_processLanes]
    · intro env henv _
      rw [List.length_map, hlength] at henv
      have hrow := block_getElem? rows rank henv
      rw [List.getElem_map, ← List.getElem?_eq_getElem]
      simpa [EnvLoopConfig.processLanes, rowOf] using hrow
  conv_lhs => rw [← flatten_blocks hrows]
  rw [List.map_flatten, List.map_map, config.stageLanes_map, List.flatMap_def]
  congr 1
  apply List.map_congr_left
  intro rank hrank
  exact hprocess rank (List.mem_range.mp hrank)

section Step

variable {taken : EnvLane → List A} {stageId : ℕ} {actions : List A}

theorem recordActions_mem (hlibrary : library.Documented)
    (hactions : actions.length = config.worldSize * config.numEnvs)
    (hlane : lane ∈ config.stageLanes stageId) :
    recordActions library config taken stageId actions lane =
      taken lane ++ (actions[rowOf config lane]?).toList := by
  obtain ⟨hstage, hrank, henv⟩ := mem_stageLanes.mp hlane
  rw [recordActions, if_pos hstage,
    hlibrary.chunk _ _ _ config.worldSize_pos hactions,
    List.getD_eq_getElem _ _ (by simpa using hrank), List.getElem_map,
    List.getElem_range, block_getElem? actions lane.rank henv, rowOf]

theorem recordActions_other (hlane : lane.stageId ≠ stageId) :
    recordActions library config taken stageId actions lane = taken lane :=
  if_neg hlane

theorem envInteractStep_eq (hlibrary : library.Documented)
    (hactions : actions.length = config.worldSize * config.numEnvs) :
    envInteractStep library config simulators taken stageId actions =
      (config.stageLanes stageId).map fun lane =>
        simulators.step lane
          (recordActions library config taken stageId actions lane) := by
  have hworker : ∀ rank < config.worldSize,
      stepWorker simulators taken stageId rank
          (block config.numEnvs rank actions) =
        (config.processLanes stageId rank).map fun lane =>
          simulators.step lane
            (recordActions library config taken stageId actions lane) := by
    intro rank hrank
    have hlength := length_block hactions hrank
    apply List.ext_getElem
    · rw [stepWorker, List.length_mapIdx, hlength, List.length_map,
        config.length_processLanes]
    · intro env henv _
      rw [stepWorker, List.length_mapIdx] at henv
      have hbound : env < config.numEnvs := hlength ▸ henv
      have hlane : (⟨⟨stageId, rank⟩, env⟩ : EnvLane) ∈
          config.stageLanes stageId :=
        mem_stageLanes.mpr ⟨rfl, hrank, hbound⟩
      have hrow := block_getElem? actions rank hbound
      rw [List.getElem?_eq_getElem henv] at hrow
      simp only [stepWorker, List.getElem_mapIdx, List.getElem_map,
        EnvLoopConfig.processLanes, List.getElem_range]
      rw [recordActions_mem hlibrary hactions hlane, rowOf, ← hrow]
      rfl
  rw [envInteractStep, hlibrary.concat,
    hlibrary.chunk _ _ _ config.worldSize_pos hactions,
    config.stageLanes_map, List.flatMap_def]
  congr 1
  apply List.ext_getElem
  · simp
  · intro rank hrank _
    have hbound : rank < config.worldSize := by simpa using hrank
    simpa using hworker rank hbound

end Step

end Batches

/-! ## What a stage has collected -/

section Invariant

variable (config : EnvLoopConfig) (simulators : LaneSimulators O A F)

/-- A slot whose rows are the lanes of the stage, at one policy step. -/
structure CompleteSlot (actions : EnvLane → List A) (stageId index : ℕ)
    (slot : TrajectorySlot O A F) : Prop where
  obs : slot.obs = (config.stageLanes stageId).map fun lane =>
    simulators.obsAt lane (actions lane) index
  action : ∃ taken, slot.action = some taken ∧
    taken.map some = (config.stageLanes stageId).map fun lane =>
      (actions lane)[index]?
  feedback : slot.feedback = some ((config.stageLanes stageId).map
    fun lane => simulators.feedbackAt lane (actions lane) index)

/-- The first slots are complete, and every lane took that many actions, or
one more. -/
structure Collected (actions : EnvLane → List A) (stageId count extra : ℕ)
    (slots : List (TrajectorySlot O A F)) : Prop where
  length : slots.length = count
  complete : ∀ index slot, slots[index]? = some slot →
    CompleteSlot config simulators actions stageId index slot
  actions : ∀ lane ∈ config.stageLanes stageId,
    (actions lane).length = count + extra

/-- What the loop of a stage holds in each of its phases. -/
def StageInv (actions : EnvLane → List A) (stageId : ℕ)
    (stage : StageState O A F) : Prop :=
  let obs := (config.stageLanes stageId).map fun lane =>
    simulators.obsAt lane (actions lane) stage.stepIdx
  let results := (config.stageLanes stageId).map fun lane =>
    simulators.step lane (actions lane)
  match stage.phase with
  | .rollout requests =>
    requests.flatten.length = config.worldSize * config.numEnvs ∧
      stage.stepIdx < config.maxInteractions ∧
      ∃ slots, Collected config simulators actions stageId
          stage.stepIdx 0 slots ∧
        stage.trajectory = slots ++ [⟨obs, none, none⟩]
  | .env result =>
    result = results ∧ stage.stepIdx < config.maxInteractions ∧
      ∃ slots taken, Collected config simulators actions stageId
          stage.stepIdx 1 slots ∧
        (taken.map some = (config.stageLanes stageId).map fun lane =>
          (actions lane)[stage.stepIdx]?) ∧
        stage.trajectory = slots ++ [⟨obs, some taken, none⟩]
  | .finished =>
    Collected config simulators actions stageId
        config.maxInteractions 0 stage.trajectory ∧
      stage.lastObs = some (results.map (·.1))

end Invariant

section Preserve

variable {library : BatchLibrary} {config : EnvLoopConfig}
  {simulators : LaneSimulators O A F} {actions actions' : EnvLane → List A}
  {stageId : ℕ}

theorem obsAt_append (hindex : index ≤ history.length) (more : List A) :
    simulators.obsAt lane (history ++ more) index =
      simulators.obsAt lane history index := by
  rw [LaneSimulators.obsAt, LaneSimulators.obsAt,
    List.take_append_of_le_length hindex]

theorem feedbackAt_append (hindex : index < history.length) (more : List A) :
    simulators.feedbackAt lane (history ++ more) index =
      simulators.feedbackAt lane history index := by
  rw [LaneSimulators.feedbackAt, LaneSimulators.feedbackAt,
    List.take_append_of_le_length hindex]

theorem CompleteSlot.grow
    (hslot : CompleteSlot config simulators actions stageId index slot)
    (hindex : index < count) (hgrow : ∀ lane ∈ config.stageLanes stageId,
      count ≤ (actions lane).length ∧
        ∃ more, actions' lane = actions lane ++ more) :
    CompleteSlot config simulators actions' stageId index slot := by
  obtain ⟨taken, haction, htaken⟩ := hslot.action
  constructor
  · rw [hslot.obs]
    apply List.map_congr_left
    intro lane hlane
    obtain ⟨hlength, more, hmore⟩ := hgrow lane hlane
    rw [hmore, obsAt_append (by omega)]
  · refine ⟨taken, haction, ?_⟩
    rw [htaken]
    apply List.map_congr_left
    intro lane hlane
    obtain ⟨hlength, more, hmore⟩ := hgrow lane hlane
    rw [hmore, List.getElem?_append_left (by omega)]
  · rw [hslot.feedback]
    congr 1
    apply List.map_congr_left
    intro lane hlane
    obtain ⟨hlength, more, hmore⟩ := hgrow lane hlane
    rw [hmore, feedbackAt_append (by omega)]

theorem Collected.grow
    (hslots : Collected config simulators actions stageId count extra slots)
    (hgrow : ∀ lane ∈ config.stageLanes stageId, ∃ more : List A,
      more.length = added ∧ actions' lane = actions lane ++ more) :
    Collected config simulators actions' stageId count (extra + added)
      slots := by
  constructor
  · exact hslots.length
  · intro index slot hslot
    have hindex : index < count := by
      rw [← hslots.length]
      exact (List.getElem?_eq_some_iff.mp hslot).1
    apply (hslots.complete index slot hslot).grow hindex
    intro lane hlane
    obtain ⟨more, _, hmore⟩ := hgrow lane hlane
    have hlength := hslots.actions lane hlane
    exact ⟨by omega, more, hmore⟩
  · intro lane hlane
    obtain ⟨more, hadded, hmore⟩ := hgrow lane hlane
    rw [hmore, List.length_append, hslots.actions lane hlane, hadded,
      Nat.add_assoc]

theorem Collected.snoc {count : ℕ} {slots : List (TrajectorySlot O A F)}
    {slot : TrajectorySlot O A F}
    (hslots : Collected config simulators actions stageId count 1 slots)
    (hslot : CompleteSlot config simulators actions stageId count slot) :
    Collected config simulators actions stageId (count + 1) 0
      (slots ++ [slot]) := by
  constructor
  · rw [List.length_append, hslots.length, List.length_singleton]
  · intro index other hother
    by_cases hindex : index < slots.length
    · rw [List.getElem?_append_left hindex] at hother
      exact hslots.complete index other hother
    · rw [List.getElem?_append_right (by omega)] at hother
      have hzero : index - slots.length = 0 := by
        by_contra hpos
        obtain ⟨rest, hrest⟩ := Nat.exists_eq_succ_of_ne_zero hpos
        simp [hrest] at hother
      have hcount : index = count := by
        have hlength := hslots.length
        omega
      rw [hzero] at hother
      cases hother
      rw [hcount]
      exact hslot
  · intro lane hlane
    rw [hslots.actions lane hlane]

theorem StageInv.congr
    (hinv : StageInv config simulators actions stageId stage)
    (hactions : ∀ lane ∈ config.stageLanes stageId,
      actions' lane = actions lane) :
    StageInv config simulators actions' stageId stage := by
  have hmap : ∀ {β : Type} (read : EnvLane → List A → β),
      ((config.stageLanes stageId).map fun lane =>
          read lane (actions' lane)) =
        (config.stageLanes stageId).map fun lane =>
          read lane (actions lane) := by
    intro β read
    apply List.map_congr_left
    intro lane hlane
    rw [hactions lane hlane]
  have hcollected : ∀ {count extra : ℕ}
      {slots : List (TrajectorySlot O A F)},
      Collected config simulators actions stageId count extra slots →
        Collected config simulators actions' stageId count extra slots := by
    intro count extra slots hslots
    have hgrow : ∀ lane ∈ config.stageLanes stageId, ∃ more : List A,
        more.length = 0 ∧ actions' lane = actions lane ++ more := by
      intro lane hlane
      exact ⟨[], rfl, by rw [hactions lane hlane, List.append_nil]⟩
    exact hslots.grow hgrow
  unfold StageInv at hinv ⊢
  cases hphase : stage.phase with
  | rollout requests =>
    rw [hphase] at hinv
    obtain ⟨hrequests, hstep, slots, hslots, htrajectory⟩ := hinv
    refine ⟨hrequests, hstep, slots, hcollected hslots, ?_⟩
    rw [htrajectory, hmap fun lane history =>
      simulators.obsAt lane history stage.stepIdx]
  | env result =>
    rw [hphase] at hinv
    obtain ⟨hresult, hstep, slots, taken, hslots, htaken, htrajectory⟩ := hinv
    refine ⟨?_, hstep, slots, taken, hcollected hslots, ?_, ?_⟩
    · rw [hresult, hmap simulators.step]
    · rw [htaken, hmap fun _ history => history[stage.stepIdx]?]
    · rw [htrajectory, hmap fun lane history =>
        simulators.obsAt lane history stage.stepIdx]
  | finished =>
    rw [hphase] at hinv
    obtain ⟨hslots, hlast⟩ := hinv
    refine ⟨hcollected hslots, ?_⟩
    rw [hlast, hmap simulators.step]

/-! ## The steps of a loop -/

theorem StageInv.receiveActions (hlibrary : library.Documented)
    (hinv : StageInv config simulators state.actions stageId
      (state.stage stageId)) {requests : List (List O)}
    (hphase : (state.stage stageId).phase = .rollout requests)
    {parts : List (List A)}
    (hparts : parts.map List.length = requests.map List.length) :
    let next := receiveActions library config simulators state stageId parts
    StageInv config simulators next.actions stageId (next.stage stageId) := by
  intro next
  unfold StageInv at hinv
  rw [hphase] at hinv
  obtain ⟨hrequests, hstep, slots, hslots, htrajectory⟩ := hinv
  have hactions : (resolveRollout library parts).length =
      config.worldSize * config.numEnvs := by
    rw [length_resolveRollout hlibrary hparts, hrequests]
  have hrecorded : ∀ lane ∈ config.stageLanes stageId, next.actions lane =
      state.actions lane ++
        ((resolveRollout library parts)[rowOf config lane]?).toList := by
    intro lane hlane
    exact recordActions_mem hlibrary hactions hlane
  have hbound : ∀ lane ∈ config.stageLanes stageId,
      rowOf config lane < (resolveRollout library parts).length := by
    intro lane hlane
    obtain ⟨_, hrank, henv⟩ := mem_stageLanes.mp hlane
    rw [hactions, rowOf]
    calc
      lane.rank * config.numEnvs + lane.env
          < (lane.rank + 1) * config.numEnvs := by
            rw [Nat.succ_mul]
            omega
      _ ≤ config.worldSize * config.numEnvs := Nat.mul_le_mul_right _ hrank
  have hstage : next.stage stageId = { state.stage stageId with
        phase := .env (envInteractStep library config simulators
          state.actions stageId (resolveRollout library parts))
        trajectory := setAction (state.stage stageId).trajectory
          (resolveRollout library parts) } :=
    Function.update_self ..
  have hlength : ∀ lane ∈ config.stageLanes stageId,
      (state.actions lane).length = (state.stage stageId).stepIdx := by
    intro lane hlane
    exact hslots.actions lane hlane
  have hgrow : ∀ lane ∈ config.stageLanes stageId, ∃ more : List A,
      more.length = 1 ∧ next.actions lane = state.actions lane ++ more := by
    intro lane hlane
    refine ⟨_, ?_, hrecorded lane hlane⟩
    rw [List.getElem?_eq_getElem (hbound lane hlane)]
    rfl
  have hobs : ((config.stageLanes stageId).map fun lane =>
        simulators.obsAt lane (state.actions lane)
          (state.stage stageId).stepIdx) =
      (config.stageLanes stageId).map fun lane =>
        simulators.obsAt lane (next.actions lane)
          (state.stage stageId).stepIdx := by
    apply List.map_congr_left
    intro lane hlane
    rw [hrecorded lane hlane, obsAt_append (hlength lane hlane).ge]
  rw [hstage]
  refine ⟨envInteractStep_eq hlibrary hactions, hstep, slots,
    resolveRollout library parts, hslots.grow hgrow, ?_, ?_⟩
  · rw [map_some_eq hactions stageId]
    apply List.map_congr_left
    intro lane hlane
    rw [hrecorded lane hlane, ← hlength lane hlane,
      List.getElem?_append_right (Nat.le_refl _), Nat.sub_self,
      List.getElem?_eq_getElem (hbound lane hlane)]
    rfl
  · rw [setAction, htrajectory, List.modifyLast_concat, hobs]

theorem StageInv.receiveResult (hlibrary : library.Documented)
    (hinv : StageInv config simulators state.actions stageId
      (state.stage stageId)) {result : List (O × F)}
    (hphase : (state.stage stageId).phase = .env result) :
    let next := receiveResult library config state stageId result
    StageInv config simulators next.actions stageId (next.stage stageId) := by
  have hkept := hinv
  unfold StageInv at hinv
  rw [hphase] at hinv
  obtain ⟨hresult, hstep, slots, taken, hslots, htaken, htrajectory⟩ := hinv
  have htake : ∀ lane ∈ config.stageLanes stageId,
      (state.actions lane).take ((state.stage stageId).stepIdx + 1) =
        state.actions lane := by
    intro lane hlane
    apply List.take_of_length_le
    rw [hslots.actions lane hlane]
  have hnext : result.map (·.1) = (config.stageLanes stageId).map fun lane =>
      simulators.obsAt lane (state.actions lane)
        ((state.stage stageId).stepIdx + 1) := by
    rw [hresult, List.map_map]
    apply List.map_congr_left
    intro lane hlane
    rw [LaneSimulators.obsAt, if_neg (Nat.succ_ne_zero _), htake lane hlane]
    rfl
  have hfeedback : result.map (·.2) =
      (config.stageLanes stageId).map fun lane =>
        simulators.feedbackAt lane (state.actions lane)
          (state.stage stageId).stepIdx := by
    rw [hresult, List.map_map]
    apply List.map_congr_left
    intro lane hlane
    rw [LaneSimulators.feedbackAt, htake lane hlane]
    rfl
  have hset : ∃ slot, CompleteSlot config simulators state.actions stageId
        (state.stage stageId).stepIdx slot ∧
      setFeedback (state.stage stageId).trajectory (result.map (·.2)) =
        slots ++ [slot] := by
    refine ⟨⟨_, some taken, some _⟩, ⟨rfl, ⟨taken, rfl, htaken⟩, rfl⟩, ?_⟩
    rw [setFeedback, htrajectory, List.modifyLast_concat, hfeedback]
  obtain ⟨slot, hslot, hset⟩ := hset
  have hcollected := hslots.snoc hslot
  by_cases hmore : (state.stage stageId).stepIdx + 1 < config.maxInteractions
  · cases hsubmit : submitRollout library config (result.map (·.1)) with
    | error raised =>
      have heq : EnvLoop.receiveResult library config state stageId result =
          { state with raised := some raised } := by
        simp only [EnvLoop.receiveResult, if_pos hmore, hsubmit]
      rw [heq]
      exact hkept
    | ok requests =>
      have heq : EnvLoop.receiveResult library config state stageId result =
          setStage state stageId
            { phase := .rollout requests
              trajectory := (slots ++ [slot]) ++
                [⟨result.map (·.1), none, none⟩]
              stepIdx := (state.stage stageId).stepIdx + 1
              lastObs := some (result.map (·.1)) } := by
        simp only [EnvLoop.receiveResult, if_pos hmore, hsubmit, hset]
      have hlength : (result.map (·.1)).length =
          config.worldSize * config.numEnvs := by
        rw [hnext, List.length_map, config.length_stageLanes]
      rw [heq]
      simp only [setStage, Function.update_self]
      refine ⟨?_, hmore, slots ++ [slot], hcollected, ?_⟩
      · rw [flatten_requests hlibrary hlength hsubmit, hlength]
      · rw [hnext]
  · have heq : EnvLoop.receiveResult library config state stageId result =
        setStage state stageId
          { phase := .finished
            trajectory := slots ++ [slot]
            stepIdx := (state.stage stageId).stepIdx + 1
            lastObs := some (result.map (·.1)) } := by
      simp only [EnvLoop.receiveResult, if_neg hmore, hset]
    have hlast : (state.stage stageId).stepIdx + 1 =
        config.maxInteractions := by
      omega
    rw [heq]
    simp only [setStage, Function.update_self]
    refine ⟨?_, ?_⟩
    · rw [← hlast]
      exact hcollected
    · rw [hresult]

end Preserve

/-! ## Whole runs -/

section Runs

variable {library : BatchLibrary} {config : EnvLoopConfig}
  {simulators : LaneSimulators O A F}

theorem receiveActions_other (hother : other ≠ stageId) (parts : List (List A)) :
    let next := receiveActions library config simulators state stageId parts
    next.stage other = state.stage other ∧ ∀ lane ∈ config.stageLanes other,
        next.actions lane = state.actions lane := by
  constructor
  · exact Function.update_of_ne hother ..
  · intro lane hlane
    apply recordActions_other
    rw [(mem_stageLanes.mp hlane).1]
    exact hother

theorem receiveResult_other (hother : other ≠ stageId) (result : List (O × F)) :
    let next := receiveResult library config state stageId result
    next.stage other = state.stage other ∧ next.actions = state.actions := by
  simp only [receiveResult]
  split
  · split
    · exact ⟨rfl, rfl⟩
    · exact ⟨Function.update_of_ne hother .., rfl⟩
  · exact ⟨Function.update_of_ne hother .., rfl⟩

/-- What every active stage holds between the steps of a run. -/
def LoopInv (config : EnvLoopConfig) (simulators : LaneSimulators O A F)
    (activeStageIds : List ℕ) (state : LoopState O A F) : Prop :=
  ∀ stageId ∈ activeStageIds,
    StageInv config simulators state.actions stageId (state.stage stageId)

theorem LoopInv.step (hlibrary : library.Documented)
    (hinv : LoopInv config simulators activeStageIds state)
    (hstep : step library config simulators activeStageIds state label =
      some (output, next)) :
    LoopInv config simulators activeStageIds next := by
  intro other hactive
  cases label with
  | actions stageId parts =>
    simp only [EnvLoop.step] at hstep
    split at hstep
    case isFalse => cases hstep
    case isTrue hguard =>
      split at hstep
      case h_2 => cases hstep
      case h_1 requests hphase =>
        split at hstep
        case isFalse => cases hstep
        case isTrue hparts =>
          cases hstep
          by_cases hother : other = stageId
          · subst hother
            exact (hinv other hactive).receiveActions hlibrary hphase hparts
          · obtain ⟨hstage, hactions⟩ := receiveActions_other hother parts
            rw [hstage]
            exact (hinv other hactive).congr hactions
  | result stageId =>
    simp only [EnvLoop.step] at hstep
    split at hstep
    case isFalse => cases hstep
    case isTrue hguard =>
      split at hstep
      case h_2 => cases hstep
      case h_1 result hphase =>
        cases hstep
        by_cases hother : other = stageId
        · subst hother
          exact (hinv other hactive).receiveResult hlibrary hphase
        · obtain ⟨hstage, hactions⟩ := receiveResult_other hother result
          rw [hstage, hactions]
          exact hinv other hactive

theorem lookup_of_mapM {α : Type} {f : ℕ → Except LoopError (ℕ × α)}
    {items : List ℕ} {pairs : List (ℕ × α)} (hmap : items.mapM f = .ok pairs)
    (hkey : ∀ item pair, f item = .ok pair → pair.1 = item)
    (hitem : item ∈ items) :
    ∃ value, pairs.lookup item = some value ∧ f item = .ok (item, value) := by
  have hpairs := mapM_eq_ok.mp hmap
  clear hmap
  induction hpairs with
  | nil => cases hitem
  | @cons head pair items pairs hpair _ ih =>
    have hhead := hkey head pair hpair
    by_cases hitem' : item = head
    · subst hitem'
      refine ⟨pair.2, ?_, ?_⟩
      · rw [List.lookup_cons, hhead, beq_self_eq_true]
      · rw [hpair, ← hhead]
    · obtain ⟨value, hlookup, hvalue⟩ :=
        ih ((List.mem_cons.mp hitem).resolve_left hitem')
      refine ⟨value, ?_, hvalue⟩
      rw [List.lookup_cons, hhead, beq_false_of_ne hitem', hlookup]

theorem loopInv_start (hlibrary : library.Documented)
    (hstart : start library config simulators activeStageIds = .ok state) :
    LoopInv config simulators activeStageIds state := by
  simp only [start] at hstart
  rw [require_bind_eq_ok, require_bind_eq_ok, bind_eq_ok] at hstart
  obtain ⟨_, ⟨_, hrange⟩, stages, hstages, hpure⟩ := hstart
  cases hpure
  intro stageId hactive
  have hkey : ∀ item pair, (do
      let stage ← firstStage library config
        ((restructureObsData library config
          (resetEnv library config simulators)).getD item [])
      pure (item, stage) : Except LoopError (ℕ × StageState O A F)) =
        .ok pair → pair.1 = item := by
    intro item pair hpair
    obtain ⟨stage, _, hpure⟩ := bind_eq_ok.mp hpair
    cases hpure
    rfl
  obtain ⟨stage, hlookup, hstage⟩ := lookup_of_mapM hstages hkey hactive
  obtain ⟨first, hfirst, hpure⟩ := bind_eq_ok.mp hstage
  cases hpure
  simp only [firstStage] at hfirst
  obtain ⟨requests, hrequests, hpure⟩ := bind_eq_ok.mp hfirst
  cases hpure
  have hobs : (restructureObsData library config
      (resetEnv library config simulators)).getD stageId [] =
        (config.stageLanes stageId).map simulators.reset := by
    rw [restructure_resetEnv hlibrary, List.getD_eq_getElem _ _
      (by simpa using hrange stageId hactive), List.getElem_map,
      List.getElem_range]
  have hlength : ((config.stageLanes stageId).map simulators.reset).length =
      config.worldSize * config.numEnvs := by
    rw [List.length_map, config.length_stageLanes]
  rw [hobs] at hrequests
  simp only [hlookup, Option.getD_some]
  refine ⟨?_, config.maxInteractions_pos, [], ?_, ?_⟩
  · rw [flatten_requests hlibrary hlength hrequests, hlength]
  · constructor
    · rfl
    · exact nofun
    · intro lane _
      rfl
  · rw [hobs]
    rfl

theorem loopInv_of_run (hlibrary : library.Documented)
    (hstart : start library config simulators activeStageIds = .ok state)
    (hrun : Transition.Run (machine library config simulators activeStageIds)
      state events next) :
    LoopInv config simulators activeStageIds next := by
  apply hrun.invariant _ _ (loopInv_start hlibrary hstart)
  intro before label output after hinv hstep
  exact hinv.step hlibrary hstep

theorem checks_of_start
    (hstart : start library config simulators activeStageIds = .ok state) :
    activeStageIds ≠ [] ∧ activeStageIds.Nodup ∧
      ∀ stageId ∈ activeStageIds, stageId < config.stageNum := by
  simp only [start] at hstart
  rw [require_bind_eq_ok, require_bind_eq_ok] at hstart
  exact ⟨hstart.1, hstart.2.1⟩

theorem LoopInv.collected
    (hinv : LoopInv config simulators activeStageIds state)
    (hfinished : Finished state activeStageIds)
    (hactive : stageId ∈ activeStageIds) :
    Collected config simulators state.actions stageId config.maxInteractions 0
      (state.stage stageId).trajectory := by
  have hstage := hinv stageId hactive
  unfold StageInv at hstage
  rw [hfinished.2 stageId hactive] at hstage
  exact hstage.1

theorem LoopInv.length_actions
    (hinv : LoopInv config simulators activeStageIds state)
    (hfinished : Finished state activeStageIds)
    (hlane : lane ∈ activeStageIds.flatMap config.stageLanes) :
    (state.actions lane).length = config.maxInteractions := by
  obtain ⟨stageId, hactive, hmember⟩ := List.mem_flatMap.mp hlane
  exact (hinv.collected hfinished hactive).actions lane hmember

end Runs

/-! ## The collated rows -/

/-- The slots of a lane: the observation before each of its actions, the
action, and the feedback of its step. -/
def laneRow (simulators : LaneSimulators O A F) (lane : EnvLane)
    (actions : List A) : List (O × A × F) :=
  actions.mapIdx fun slot action =>
    (simulators.obsAt lane actions slot, action,
      simulators.feedbackAt lane actions slot)

theorem stackRows_eq {ι α : Type} {columns : List (List α)} {lanes : List ι}
    {row : ι → List α} (hcolumns : columns ≠ [])
    (hrow : ∀ lane ∈ lanes, (row lane).length = columns.length)
    (hentry : ∀ (slot : ℕ) (column : List α), columns[slot]? = some column →
      column.map some = lanes.map fun lane => (row lane)[slot]?) :
    stackRows columns = lanes.map row := by
  have hlength : ∀ column ∈ columns, column.length = lanes.length := by
    intro column hcolumn
    obtain ⟨slot, hslot, hget⟩ := List.getElem_of_mem hcolumn
    have heq := hentry slot column
      (by rw [List.getElem?_eq_getElem hslot, hget])
    simpa using congrArg List.length heq
  have hhead : (columns.head?.map List.length).getD 0 = lanes.length := by
    obtain ⟨head, rest, rfl⟩ := List.exists_cons_of_ne_nil hcolumns
    exact hlength head (List.mem_cons_self ..)
  apply List.ext_getElem
  · rw [stackRows, hhead, List.length_map, List.length_range, List.length_map]
  · intro index hindex hlane
    rw [List.length_map] at hlane
    have hmember := List.getElem_mem hlane
    have hread : columns.map (·[index]?) = (row lanes[index]).map some := by
      apply List.ext_getElem
      · rw [List.length_map, List.length_map, hrow _ hmember]
      · intro slot hslot hslot'
        rw [List.length_map] at hslot hslot'
        have heq := hentry slot columns[slot] (List.getElem?_eq_getElem hslot)
        have hbound : index < columns[slot].length := by
          rw [hlength _ (List.getElem_mem hslot)]
          exact hlane
        have hat := List.getElem_of_eq heq
          (by rw [List.length_map]; exact hbound)
        rw [List.getElem_map, List.getElem_map,
          List.getElem?_eq_getElem hslot'] at hat
        rw [List.getElem_map, List.getElem_map,
          List.getElem?_eq_getElem hbound, hat]
    rw [List.getElem_map]
    simp only [stackRows, List.getElem_map, List.getElem_range]
    calc
      columns.filterMap (·[index]?) =
          (columns.map (·[index]?)).filterMap id := by
        rw [List.filterMap_map]
        rfl
      _ = row lanes[index] := by
        rw [hread, List.filterMap_map]
        exact List.filterMap_some

theorem zip_map_some {ι : Type} {lanes : List ι} {action : ι → Option A}
    {taken : List A} (obs : ι → O) (feedback : ι → F)
    (htaken : taken.map some = lanes.map action) :
    ((lanes.map obs).zip (taken.zip (lanes.map feedback))).map some =
      lanes.map fun lane => (action lane).map fun value =>
        (obs lane, value, feedback lane) := by
  induction lanes generalizing taken with
  | nil => rfl
  | cons lane lanes ih =>
    cases taken with
    | nil => cases htaken
    | cons value taken =>
      obtain ⟨hvalue, hrest⟩ := List.cons.inj htaken
      simp only [List.map_cons, List.zip_cons_cons, ih hrest, ← hvalue,
        Option.map_some]

section Result

variable {library : BatchLibrary} {config : EnvLoopConfig}
  {simulators : LaneSimulators O A F}

theorem CompleteSlot.slotRows {index : ℕ} {slot : TrajectorySlot O A F}
    (hslot : CompleteSlot config simulators actions stageId index slot) :
    ∃ column : List (O × A × F),
      EnvLoop.slotRows stageId slot = .ok column ∧ column.map some = (config.stageLanes stageId).map fun lane =>
        (laneRow simulators lane (actions lane))[index]? := by
  obtain ⟨taken, haction, htaken⟩ := hslot.action
  have hrows := zip_map_some
    (fun lane => simulators.obsAt lane (actions lane) index)
    (fun lane => simulators.feedbackAt lane (actions lane) index) htaken
  refine ⟨_, ?_, hrows.trans ?_⟩
  · rw [EnvLoop.slotRows, haction, hslot.feedback, hslot.obs]
    rfl
  · apply List.map_congr_left
    intro lane _
    rw [laneRow, List.getElem?_mapIdx]

theorem mapM_index {α β : Type} {f : α → Except LoopError β}
    {items : List α} {good : ℕ → β → Prop}
    (hitems : ∀ index item, items[index]? = some item →
      ∃ value, f item = .ok value ∧ good index value) :
    ∃ values, items.mapM f = .ok values ∧ values.length = items.length ∧
      ∀ index value, values[index]? = some value → good index value := by
  induction items generalizing good with
  | nil => exact ⟨[], rfl, rfl, by simp⟩
  | cons item items ih =>
    obtain ⟨value, hvalue, hgood⟩ := hitems 0 item rfl
    have hrest : ∀ index item, items[index]? = some item →
        ∃ value, f item = .ok value ∧ good (index + 1) value := by
      intro index other hother
      exact hitems (index + 1) other hother
    obtain ⟨values, hvalues, hlength, hall⟩ := ih hrest
    refine ⟨value :: values, ?_, ?_, ?_⟩
    · simp only [List.mapM_cons, hvalue, hvalues]
      rfl
    · rw [List.length_cons, List.length_cons, hlength]
    · intro index other hother
      cases index with
      | zero =>
        cases hother
        exact hgood
      | succ index => exact hall index other hother

theorem Collected.collateStage
    (hcollected : Collected config simulators state.actions stageId
      config.maxInteractions 0 (state.stage stageId).trajectory) :
    collateStage state stageId = .ok ((config.stageLanes stageId).map
      fun lane => laneRow simulators lane (state.actions lane)) := by
  have hslots := fun index slot hslot =>
    (hcollected.complete index slot hslot).slotRows
  obtain ⟨columns, hcolumns, hlength, hentry⟩ := mapM_index hslots
  rw [EnvLoop.collateStage, hcolumns]
  have hcount := hlength.trans hcollected.length
  have hstack := stackRows_eq
    (List.ne_nil_of_length_pos (hcount ▸ config.maxInteractions_pos))
    (fun lane hlane => by
      rw [laneRow, List.length_mapIdx, hcollected.actions lane hlane, hcount]
      rfl) hentry
  rw [← hstack]
  rfl

theorem all_eq_headD {values : List ℕ}
    (hvalues : ∀ other ∈ values, other = value) :
    ∀ other ∈ values, other = values.headD 0 := by
  cases values with
  | nil => exact fun _ hother => (List.not_mem_nil hother).elim
  | cons head rest =>
    intro other hother
    rw [hvalues other hother, List.headD_cons,
      hvalues head (List.mem_cons_self ..)]

theorem result_eq (hlibrary : library.Documented)
    (hinv : LoopInv config simulators activeStageIds state)
    (hfinished : Finished state activeStageIds) :
    result library state activeStageIds = .ok
      ((activeStageIds.mergeSort.flatMap config.stageLanes).map fun lane =>
          laneRow simulators lane (state.actions lane),
        (activeStageIds.flatMap config.stageLanes).map fun lane =>
          (simulators.step lane (state.actions lane)).1) := by
  have hstage : ∀ stageId ∈ activeStageIds,
      Collected config simulators state.actions stageId
          config.maxInteractions 0 (state.stage stageId).trajectory ∧
        (state.stage stageId).lastObs =
          some ((config.stageLanes stageId).map fun lane =>
            (simulators.step lane (state.actions lane)).1) := by
    intro stageId hactive
    have hstage := hinv stageId hactive
    unfold StageInv at hstage
    rw [hfinished.2 stageId hactive] at hstage
    obtain ⟨hcollected, hlast⟩ := hstage
    rw [List.map_map] at hlast
    exact ⟨hcollected, hlast⟩
  have hsorted : ∀ stageId ∈ activeStageIds.mergeSort,
      stageId ∈ activeStageIds := by
    intro stageId hmember
    exact List.mem_mergeSort.mp hmember
  have hlengths : ∀ length ∈ activeStageIds.mergeSort.map
      (fun stageId => (state.stage stageId).trajectory.length),
      length = config.maxInteractions := by
    intro length hlength
    obtain ⟨stageId, hmember, rfl⟩ := List.mem_map.mp hlength
    exact (hstage stageId (hsorted stageId hmember)).1.length
  have hrows : activeStageIds.mergeSort.mapM (collateStage state) = _ :=
    mapM_eq_ok_map fun stageId hmember =>
      (hstage stageId (hsorted stageId hmember)).1.collateStage
  have hcollate : collateTrajectories library state activeStageIds = .ok
      ((activeStageIds.mergeSort.flatMap config.stageLanes).map fun lane =>
        laneRow simulators lane (state.actions lane)) := by
    simp only [collateTrajectories]
    rw [require_bind_eq_ok, bind_eq_ok]
    refine ⟨all_eq_headD hlengths, _, hrows, ?_⟩
    rw [hlibrary.concat, ← List.flatMap_def, List.map_flatMap]
    rfl
  have hlast : lastObservations library state activeStageIds = .ok
      ((activeStageIds.flatMap config.stageLanes).map fun lane =>
        (simulators.step lane (state.actions lane)).1) := by
    simp only [lastObservations]
    rw [bind_eq_ok]
    refine ⟨activeStageIds.map fun stageId =>
      (config.stageLanes stageId).map fun lane =>
        (simulators.step lane (state.actions lane)).1, ?_, ?_⟩
    · apply mapM_eq_ok_map
      intro stageId hactive
      rw [(hstage stageId hactive).2]
      rfl
    · rw [hlibrary.concat, ← List.flatMap_def, List.map_flatMap]
      rfl
  rw [result, hcollate, hlast]
  rfl

end Result

end EnvLoop

end VerlVla
