import VerlVla.BlockPartition
import VerlVla.CandidateSchedule

/-!
# The sharded streams are one global schedule

Every process computes its share of a reset wave from its own cursor.  Put
together in the order of collation the shares are consecutive indices of one
stream, so policy seeds do not repeat, groups of repeated layouts are whole
blocks, and evaluation cases come in turn.
-/

namespace VerlVla

open List hiding cons count nil partition

namespace EnvTopology

variable (topology : EnvTopology)

theorem absoluteIndices_aligned (slot : EnvSlot) (wave : ℕ) :
    topology.absoluteIndices slot (wave * topology.numEnvs) =
      range' (wave * topology.parallelWidth +
        topology.localOffset slot) topology.numEnvs := by
  unfold absoluteIndices
  rw [Nat.mul_div_cancel _ topology.numEnvs_pos, range'_eq_map_range]

theorem stageMajor_absoluteIndices (wave : ℕ) :
    topology.stageMajor (fun slot =>
        topology.absoluteIndices slot (wave * topology.numEnvs)) =
      range' (wave * topology.parallelWidth)
        topology.parallelWidth := by
  have hrank (stageId : ℕ) : ((range topology.worldSize).flatMap fun rank =>
        topology.absoluteIndices ⟨stageId, rank⟩ (wave * topology.numEnvs)) =
        range' (wave * topology.parallelWidth +
          stageId * (topology.worldSize * topology.numEnvs))
          (topology.worldSize * topology.numEnvs) := by
    have hblocks := flatMap_blocks (wave * topology.parallelWidth +
        stageId * (topology.worldSize * topology.numEnvs))
      topology.numEnvs topology.worldSize
    rw [← hblocks]
    congr 1
    funext rank
    rw [absoluteIndices_aligned]
    congr 1
    simp only [localOffset]
    ring
  have hwidth : topology.stageNum *
      (topology.worldSize * topology.numEnvs) = topology.parallelWidth := by
    simp only [parallelWidth]
    ring
  unfold stageMajor
  simp only [hrank]
  rw [flatMap_blocks, hwidth]

theorem stageMajor_map {α β : Type} (f : α → β) (rows : EnvSlot → List α) :
    topology.stageMajor (fun slot => (rows slot).map f) =
      (topology.stageMajor rows).map f := by
  simp [stageMajor, map_flatMap]

theorem stageMajor_congr {α : Type} {rows other : EnvSlot → List α}
    (hrows : ∀ slot, rows slot = other slot) :
    topology.stageMajor rows = topology.stageMajor other := by
  rw [funext hrows]

end EnvTopology

/-! ## Histories of one process -/

/-- The calls that move the schedule of a simulator process. -/
inductive CaseCommand
  | reset (mode : ResetMode) (resetEval : Bool)
  | setRuntimeEvalCases (layouts seeds : List ℤ)

namespace CaseState

variable {topology : EnvTopology} (config : RoboDojoConfig)
  (slot : EnvSlot)

/-- A rejected call leaves the state as it was. -/
def perform (state : CaseState topology) : CaseCommand → CaseState topology
  | .reset mode resetEval => (state.envReset config slot mode resetEval).2
  | .setRuntimeEvalCases layouts seeds =>
    match state.setRuntimeEvalCases layouts seeds with
    | .ok next => next
    | .error _ => state

def performAll (state : CaseState topology)
    (history : List CaseCommand) : CaseState topology :=
  history.foldl (perform config slot) state

end CaseState

def trainResets (history : List CaseCommand) : ℕ := history.countP fun
    | .reset .train _ => true
    | _ => false

def evalWaveAfter (topology : EnvTopology) (wave : ℕ) : CaseCommand → ℕ
  | .reset .train resetEval => if resetEval then 0 else wave
  | .reset .eval resetEval => if resetEval then 1 else wave + 1
  | .setRuntimeEvalCases layouts seeds =>
    if layouts.length = topology.numEnvs ∧
      seeds.length = topology.numEnvs then 0 else wave

def evalWave (topology : EnvTopology) (wave : ℕ)
    (history : List CaseCommand) : ℕ :=
  history.foldl (evalWaveAfter topology) wave

theorem evalWave_replicate (topology : EnvTopology) (wave count : ℕ) :
    evalWave topology wave (replicate count (.reset .eval false)) =
      wave + count := by
  induction count generalizing wave with
  | zero => rfl
  | succ count ih =>
    change evalWave topology (wave + 1) (replicate count _) = _
    rw [ih]
    omega

namespace CaseState

variable {topology : EnvTopology} {config : RoboDojoConfig}

theorem nextCases_train (slot : EnvSlot) (state : CaseState topology)
    (hgenerates : config.generatesSeeds = true) :
    state.nextCases config slot .train =
      ((topology.absoluteIndices slot state.trainCaseCursor).map
          config.streamCase,
        { state with
          trainCaseCursor := state.trainCaseCursor + topology.numEnvs }) := by
  simp [nextCases, hgenerates]

theorem perform_trainCaseCursor (slot : EnvSlot) (state : CaseState topology)
    (hgenerates : config.generatesSeeds = true) (command : CaseCommand) :
    (state.perform config slot command).trainCaseCursor =
      state.trainCaseCursor + trainResets [command] * topology.numEnvs := by
  cases command with
  | reset mode resetEval =>
    cases mode <;> cases resetEval <;>
      simp [perform, envReset, nextCases, hgenerates, trainResets]
  | setRuntimeEvalCases layouts seeds =>
    simp only [perform, setRuntimeEvalCases]
    split_ifs <;> simp [trainResets]

theorem performAll_trainCaseCursor (slot : EnvSlot)
    (hgenerates : config.generatesSeeds = true)
    (history : List CaseCommand) (state : CaseState topology) :
    (state.performAll config slot history).trainCaseCursor =
      state.trainCaseCursor + trainResets history * topology.numEnvs := by
  induction history generalizing state with
  | nil => simp [performAll, trainResets]
  | cons command history ih =>
    have hcount : trainResets (command :: history) =
        trainResets [command] + trainResets history := by
      rw [← singleton_append]
      exact countP_append
    change ((state.perform config slot command).performAll config slot
      history).trainCaseCursor = _
    rw [ih, perform_trainCaseCursor slot state hgenerates, hcount]
    ring

theorem perform_evalCaseCursor (slot : EnvSlot)
    (state : CaseState topology) (wave : ℕ)
    (haligned : state.evalCaseCursor = wave * topology.numEnvs)
    (command : CaseCommand) :
    (state.perform config slot command).evalCaseCursor =
      evalWaveAfter topology wave command * topology.numEnvs := by
  cases command with
  | reset mode resetEval =>
    cases mode <;> cases resetEval <;>
      simp only [perform, envReset, nextCases, evalWaveAfter] <;>
      split_ifs <;> simp_all [add_mul]
  | setRuntimeEvalCases layouts seeds =>
    simp only [perform, setRuntimeEvalCases, evalWaveAfter]
    split_ifs with hlengths
    · simp
    · simpa using haligned

theorem performAll_evalCaseCursor (slot : EnvSlot)
    (history : List CaseCommand) (state : CaseState topology) (wave : ℕ)
    (haligned : state.evalCaseCursor = wave * topology.numEnvs) :
    (state.performAll config slot history).evalCaseCursor =
      evalWave topology wave history * topology.numEnvs := by
  induction history generalizing state wave with
  | nil => exact haligned
  | cons command history ih =>
    exact ih _ _ (perform_evalCaseCursor slot state wave haligned command)

theorem perform_reset_runtimeEval (slot : EnvSlot)
    (state : CaseState topology) (mode : ResetMode) (resetEval : Bool) :
    (state.perform config slot (.reset mode resetEval)).runtimeEval =
      state.runtimeEval := by
  cases mode <;> cases resetEval <;>
    simp only [perform, envReset, nextCases] <;> split_ifs <;> rfl

theorem performAll_activeEvalCases (slot : EnvSlot)
    (history : List CaseCommand)
    (hresets : ∀ command ∈ history,
      ∃ mode resetEval, command = .reset mode resetEval)
    (state : CaseState topology) :
    (state.performAll config slot history).activeEvalCases config =
      state.activeEvalCases config := by
  induction history generalizing state with
  | nil => rfl
  | cons command history ih =>
    obtain ⟨⟨mode, resetEval, rfl⟩, hrest⟩ := forall_mem_cons.mp hresets
    change ((state.perform config slot
      (.reset mode resetEval)).performAll config slot
        history).activeEvalCases config = _
    rw [ih hrest]
    simp only [activeEvalCases, perform_reset_runtimeEval]

end CaseState

/-! ## Reset waves -/

section Waves

variable (config : RoboDojoConfig) {topology : EnvTopology}

/-- The cases drawn by a reset of all processes, in the order of collation. -/
def drawnWave (states : EnvSlot → CaseState topology) (mode : ResetMode)
    (resetEval : Bool) : List SelectedCase :=
  topology.stageMajor fun slot =>
    ((states slot).envReset config slot mode resetEval).1

def processStates (start : CaseState topology)
    (history : EnvSlot → List CaseCommand) (slot : EnvSlot) :
    CaseState topology :=
  start.performAll config slot (history slot)

/-- How often `TrainCluster.eval` wants a case of the benchmark. -/
def targetEvalEpisodeCount (benchmarkSize targetEpisodes caseId : ℕ) : ℕ :=
  targetEpisodes / benchmarkSize +
    if caseId < targetEpisodes % benchmarkSize then 1 else 0

variable {config} {start : CaseState topology} {firstWave : ℕ}

theorem drawnWave_train (hgenerates : config.generatesSeeds = true)
    (hstart : start.trainCaseCursor = firstWave * topology.numEnvs)
    {history : EnvSlot → List CaseCommand} {wave : ℕ}
    (hwave : ∀ slot, trainResets (history slot) = wave)
    (resetEval : Bool) :
    drawnWave config (processStates config start history) .train resetEval =
      (range' ((firstWave + wave) * topology.parallelWidth)
        topology.parallelWidth).map config.streamCase := by
  rw [← topology.stageMajor_absoluteIndices, ← topology.stageMajor_map]
  apply topology.stageMajor_congr
  intro slot
  have hcursor := CaseState.performAll_trainCaseCursor slot hgenerates
    (history slot) start
  rw [hwave, hstart, ← add_mul] at hcursor
  unfold CaseState.envReset
  cases resetEval <;>
    simp [CaseState.nextCases_train, hgenerates, processStates, hcursor]

theorem drawnWave_eval
    (hstart : start.evalCaseCursor = firstWave * topology.numEnvs)
    {history : EnvSlot → List CaseCommand} {wave : ℕ} (resetEval : Bool)
    (hwave : ∀ slot, (if resetEval then 0
      else evalWave topology firstWave (history slot)) = wave)
    {cases : CaseList}
    (hcases : ∀ slot,
      (processStates config start history slot).activeEvalCases config =
        cases) :
    drawnWave config (processStates config start history) .eval resetEval =
      (range' (wave * topology.parallelWidth)
        topology.parallelWidth).map cases.caseAt := by
  rw [← topology.stageMajor_absoluteIndices, ← topology.stageMajor_map]
  apply topology.stageMajor_congr
  intro slot
  have hcursor := @CaseState.performAll_evalCaseCursor topology config
    slot (history slot) start firstWave hstart
  have hslot := hwave slot
  have hactive := hcases slot
  unfold processStates at hactive ⊢
  cases resetEval with
  | false =>
    simp only [Bool.false_eq_true, if_false] at hslot
    simp [CaseState.envReset, CaseState.nextCases, hactive, hcursor, hslot]
  | true =>
    simp only [if_true] at hslot
    have hopened : CaseState.activeEvalCases config
        { start.performAll config slot (history slot) with
          evalCaseCursor := 0 } = cases := hactive
    simp [CaseState.envReset, CaseState.nextCases, hopened, ← hslot]

theorem layout_of_mem_block (hsize : config.trainLayoutRepeat = size)
    (hdvd : size ∣ width) (hindex : index < width / size)
    (hcase : case ∈ block size index
      ((range' (wave * width) width).map config.streamCase)) :
    case.layout =
      config.trainCases.layoutAt (wave * (width / size) + index) := by
  have hpositive : 0 < size := hsize ▸ config.repeat_pos
  obtain ⟨groups, rfl⟩ := hdvd
  rw [Nat.mul_div_cancel_left _ hpositive] at hindex ⊢
  have hfits : (index + 1) * size ≤ size * groups := by
    rw [Nat.mul_comm]
    exact Nat.mul_le_mul_left size hindex
  rw [block_map, block_range' hfits] at hcase
  obtain ⟨absolute, habsolute, rfl⟩ := mem_map.mp hcase
  obtain ⟨offset, hoffset, rfl⟩ := mem_range'.mp habsolute
  rw [RoboDojoConfig.streamCase_layout, hsize]
  congr 1
  have hsplit : wave * (size * groups) + index * size + 1 * offset =
      offset + size * (wave * groups + index) := by ring
  rw [hsplit, Nat.add_mul_div_left _ _ hpositive,
    Nat.div_eq_of_lt hoffset, Nat.zero_add]

theorem width_div_groupSize (hpositive : 0 < groupSize)
    (hgroups : candidateGroupsPerStage partition groupSize topology =
      .ok groupsPerStage) (hstage : partition = .stage →
      groupSize = topology.worldSize * topology.numEnvs) :
    topology.parallelWidth / groupSize =
      topology.stageNum * groupsPerStage := by
  apply Nat.div_eq_of_eq_mul_right hpositive
  cases partition with
  | stage =>
    cases hgroups
    rw [hstage rfl]
    simp only [EnvTopology.parallelWidth]
    ring
  | workerStage =>
    rw [candidateGroupsPerStage, require_bind_eq_ok] at hgroups
    obtain ⟨⟨_, hmod⟩, hgroups⟩ := hgroups
    cases hgroups
    have hwhole := Nat.mul_div_cancel' (Nat.dvd_of_mod_eq_zero hmod)
    calc topology.parallelWidth = topology.worldSize * topology.stageNum *
            (groupSize * (topology.numEnvs / groupSize)) := by
          rw [hwhole]
          rfl
      _ = _ := by ring

theorem plannedLayouts_eq (hschedule : config.trainLayoutSchedule ≠ [])
    (slot count : ℕ) :
    plannedLayouts config.trainLayoutSchedule slot count =
      .ok ((range count).map fun offset =>
        config.trainCases.layoutAt (slot + offset)) := by
  have hlayouts := config.trainCases_layouts
  rw [if_neg hschedule] at hlayouts
  have hlayout (offset : ℕ) : config.trainCases.layoutAt (slot + offset) =
        config.trainLayoutSchedule.get
          ⟨(slot + offset) % config.trainLayoutSchedule.length,
            Nat.mod_lt _ (length_pos_iff.mpr hschedule)⟩ := by
    simp [CaseList.layoutAt, CaseList.size, hlayouts]
  simp only [plannedLayouts, dif_neg hschedule, hlayout]
  exact mapM_pure

structure ShardedTrainStream (config : RoboDojoConfig)
    (topology : EnvTopology) (firstWave : ℕ)
    (drawn : ℕ → List SelectedCase) : Prop where
  indices (wave : ℕ) : drawn wave =
    (range' ((firstWave + wave) * topology.parallelWidth)
      topology.parallelWidth).map config.streamCase
  seeds (wave : ℕ) : (drawn wave).map (·.policySeed) =
    (range' ((firstWave + wave) * topology.parallelWidth)
      topology.parallelWidth).map fun index : ℕ => config.seedStart + index
  distinct (waves : ℕ) :
    (((range waves).flatMap drawn).map (·.policySeed)).Nodup
  blocks (wave groupSize : ℕ) (hrepeat : config.trainLayoutRepeat = groupSize)
    (htiles : groupSize ∣ topology.numEnvs ∨
      groupSize = topology.worldSize * topology.numEnvs)
    (index : ℕ) (hindex : index < topology.parallelWidth / groupSize)
    (case : SelectedCase) (hcase : case ∈ block groupSize index (drawn wave)) :
    case.layout = config.trainCases.layoutAt
      ((firstWave + wave) * (topology.parallelWidth / groupSize) + index)
  planned (wave groupSize : ℕ) (hrepeat : config.trainLayoutRepeat = groupSize)
    (hschedule : config.trainLayoutSchedule ≠ [])
    (partition : CandidatePartition) (groupsPerStage : ℕ)
    (hgroups : candidateGroupsPerStage partition groupSize topology =
      .ok groupsPerStage)
    (hstage : partition = .stage →
      groupSize = topology.worldSize * topology.numEnvs)
    (count : ℕ) (hcount : count ≤ topology.stageNum * groupsPerStage) :
    ∃ layouts, plannedLayouts config.trainLayoutSchedule
        ((firstWave + wave) * (topology.stageNum * groupsPerStage)) count =
          .ok layouts ∧ layouts.length = count ∧
      ∀ index (hindex : index < layouts.length),
        ∀ case ∈ block groupSize index (drawn wave),
          case.layout = layouts.get ⟨index, hindex⟩

structure ShardedEvalStream (cases : CaseList) (topology : EnvTopology)
    (drawn : ℕ → List SelectedCase) : Prop where
  indices (wave : ℕ) : drawn wave = (range' (wave * topology.parallelWidth)
      topology.parallelWidth).map cases.caseAt
  covered (waves episodes : ℕ) (hcases : episodes ≤ cases.size)
    (hepisodes : episodes ≤ waves * topology.parallelWidth) :
    (((range waves).flatMap drawn).take episodes).map (·.caseId) =
      range episodes
  counts (waves episodes : ℕ)
    (hepisodes : episodes ≤ waves * topology.parallelWidth)
    (caseId : ℕ) (hcase : caseId < cases.size) :
    ((((range waves).flatMap drawn).take episodes).map
      (·.caseId)).count caseId =
        targetEvalEpisodeCount cases.size episodes caseId

theorem flatMap_waves {drawn : ℕ → List SelectedCase}
    {select : ℕ → SelectedCase} {firstWave width : ℕ}
    (hdrawn : ∀ wave, drawn wave =
      (range' ((firstWave + wave) * width) width).map select)
    (waves : ℕ) :
    (range waves).flatMap drawn =
      (range' (firstWave * width) (waves * width)).map select := by
  rw [← flatMap_blocks, map_flatMap]
  congr 1
  funext wave
  rw [hdrawn, add_mul]

theorem shardedTrainStream_of_indices (hdrawn : ∀ wave, drawn wave =
      (range' ((firstWave + wave) * topology.parallelWidth)
        topology.parallelWidth).map config.streamCase) :
    ShardedTrainStream config topology firstWave drawn where
  indices := hdrawn
  seeds wave := by
    rw [hdrawn, map_map]
    rfl
  distinct waves := by
    rw [flatMap_waves hdrawn, map_map]
    apply Nodup.map _ nodup_range'
    intro first second hsame
    simp only [Function.comp, RoboDojoConfig.streamCase] at hsame
    omega
  blocks wave groupSize hrepeat htiles index hindex case hcase := by
    have hdvd : groupSize ∣ topology.parallelWidth := by
      cases htiles with
      | inl hdvd => exact hdvd.mul_left _
      | inr hwhole =>
        use topology.stageNum
        rw [hwhole]
        simp only [EnvTopology.parallelWidth]
        ring
    rw [hdrawn] at hcase
    exact layout_of_mem_block hrepeat hdvd hindex hcase
  planned wave groupSize hrepeat hschedule partition groupsPerStage hgroups
      hstage count hcount := by
    have hpositive : 0 < groupSize := hrepeat ▸ config.repeat_pos
    have hwidth := width_div_groupSize hpositive hgroups hstage
    have hdvd : groupSize ∣ topology.parallelWidth := by
      cases partition with
      | stage =>
        use topology.stageNum
        rw [hstage rfl]
        simp only [EnvTopology.parallelWidth]
        ring
      | workerStage =>
        rw [candidateGroupsPerStage, require_bind_eq_ok] at hgroups
        exact (Nat.dvd_of_mod_eq_zero hgroups.1.2).mul_left _
    have hplanned := plannedLayouts_eq hschedule
      ((firstWave + wave) * (topology.stageNum * groupsPerStage)) count
    refine ⟨_, hplanned, by simp, fun index hindex case hcase => ?_⟩
    have hbound : index < topology.parallelWidth / groupSize := by
      rw [length_map, length_range] at hindex
      omega
    rw [hdrawn] at hcase
    have hlayout := layout_of_mem_block hrepeat hdvd hbound hcase
    rw [hlayout, hwidth]
    simp

theorem shardedEvalStream_of_indices (hdrawn : ∀ wave, drawn wave =
      (range' (wave * topology.parallelWidth)
        topology.parallelWidth).map cases.caseAt) :
    ShardedEvalStream cases topology drawn := by
  have hids (waves episodes : ℕ)
      (hepisodes : episodes ≤ waves * topology.parallelWidth) :
      (((range waves).flatMap drawn).take episodes).map (·.caseId) =
        (range episodes).map (· % cases.size) := by
    have hzero (wave : ℕ) : drawn wave =
        (range' ((0 + wave) * topology.parallelWidth)
          topology.parallelWidth).map cases.caseAt := by
      rw [hdrawn, Nat.zero_add]
    rw [flatMap_waves hzero, Nat.zero_mul, ← map_take,
      take_range'_of_length_ge hepisodes, map_map,
      range_eq_range']
    rfl
  constructor
  · exact hdrawn
  · intro waves episodes hcases hepisodes
    rw [hids waves episodes hepisodes]
    have hsmall : ∀ index ∈ range episodes, index % cases.size = id index := by
      intro index hindex
      have hbound := mem_range.mp hindex
      exact Nat.mod_eq_of_lt (by omega)
    rw [map_congr_left hsmall, map_id]
  · intro waves episodes hepisodes caseId hcase
    rw [hids waves episodes hepisodes]
    exact count_residue episodes caseId hcase

/-- The waves of simulators that were reset together are slices of one
schedule, for training and for each evaluation. -/
theorem sharded_case_stream (config : RoboDojoConfig)
    {topology : EnvTopology} (start : CaseState topology)
    (firstTrainWave firstEvalWave : ℕ)
    (htrain : start.trainCaseCursor = firstTrainWave * topology.numEnvs)
    (heval : start.evalCaseCursor = firstEvalWave * topology.numEnvs) :
    (∀ (history : ℕ → EnvSlot → List CaseCommand) (resetEval : ℕ → Bool),
      config.trainLayoutRepeat ≠ 1 ∨ config.trainPolicySeedStart ≠ none →
      (∀ wave slot, trainResets (history wave slot) = wave) →
      ShardedTrainStream config topology firstTrainWave fun wave =>
        drawnWave config (processStates config start (history wave)) .train
          (resetEval wave)) ∧
    (∀ (history : ℕ → EnvSlot → List CaseCommand) (cases : CaseList),
      (∀ wave slot, wave ≠ 0 →
        evalWave topology firstEvalWave (history wave slot) = wave) →
      (∀ wave slot, (processStates config start (history wave)
        slot).activeEvalCases config = cases) →
      ShardedEvalStream cases topology fun wave =>
        drawnWave config (processStates config start (history wave)) .eval
          (wave = 0)) := by
  constructor
  · intro history resetEval hconfig hwaves
    have hgenerates : config.generatesSeeds = true := by
      cases hconfig with
      | inl hrepeat => simp [RoboDojoConfig.generatesSeeds, hrepeat]
      | inr hseed =>
          have hsome := Option.isSome_iff_ne_none.mpr hseed
          simp [RoboDojoConfig.generatesSeeds, hsome]
    apply shardedTrainStream_of_indices
    intro wave
    exact drawnWave_train hgenerates htrain (hwaves wave) (resetEval wave)
  · intro history cases hwaves hcases
    apply shardedEvalStream_of_indices
    intro wave
    apply drawnWave_eval heval _ _ (hcases wave)
    intro slot
    by_cases hzero : wave = 0
    · simp [hzero]
    · simpa [hzero] using hwaves wave slot hzero

def pairedConfig : RoboDojoConfig where
  layoutIds := [0, 1, 2, 3, 4]
  trainLayoutSchedule := [3, 4, 5]
  trainPolicySeedSchedule := []
  trainLayoutRepeat := 2
  trainPolicySeedStart := some 100
  trainCaseCursorStart := 0
  evalPolicySeedSchedule := []
  seed := 7
  layoutIds_ne := by decide
  trainSeeds_aligned := by decide
  repeat_pos := Nat.two_pos
  repeat_generated := by decide
  start_generated := by decide
  evalSeeds_aligned := by decide

def pairedTopology : EnvTopology where
  worldSize := 2
  stageNum := 2
  numEnvs := 2
  numEnvs_pos := Nat.two_pos

def pairedStart : CaseState pairedTopology := CaseState.initial pairedConfig

theorem sharded_case_stream_paired :
    ShardedTrainStream pairedConfig pairedTopology 0 (fun wave =>
      drawnWave pairedConfig
        (processStates pairedConfig pairedStart fun _ =>
          replicate wave (.reset .train false)) .train
        false) ∧
    ShardedEvalStream pairedConfig.evalCases pairedTopology (fun wave =>
      drawnWave pairedConfig
        (processStates pairedConfig pairedStart fun _ =>
          replicate wave (.reset .eval false)) .eval
        (wave = 0)) := by
  have hstream := sharded_case_stream pairedConfig pairedStart 0 0 rfl rfl
  constructor
  · apply hstream.1 (fun wave _ => replicate wave (.reset .train false))
      (fun _ => false)
    · decide
    · intro wave slot
      simp [trainResets, countP_replicate]
  · apply hstream.2 (fun wave _ => replicate wave (.reset .eval false))
    · intro wave slot _
      exact (evalWave_replicate pairedTopology 0 wave).trans (Nat.zero_add _)
    · intro wave slot
      apply CaseState.performAll_activeEvalCases
      intro command hcommand
      exact ⟨.eval, false, eq_of_mem_replicate hcommand⟩

end Waves
end VerlVla
