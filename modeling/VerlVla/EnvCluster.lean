import VerlVla.ShardedStream

/-!
# Rollouts and evaluations of the simulators

A rollout consumes the reset in flight and issues the next one, so the train
cursors stand one wave ahead of the observation that will be used.  An
evaluation leaves a fresh training reset in flight.
-/

namespace VerlVla

/-- The simulator processes and the training reset in flight. -/
structure EnvCluster (topology : EnvTopology) where
  processes : EnvSlot → CaseState topology
  resetFuture : Option (List SelectedCase)

namespace EnvCluster

variable {topology : EnvTopology} (config : RoboDojoConfig)

/-- Newly started simulators, with the configured train cursor. -/
def fresh (cursor : ℕ) : EnvCluster topology where
  processes _ := { (CaseState.initial config : CaseState topology) with
      trainCaseCursor := cursor }
  resetFuture := none

/-- Reset every process; the observations come back as one wave. -/
def resetEnv (processes : EnvSlot → CaseState topology)
    (mode : ResetMode) (resetEval : Bool) :
    List SelectedCase × (EnvSlot → CaseState topology) :=
  (drawnWave config processes mode resetEval,
    fun slot => ((processes slot).envReset config slot mode resetEval).2)

def activeRows (topology : EnvTopology) (activeStages : Option ℕ)
    (wave : List SelectedCase) : List SelectedCase :=
  match activeStages with
  | none => wave
  | some stages => wave.take (stages * topology.worldSize * topology.numEnvs)

def awaitReset (cluster : EnvCluster topology) :
    List SelectedCase × (EnvSlot → CaseState topology) :=
  match cluster.resetFuture with
  | some wave => (wave, cluster.processes)
  | none => resetEnv config cluster.processes .train false

/-- `_rollout_once`: the cases of the rows, and the cluster afterwards. -/
def rollout (cluster : EnvCluster topology) (activeStages : Option ℕ) :
    List SelectedCase × EnvCluster topology :=
  let used := cluster.awaitReset config
  let prefetch := resetEnv config used.2 .train false
  (activeRows topology activeStages used.1,
    { processes := prefetch.2
      resetFuture := some prefetch.1 })

def evalResets (processes : EnvSlot → CaseState topology) :
    ℕ → EnvSlot → CaseState topology
  | 0 => processes
  | count + 1 =>
    (resetEnv config (evalResets processes count) .eval (count = 0)).2

/-- `eval`: it ends with a training reset that replaces the one in flight. -/
def eval (cluster : EnvCluster topology) (resets : ℕ) : EnvCluster topology :=
  let final := resetEnv config
    (evalResets config cluster.processes resets) .train false
  { processes := final.2
    resetFuture := some final.1 }

end EnvCluster

/-! ## Cursors that draw the same cases -/

namespace CaseState

variable {topology : EnvTopology} {config : RoboDojoConfig}

def trainDraw (config : RoboDojoConfig) (topology : EnvTopology)
    (slot : EnvSlot) (cursor : ℕ) : List SelectedCase :=
  ((⟨cursor, 0, none⟩ : CaseState topology).nextCases config slot .train).1

theorem nextCases_train_fst (slot : EnvSlot) (state : CaseState topology) :
    (state.nextCases config slot .train).1 =
      trainDraw config topology slot state.trainCaseCursor := by
  simp only [trainDraw, nextCases]
  split_ifs <;> rfl

end CaseState

/-- Two train cursors that no draw can tell apart. -/
def SameCursor (config : RoboDojoConfig) (cursor other : ℕ) : Prop :=
  if config.generatesSeeds then cursor = other
  else cursor % config.trainCases.size = other % config.trainCases.size

namespace SameCursor

variable {topology : EnvTopology} {config : RoboDojoConfig}

theorem of_eq (heq : cursor = other) : SameCursor config cursor other := by
  unfold SameCursor
  split_ifs
  · exact heq
  · rw [heq]

theorem trainDraw_eq (hsame : SameCursor config cursor other)
    (slot : EnvSlot) :
    CaseState.trainDraw config topology slot cursor =
      CaseState.trainDraw config topology slot other := by
  unfold SameCursor at hsame
  unfold CaseState.trainDraw CaseState.nextCases
  by_cases hgenerates : config.generatesSeeds = true
  · rw [if_pos hgenerates] at hsame
    rw [hsame]
  · rw [if_neg hgenerates] at hsame
    simp only [if_neg hgenerates]
    apply List.map_congr_left
    intro offset _
    have hshift := Nat.ModEq.add_right offset hsame
    rw [← CaseList.caseAt_mod, hshift, CaseList.caseAt_mod]

theorem after_draw (state : CaseState topology) (slot : EnvSlot)
    (hsame : SameCursor config state.trainCaseCursor cursor) :
    SameCursor config (state.nextCases config slot .train).2.trainCaseCursor
      (cursor + topology.numEnvs) := by
  unfold SameCursor at hsame ⊢
  unfold CaseState.nextCases
  by_cases hgenerates : config.generatesSeeds = true
  · simp only [if_pos hgenerates] at hsame ⊢
    rw [hsame]
  · simp only [if_neg hgenerates] at hsame ⊢
    rw [Nat.mod_mod]
    exact Nat.ModEq.add_right topology.numEnvs hsame

end SameCursor

/-! ## The wave a cluster stands at -/

def waveAt (config : RoboDojoConfig) (topology : EnvTopology) (wave : ℕ) :
    List SelectedCase :=
  topology.stageMajor fun slot =>
    CaseState.trainDraw config topology slot (wave * topology.numEnvs)

namespace EnvCluster

variable {topology : EnvTopology} {config : RoboDojoConfig}

def CursorsAt (config : RoboDojoConfig)
    (processes : EnvSlot → CaseState topology) (wave : ℕ) : Prop :=
  ∀ slot, SameCursor config (processes slot).trainCaseCursor
    (wave * topology.numEnvs)

/-- The next rollout uses the given wave. -/
def StandsAt (config : RoboDojoConfig) (cluster : EnvCluster topology)
    (wave : ℕ) : Prop :=
  match cluster.resetFuture with
  | none => CursorsAt config cluster.processes wave
  | some drawn => drawn = waveAt config topology wave ∧
      CursorsAt config cluster.processes (wave + 1)

section

variable {processes : EnvSlot → CaseState topology}
  (hcursors : CursorsAt config processes wave)

include hcursors

theorem resetEnv_train : (resetEnv config processes .train false).1 =
        waveAt config topology wave ∧
      CursorsAt config (resetEnv config processes .train false).2
        (wave + 1) := by
  constructor
  · simp only [resetEnv, drawnWave, waveAt]
    apply topology.stageMajor_congr
    intro slot
    change ((processes slot).nextCases config slot .train).1 = _
    rw [CaseState.nextCases_train_fst]
    exact (hcursors slot).trainDraw_eq slot
  · intro slot
    rw [add_mul, one_mul]
    exact SameCursor.after_draw (processes slot) slot (hcursors slot)

theorem resetEnv_eval (resetEval : Bool) :
    CursorsAt config (resetEnv config processes .eval resetEval).2
      wave := by
  intro slot
  cases resetEval <;> exact hcursors slot

theorem evalResets_cursors (count : ℕ) :
    CursorsAt config (evalResets config processes count) wave := by
  induction count with
  | zero => exact hcursors
  | succ count ih => exact resetEnv_eval ih _

end

theorem fresh_standsAt (wave : ℕ) : (fresh config (wave * topology.numEnvs) :
      EnvCluster topology).StandsAt config wave :=
  fun _ => SameCursor.of_eq rfl

theorem rollout_spec {cluster : EnvCluster topology}
    (hstands : cluster.StandsAt config wave) (activeStages : Option ℕ) :
    (cluster.rollout config activeStages).1 =
        activeRows topology activeStages (waveAt config topology wave) ∧
      (cluster.rollout config activeStages).2.StandsAt config (wave + 1) ∧
      (cluster.rollout config activeStages).2.resetFuture.isSome := by
  have hused : (cluster.awaitReset config).1 = waveAt config topology wave ∧
      CursorsAt config (cluster.awaitReset config).2 (wave + 1) := by
    unfold StandsAt at hstands
    unfold awaitReset
    cases hfuture : cluster.resetFuture with
    | none =>
      rw [hfuture] at hstands
      exact resetEnv_train hstands
    | some drawn =>
      rw [hfuture] at hstands
      exact hstands
  refine ⟨?_, resetEnv_train hused.2, rfl⟩
  change activeRows topology activeStages (cluster.awaitReset config).1 = _
  rw [hused.1]

theorem eval_spec {cluster : EnvCluster topology}
    (hstands : cluster.StandsAt config wave)
    (hfuture : cluster.resetFuture.isSome) (resets : ℕ) :
    (cluster.eval config resets).StandsAt config (wave + 1) ∧
      (cluster.eval config resets).resetFuture.isSome := by
  obtain ⟨drawn, hdrawn⟩ := Option.isSome_iff_exists.mp hfuture
  rw [StandsAt, hdrawn] at hstands
  exact ⟨resetEnv_train (evalResets_cursors hstands.2 resets), rfl⟩

end EnvCluster
end VerlVla
