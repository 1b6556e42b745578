import VerlVla.FpoDrift

/-!
# Ranks that part in an update

Where an epoch may end the update and another would follow, the rank that
drifts leaves and the others go on.
-/

namespace VerlVla

open List hiding cons count nil

open RankProgram
open EpochLayout (selectRows)

namespace FpoSetting

section Rows

variable {K : Type} [Field K] {world size : ℕ}

theorem driftRows_minibatch (hlocal : 0 < localSize) :
    ∀ rows ∈ minibatchRows localSize epoch (driftShards (K := K) world size),
      ∃ rowCount, 0 < rowCount ∧ rowCount ≤ size ∧
        DriftRows rowCount rows := by
  intro rows hrows
  obtain ⟨start, hstart, rfl⟩ := mem_map.mp hrows
  have hlt := chunkStarts_lt hlocal hstart
  have hindices : ∀ index ∈ sliceRows (start, start + localSize)
      (range size), index < size := fun index hindex =>
    mem_range.mp (mem_of_mem_drop (mem_of_mem_take hindex))
  refine ⟨min localSize (size - start), by omega, by omega, ?_, ?_⟩
  · intro rank
    change (selectRows (sliceRows (start, start + localSize)
      (range size)) (replicate size _)).length = _
    rw [length_selectRows]
    · rw [sliceRows, length_take, length_drop, length_range,
        Nat.add_sub_cancel_left]
    · simpa using hindices
  · intro rank row hrow
    have hmember := EpochLayout.mem_of_mem_selectRows hrow
    rw [eq_of_mem_replicate hmember]
    exact ⟨rfl, rfl, rfl⟩

end Rows

section Operations

variable {K : Type}

/-- The next operation is not the one that ends an update. -/
def GoesOn {α : Type} (program : FpoProgram K Unit α) : Prop :=
  ∃ op contribution next, op ≠ FpoCollective.metrics ∧
    program = .collect op contribution next

theorem GoesOn.bind {α β : Type} {program : FpoProgram K Unit α}
    (hprogram : GoesOn program) (rest : α → FpoProgram K Unit β) :
    GoesOn (program >>= rest) := by
  obtain ⟨op, contribution, next, hne, rfl⟩ := hprogram
  exact ⟨op, contribution, fun result => next result >>= rest, hne, rfl⟩

end Operations

section Epochs

variable {K : Type} [Field K] [LinearOrder K]
  {setting : FpoSetting K ℕ Unit Unit Unit Unit Bool} {drift kl : K}
  {world size : ℕ}

theorem Drifting.minibatchStep_goesOn (hdrift : setting.Drifting drift kl)
    (epoch : ℕ) (state : RankState K ℕ Unit Unit Unit)
    {rows : List (FpoChunk K Bool)} (hrows : rows ≠ []) :
    GoesOn (setting.minibatchStep epoch state rows) := by
  unfold minibatchStep
  by_cases hnormalize : setting.config.normalizeAdvantages = true
  · apply GoesOn.bind
    unfold normalizeRows
    rw [if_pos hnormalize, if_pos (hdrift.normalized hnormalize)]
    exact ⟨.normalizeAdvantages, _, _, by simp, rfl⟩
  · unfold normalizeRows
    rw [if_neg hnormalize]
    by_cases hcritic : setting.config.criticEnabled = true
    · unfold hierarchicalNormalization
      simp only [if_pos hcritic]
      change GoesOn (forEach (setting.microBatchStep none)
        (splitRows setting.config.microBatchSize rows) _ >>= _)
      apply GoesOn.bind
      have hcount := length_chunkStarts_pos hdrift.micro
        (length_pos_iff.mpr hrows)
      cases hstarts : chunkStarts rows.length
          setting.config.microBatchSize with
      | nil =>
        rw [hstarts] at hcount
        exact absurd hcount (lt_irrefl 0)
      | cons start starts =>
        rw [splitRows, hstarts]
        exact ⟨.forward, (), _, by simp, rfl⟩
    · unfold hierarchicalNormalization
      simp only [if_neg hcritic]
      exact ⟨.lossDenominator, _, _, by simp, rfl⟩

theorem Drifting.runEpochs_goesOn (hdrift : setting.Drifting drift kl)
    {localSize : ℕ} (hlocal : 0 < localSize) (hsize : 0 < size)
    (remaining epoch : ℕ) (rank : Fin world)
    (state : RankState K ℕ Unit Unit Unit) :
    GoesOn (setting.runEpochs localSize (driftShards world size rank)
      (remaining + 1) epoch state) := by
  apply GoesOn.bind
  rw [minibatches_eq]
  have hcount := length_chunkStarts_pos hlocal hsize
  cases hrows : minibatchRows localSize epoch
      (driftShards (K := K) world size) with
  | nil =>
    rw [← length_map, ← minibatchRows, hrows] at hcount
    exact absurd hcount (lt_irrefl 0)
  | cons rows others =>
    obtain ⟨rowCount, hpositive, _, hdriftRows⟩ :=
      driftRows_minibatch hlocal rows (hrows ▸ mem_cons_self)
    apply GoesOn.bind
    apply hdrift.minibatchStep_goesOn
    apply ne_nil_of_length_pos
    rwa [hdriftRows.length rank]

section Ordered

variable [IsStrictOrderedRing K]

variable {states : Fin setting.worldSize → RankState K ℕ Unit Unit Unit}
  {raised : UpdateError K → Prop}
  {post : (Fin setting.worldSize → FpoState ℕ Unit Unit Unit) → Prop}

theorem epoch_drift (hdrift : setting.Drifting drift kl)
    (hworld : 0 < setting.worldSize) (hlocal : 0 < localSize) (epoch : ℕ)
    (hstates : RankDrift kl size parameters False parameters 0 states) :
    setting.Sure (RankDrift kl size
        (parameters + (chunkStarts size localSize).length) False
        (parameters + (chunkStarts size localSize).length)
        (chunkStarts size localSize).length) fun rank =>
      forEach (fun _ => setting.minibatchStep epoch)
        (minibatches localSize (driftShards setting.worldSize size rank).rows
          ((driftShards (K := K) setting.worldSize size rank).permutation
            epoch))
        (states rank) := by
  have hloop : setting.Sure (fun values => RankDrift kl size
      (parameters + (0 + (minibatchRows localSize epoch
        (driftShards (K := K) setting.worldSize size)).length)) False
      (parameters + (0 + (minibatchRows localSize epoch
        (driftShards (K := K) setting.worldSize size)).length))
      (0 + (minibatchRows localSize epoch
        (driftShards (K := K) setting.worldSize size)).length) values)
      fun rank => forEach (fun _ => setting.minibatchStep epoch)
        ((minibatchRows localSize epoch
          (driftShards setting.worldSize size)).map (· rank))
        (states rank) := by
    apply Together.forEach_count
      (fun count => RankDrift kl size (parameters + count) False
        (parameters + count) count)
      (fun rows : Fin setting.worldSize → List (FpoChunk K Bool) =>
        ∃ rowCount, 0 < rowCount ∧ rowCount ≤ size ∧ DriftRows rowCount rows)
    · rintro count _ states rows hstates ⟨rowCount, hpositive, hfits, hrows⟩
      exact minibatchStep_drift hdrift hworld epoch hpositive hfits hstates
        hrows
    · exact driftRows_minibatch hlocal
    · exact hstates
  have hlength : (minibatchRows localSize epoch
      (driftShards (K := K) setting.worldSize size)).length =
        (chunkStarts size localSize).length := length_map _
  rw [hlength, Nat.zero_add] at hloop
  simp only [minibatches_eq]
  exact hloop

/-- A drift that shows in the mean of an epoch, however the epoch is split. -/
def Exceeds (target kl : K) (size count : ℕ) : Prop :=
  target * (count * (size + 1) : ℕ) * size < kl

theorem Drifting.stopsAfterEpoch (hdrift : setting.Drifting drift kl)
    (htarget : setting.config.targetKl = some target) (hpositive : 0 < target)
    (hsize : 0 < size) (hcount : 0 < count)
    (hexceeds : Exceeds target kl size count) {quiet loud : Prop}
    (hkls : KlsSeen (count * (size + 1)) quiet loud (kl / size) kls)
    (hloud : loud) : setting.stopsAfterEpoch kls = true := by
  have hsizePos : (0 : K) < size := Nat.cast_pos.mpr hsize
  have hone : 1 ≤ count * (size + 1) := Nat.mul_pos hcount (Nat.succ_pos size)
  have hentries : ((max kls.length 1 : ℕ) : K) ≤ (count * (size + 1) : ℕ) :=
    Nat.cast_le.mpr (max_le hkls.length hone)
  have hentriesPos : (0 : K) < (max kls.length 1 : ℕ) :=
    Nat.cast_pos.mpr (lt_max_of_lt_right Nat.one_pos)
  have hmean : target < meanEpochKl kls := by
    rw [meanEpochKl, lt_div_iff₀ hentriesPos]
    calc
      target * (max kls.length 1 : ℕ) ≤ target * (count * (size + 1) : ℕ) :=
        mul_le_mul_of_nonneg_left hentries hpositive.le
      _ < kl / size := (lt_div_iff₀ hsizePos).mpr hexceeds
      _ ≤ kls.sum := hkls.loud hloud
  rw [FpoSetting.stopsAfterEpoch, hdrift.mode, htarget, Option.any_some,
    decide_eq_true hmean]
  rfl

def epochsThenMetrics (setting : FpoSetting K ℕ Unit Unit Unit Unit Bool)
    (size localSize remaining epoch : ℕ) (rank : Fin setting.worldSize)
    (state : RankState K ℕ Unit Unit Unit) :
    FpoProgram K Unit (FpoState ℕ Unit Unit Unit) := do
  let state ← setting.runEpochs localSize
    (driftShards setting.worldSize size rank) remaining epoch state
  let () ← RankProgram.collective FpoCollective.metrics ()
  return state.toFpoState

theorem Drifting.after_epoch (hdrift : setting.Drifting drift kl)
    (hworld : 0 < setting.worldSize) (hlocal : 0 < localSize)
    (hstates : InStep parameters False fun rank => (states rank).toFpoState)
    (htogether : Together setting.reduce raised post fun rank =>
      setting.epochsThenMetrics size localSize (remaining + 1) epoch rank
        (states rank)) :
    ∃ ended : Fin setting.worldSize → RankState K ℕ Unit Unit Unit,
      RankDrift kl size (parameters + (chunkStarts size localSize).length)
        False (parameters + (chunkStarts size localSize).length)
        (chunkStarts size localSize).length ended ∧
      Together setting.reduce raised post fun rank =>
        if setting.stopsAfterEpoch (ended rank).epochKls then
          RankProgram.collective FpoCollective.metrics () >>=
            fun _ => pure (ended rank).toFpoState
        else setting.epochsThenMetrics size localSize remaining (epoch + 1)
          rank (ended rank) := by
  have hbegan : RankDrift kl size parameters False parameters 0
      fun rank => ({ states rank with epochKls := [] } :
        RankState K ℕ Unit Unit Unit) := by
    refine ⟨hstates, fun rank => ⟨Nat.zero_le _, nofun, nofun, ?_⟩⟩
    exact fun hloud => absurd hloud.2.2 (lt_irrefl 0)
  have : Nonempty (Fin setting.worldSize) := ⟨⟨0, hworld⟩⟩
  have hepoch := epoch_drift hdrift hworld hlocal epoch hbegan
  simp only [epochsThenMetrics, runEpochs, RankProgram.bind_assoc] at htogether
  obtain ⟨ended, hended, hrest⟩ := hepoch.rest htogether
  obtain ⟨shared, hshared, hparameters, htriggered, hgate⟩ := hended.inStep
  refine ⟨fun rank => { ended rank with
    epochsRun := (ended rank).epochsRun + 1 }, ⟨?_, hended.kls⟩, ?_⟩
  · refine ⟨{ shared with epochsRun := shared.epochsRun + 1 }, ?_,
      hparameters, htriggered, hgate⟩
    intro rank
    rw [← hshared rank]
  · have hflag : ∀ rank, (ended rank).klEarlyStopTriggered = false := by
      intro rank
      rw [← htriggered, ← hshared rank]
    convert hrest using 2 with rank
    by_cases hstops : setting.stopsAfterEpoch (ended rank).epochKls = true
    · rw [if_pos hstops, if_pos (by rw [hstops, Bool.or_true])]
      rfl
    · rw [if_neg hstops, if_neg (by rwa [hflag, Bool.false_or])]
      rfl

theorem Drifting.epochs_part (hdrift : setting.Drifting drift kl)
    (hworld : 1 < setting.worldSize) {target : K}
    (htarget : setting.config.targetKl = some target) (hpositive : 0 < target)
    {localSize : ℕ} (hlocal : 0 < localSize) (hsize : 0 < size)
    (hexceeds : Exceeds target kl size (chunkStarts size localSize).length)
    {parameters remaining epoch : ℕ}
    (hmoved : 2 ≤ parameters + (chunkStarts size localSize).length)
    (hstates : InStep parameters False fun rank => (states rank).toFpoState) :
    ¬Together setting.reduce raised post fun rank =>
      setting.epochsThenMetrics size localSize (remaining + 2) epoch rank
        (states rank) := by
  intro htogether
  have hcount := length_chunkStarts_pos hlocal hsize
  obtain ⟨ended, hended, hrest⟩ :=
    hdrift.after_epoch (by omega) hlocal hstates htogether
  let first : Fin setting.worldSize := ⟨0, by omega⟩
  let second : Fin setting.worldSize := ⟨1, hworld⟩
  have hstops : setting.stopsAfterEpoch (ended first).epochKls = true :=
    hdrift.stopsAfterEpoch htarget hpositive hsize hcount hexceeds
      (hended.kls first) ⟨rfl, hmoved, hcount⟩
  have hgoes : setting.stopsAfterEpoch (ended second).epochKls = false :=
    stopsAfterEpoch_of_zero ((hended.kls second).quiet (.inl Nat.one_ne_zero))
      (by
        intro other hother
        rw [htarget] at hother
        rwa [← Option.some.inj hother])
  obtain ⟨op, contribution, next, hne, hop⟩ :=
    (hdrift.runEpochs_goesOn hlocal hsize remaining (epoch + 1) second
      (ended second)).bind fun state =>
        RankProgram.collective FpoCollective.metrics () >>=
          fun _ => pure state.toFpoState
  apply not_together_of_ne first second hne.symm _ _ hrest
  · exact ()
  · exact contribution
  · exact fun _ => .done (ended first).toFpoState
  · exact next
  · rw [if_pos hstops]
    rfl
  · rw [if_neg (by rw [hgoes]; exact Bool.false_ne_true)]
    exact hop

theorem Drifting.quiet_epoch (hdrift : setting.Drifting drift kl)
    (hworld : 0 < setting.worldSize)
    (htarget : ∀ target ∈ setting.config.targetKl, 0 < target)
    (hlocal : 0 < localSize)
    (hsingle : (chunkStarts size localSize).length = 1)
    (hstates : InStep 0 False fun rank => (states rank).toFpoState)
    (htogether : Together setting.reduce raised post fun rank =>
      setting.epochsThenMetrics size localSize (remaining + 1) epoch rank
        (states rank)) :
    ∃ ended : Fin setting.worldSize → RankState K ℕ Unit Unit Unit,
      InStep 1 False (fun rank => (ended rank).toFpoState) ∧
      Together setting.reduce raised post fun rank =>
        setting.epochsThenMetrics size localSize remaining (epoch + 1) rank
          (ended rank) := by
  obtain ⟨ended, hended, hrest⟩ :=
    hdrift.after_epoch hworld hlocal hstates htogether
  rw [hsingle, Nat.zero_add] at hended
  have hgoes : ∀ rank,
      setting.stopsAfterEpoch (ended rank).epochKls = false := fun rank =>
    stopsAfterEpoch_of_zero ((hended.kls rank).quiet (.inr (le_refl 1)))
      htarget
  simp only [hgoes, Bool.false_eq_true, if_false] at hrest
  exact ⟨ended, hended.inStep, hrest⟩

end Ordered

end Epochs

/-! ## When no update can part -/

section Updates

variable {K : Type} [Field K] [LinearOrder K]

theorem drifting_driftSetting [ToString K] {exp : K → K} (hexp : exp 0 = 1)
    (haccepted : schedule.config.postInit = .ok ())
    (hmode : schedule.config.klEarlyStopMode ≠ .preOptimizer)
    (hpolicy : schedule.valueOnly ≠ true)
    (hnonneg : 0 ≤ schedule.config.policy.variant.klOf exp drift) :
    (driftSetting exp schedule drift).Drifting drift
      (schedule.config.policy.variant.klOf exp drift) := by
  obtain ⟨hmicro, _, hnormalize, _⟩ := FpoActorConfig.accepted haccepted
  constructor
  · exact fun _ _ _ => rfl
  · exact fun _ _ _ => rfl
  · exact fun _ _ => rfl
  · rfl
  · exact hexp
  · rfl
  · exact hnonneg
  · cases hvalue : schedule.config.klEarlyStopMode with
    | postEpoch => exact hvalue
    | preOptimizer => exact absurd hvalue hmode
  · exact Bool.not_eq_true _ ▸ hpolicy
  · exact hnormalize
  · exact hmicro

theorem consistent_driftSetting {exp : K → K} (hexp : exp 0 = 1)
    (schedule : FpoSchedule K) (drift : K) :
    (driftSetting exp schedule drift).Consistent := by
  constructor
  · exact hexp
  · intro parameters contents
    simp [driftSetting, driftEngine]

theorem epochs_of_updatesTogether
    {setting : FpoSetting K ℕ Unit Unit Unit Unit Bool}
    (hworld : 0 < setting.worldSize) (hstarts : setting.Starts size)
    (htogether : setting.UpdatesTogether driftStart
      (driftShards setting.worldSize size)) :
    Together setting.reduce (fun _ => True) Agreed fun rank =>
      setting.epochsThenMetrics size (setting.localMiniBatchSize size)
        setting.config.updateEpochs 0 rank
        { driftStart with epochKls := [] } := by
  obtain ⟨hdivides, hfits, hpositive⟩ := hstarts
  have : Nonempty (Fin setting.worldSize) := ⟨⟨0, hworld⟩⟩
  have hlength : ∀ rank : Fin setting.worldSize,
      (driftShards (K := K) setting.worldSize size rank).rows.length = size :=
    fun rank => (driftShards setting.worldSize size rank).length_rows
  unfold UpdatesTogether updateFpoPolicy at htogether
  simp only [hlength, RankProgram.check, if_pos hdivides, if_pos hfits,
    if_pos hpositive] at htogether
  exact Together.of_collect htogether

/-- Every update of the schedule keeps its ranks together, whatever the network
and the batch. -/
def AlwaysTogether (exp : K → K) (schedule : FpoSchedule K) (size : ℕ) :
    Prop :=
  ∀ (Θ Ω S Φ G X : Type) (engine : FpoEngine K
      (schedule.config.policy.variant.LogRatio K
        schedule.config.policy.samples) Θ Ω S Φ G X)
    (start : FpoState Θ Ω S Φ)
    (shards : Fin schedule.worldSize → RankShard K X size),
    Consistent ⟨schedule, exp, engine, start.actor.parameters⟩ →
    UpdatesTogether ⟨schedule, exp, engine, start.actor.parameters⟩ start
      shards

variable [IsStrictOrderedRing K]

theorem exists_drift {exp : K → K} (hexp : ∀ value, 0 < exp value)
    (variant : PolicyVariant) (bound : K) :
    ∃ drift, bound < variant.klOf exp drift := by
  have hfalling : bound < exp (-(bound + 2)) - 1 - -(bound + 2) := by
    have hpositive := hexp (-(bound + 2))
    linarith
  cases variant with
  | vanilla | fpoPlusPlus mode => exact ⟨-(bound + 2), hfalling⟩
  | flowGrpo =>
    refine ⟨2 * (|bound| + 1), ?_⟩
    have hle := le_abs_self bound
    have hnonneg := abs_nonneg bound
    change bound < 1 / 2 * (2 * (|bound| + 1)) ^ 2
    nlinarith

theorem not_updatesTogether_of_drift [ToString K] {exp : K → K}
    (hexp : exp 0 = 1) {schedule : FpoSchedule K}
    (haccepted : schedule.config.postInit = .ok ())
    (hworld : 0 < schedule.worldSize) (hrisky : ¬schedule.SafeUpdate size)
    (hdrift : ∀ target ∈ schedule.config.targetKl,
      Exceeds target (schedule.config.policy.variant.klOf exp drift) size
        (schedule.minibatchCount size)) :
    ¬(driftSetting exp schedule drift).UpdatesTogether driftStart
      (driftShards schedule.worldSize size) := by
  obtain ⟨_, hepochs, _, htarget⟩ := FpoActorConfig.accepted haccepted
  simp only [FpoSchedule.SafeUpdate, not_or, not_not] at hrisky
  obtain ⟨hmany, hstarts, hsome, hmode, hpolicy, hone, htwo⟩ := hrisky
  obtain ⟨target, hvalue⟩ := Option.ne_none_iff_exists'.mp hsome
  have htargetPos : 0 < target := htarget target hvalue
  have hexceeds := hdrift target hvalue
  have hsize : 0 < size := hstarts.2.2.trans_le hstarts.2.1
  have hcount : 0 < schedule.minibatchCount size :=
    length_chunkStarts_pos hstarts.2.2 hsize
  have hbound : 0 ≤
      target * (schedule.minibatchCount size * (size + 1) : ℕ) * size :=
    mul_nonneg (mul_nonneg htargetPos.le (Nat.cast_nonneg _))
      (Nat.cast_nonneg _)
  have hdrifting := drifting_driftSetting hexp haccepted hmode hpolicy
    (hbound.trans hexceeds.le)
  intro htogether
  have hrun := epochs_of_updatesTogether hworld hstarts htogether
  have hbegan : InStep 0 False fun _ : Fin schedule.worldSize =>
      ({ driftStart with epochKls := [] } :
        RankState K ℕ Unit Unit Unit).toFpoState :=
    ⟨driftStart, fun _ => rfl, rfl, rfl, .inr ⟨id, rfl, rfl⟩⟩
  have hmanyRanks : 1 < schedule.worldSize := by omega
  by_cases hsingle : schedule.minibatchCount size = 1
  · -- the drift of the first step shows in the second epoch
    obtain ⟨remaining, hremaining⟩ :
        ∃ remaining, schedule.config.updateEpochs = remaining + 3 := by
      refine ⟨schedule.config.updateEpochs - 3, ?_⟩
      have hnotTwo : schedule.config.updateEpochs ≠ 2 :=
        fun htwoEpochs => htwo ⟨htwoEpochs, hsingle⟩
      omega
    simp only [driftSetting, hremaining] at hrun
    obtain ⟨ended, hended, hrest⟩ := hdrifting.quiet_epoch hworld htarget
      hstarts.2.2 hsingle hbegan hrun
    apply hdrifting.epochs_part hmanyRanks hvalue htargetPos hstarts.2.2
      hsize hexceeds _ hended hrest
    exact Nat.add_le_add_left hcount 1
  · obtain ⟨remaining, hremaining⟩ :
        ∃ remaining, schedule.config.updateEpochs = remaining + 2 :=
      ⟨schedule.config.updateEpochs - 2, by omega⟩
    simp only [driftSetting, hremaining] at hrun
    apply hdrifting.epochs_part hmanyRanks hvalue htargetPos hstarts.2.2
      hsize hexceeds _ hbegan hrun
    rw [Nat.zero_add]
    change 2 ≤ schedule.minibatchCount size
    omega

end Updates

section Instances

/-- The first terms of the exponential series. -/
def quadraticExp (value : ℚ) : ℚ := 1 + value + value ^ 2 / 2

theorem quadraticExp_pos (value : ℚ) : 0 < quadraticExp value := by
  have hsquare := sq_nonneg (value + 1)
  unfold quadraticExp
  linarith

def twoRanks (updateEpochs : ℕ) : FpoSchedule ℚ where
  config := {
    policy := vanillaConfig
    criticEnabled := true
    miniBatchSize := 4
    microBatchSize := 2
    updateEpochs := updateEpochs
    vfCoef := 1
    normalizeAdvantages := true
    valueOnlyUpdates := 0
    targetKl := some (1 / 50)
    klEarlyStopMode := .postEpoch
    fullLogicalBatchGradientAccumulation := false }
  worldSize := 2
  globalSteps := 1

theorem quadraticExp_zero : quadraticExp 0 = 1 := by
  decide +kernel

end Instances

end FpoSetting

end VerlVla
