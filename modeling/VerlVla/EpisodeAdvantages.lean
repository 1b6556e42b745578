import VerlVla.PreparedTransitions

/-!
# Advantages stay inside their episode

The advantage of a slot is the weighted sum of the one-step errors of the slots
of its episode.  Other episodes of the lane and invalid rows do not enter it.
-/

namespace VerlVla
namespace FpoTrainer

open Finset

variable {ω : Type}

/-! ## Episodes -/

def episodeSlots (lane : Lane) (substeps steps step : ℕ) : Finset ℕ :=
  (Ico step steps).filter fun j =>
    ∀ i ∈ Ico step j, lane.chunkDone substeps i = false

section Episode

variable (forwardValue : DataProto.Row ω → ℚ) (config : Config)
  (rollout endObs : DataProto ω) (substeps steps lane : ℕ)

/-- The one-step error of a slot; a terminal chunk bootstraps nothing. -/
def chunkError (step : ℕ) : ℚ :=
  rewards config ((feedbackOf rollout).lane lane) substeps step +
      (if ((feedbackOf rollout).lane lane).chunkDone substeps step then 0
      else config.gamma ^
          executedSteps ((feedbackOf rollout).lane lane) substeps step *
        forwardValue (successor rollout endObs steps lane step)) -
    forwardValue (slotRow obsKey rollout lane step)

def episodeAdvantage (step : ℕ) : ℚ :=
  ∑ j ∈ episodeSlots ((feedbackOf rollout).lane lane) substeps steps step,
    (∏ i ∈ Ico step j, (config.gamma * config.gaeLambda) ^
      executedSteps ((feedbackOf rollout).lane lane) substeps i) *
      chunkError forwardValue config rollout endObs substeps steps lane j

end Episode

/-- Two windows agree on the episode of a slot, as far as it lies in the
window. -/
structure SameEpisode (substeps steps : ℕ)
    (rollout endObs other otherEnd : DataProto ω) (lane step : ℕ) : Prop where
  done : ∀ j ∈ episodeSlots ((feedbackOf rollout).lane lane) substeps steps
    step, ∀ substep < substeps, ((feedbackOf other).lane lane).done j substep =
        ((feedbackOf rollout).lane lane).done j substep
  reward : ∀ j ∈ episodeSlots ((feedbackOf rollout).lane lane) substeps steps
    step, ∀ substep < substeps,
      validSubstep ((feedbackOf rollout).lane lane) j substep = true →
        ((feedbackOf other).lane lane).reward j substep =
          ((feedbackOf rollout).lane lane).reward j substep
  obs : ∀ j ∈ episodeSlots ((feedbackOf rollout).lane lane) substeps steps
    step, slotRow obsKey other lane j = slotRow obsKey rollout lane j
  final : (∀ j ∈ Ico step steps,
      ((feedbackOf rollout).lane lane).chunkDone substeps j = false) →
    endRow other otherEnd lane = endRow rollout endObs lane

/-! ## Folded feedback -/

section Lanes

variable {config : Config} {lane other : Lane} {substeps steps step j : ℕ}

section

variable
  (hdone : ∀ substep < substeps, other.done j substep = lane.done j substep)

include hdone

theorem chunkDone_same :
    other.chunkDone substeps j = lane.chunkDone substeps j := by
  unfold Lane.chunkDone
  apply Bool.eq_iff_iff.mpr
  rw [List.any_eq_true, List.any_eq_true]
  constructor
  · intro hany
    obtain ⟨substep, hsubstep, hflag⟩ := hany
    rw [hdone substep (List.mem_range.mp hsubstep)] at hflag
    exact ⟨substep, hsubstep, hflag⟩
  · intro hany
    obtain ⟨substep, hsubstep, hflag⟩ := hany
    rw [← hdone substep (List.mem_range.mp hsubstep)] at hflag
    exact ⟨substep, hsubstep, hflag⟩

theorem validSubstep_same (hsubstep : substep < substeps) :
    validSubstep other j substep = validSubstep lane j substep := by
  apply unraisedBefore_congr
  intro i hi
  exact hdone i (lt_of_le_of_lt hi hsubstep)

theorem executedSteps_same :
    executedSteps other substeps j = executedSteps lane substeps j := by
  apply sum_congr rfl
  intro substep hsubstep
  rw [validSubstep_same hdone (mem_range.mp hsubstep)]

theorem rewards_same
    (hreward : ∀ substep < substeps, validSubstep lane j substep = true →
      other.reward j substep = lane.reward j substep) :
    rewards config other substeps j = rewards config lane substeps j := by
  unfold rewards
  congr 1
  apply sum_congr rfl
  intro substep hsubstep
  have hless := mem_range.mp hsubstep
  rw [validSubstep_same hdone hless]
  cases hvalid : validSubstep lane j substep with
  | false => simp [float]
  | true => rw [hreward substep hless hvalid]

end

theorem mem_episodeSlots : j ∈ episodeSlots lane substeps steps step ↔
    (step ≤ j ∧ j < steps) ∧
      ∀ i ∈ Ico step j, lane.chunkDone substeps i = false := by
  rw [episodeSlots, mem_filter, mem_Ico]

theorem episodeSlots_earlier (hj : j ∈ episodeSlots lane substeps steps step)
    (hi : i ∈ Ico step j) :
    i ∈ episodeSlots lane substeps steps step := by
  obtain ⟨hbounds, hlive⟩ := mem_episodeSlots.mp hj
  have hinside := mem_Ico.mp hi
  apply mem_episodeSlots.mpr
  constructor
  · omega
  · intro earlier hearlier
    apply hlive
    have hless := mem_Ico.mp hearlier
    exact mem_Ico.mpr (by omega)

theorem episodeSlots_same (hdone : ∀ j ∈ episodeSlots lane substeps steps step,
      other.chunkDone substeps j = lane.chunkDone substeps j) :
    episodeSlots other substeps steps step =
      episodeSlots lane substeps steps step := by
  ext j
  constructor
  · intro hj
    obtain ⟨hbounds, hlive⟩ := mem_episodeSlots.mp hj
    apply mem_episodeSlots.mpr
    refine ⟨hbounds, ?_⟩
    intro i
    induction i using Nat.strong_induction_on with
    | h i ih =>
      intro hi
      have hinside := mem_Ico.mp hi
      have hslot : i ∈ episodeSlots lane substeps steps step := by
        apply mem_episodeSlots.mpr
        constructor
        · omega
        · intro earlier hearlier
          have hless := mem_Ico.mp hearlier
          exact ih earlier hless.2 (mem_Ico.mpr (by omega))
      rw [← hdone i hslot]
      exact hlive i hi
  · intro hj
    obtain ⟨hbounds, hlive⟩ := mem_episodeSlots.mp hj
    apply mem_episodeSlots.mpr
    refine ⟨hbounds, ?_⟩
    intro i hi
    rw [hdone i (episodeSlots_earlier hj hi)]
    exact hlive i hi

end Lanes

/-! ## One episode -/

section Local

variable {forwardValue : DataProto.Row ω → ℚ} {config : Config}
  {rollout endObs other otherEnd : DataProto ω}
  {substeps steps lane step : ℕ}

section

variable
  (hsame : SameEpisode substeps steps rollout endObs other otherEnd lane step)

include hsame

theorem SameEpisode.slots :
    episodeSlots ((feedbackOf other).lane lane) substeps steps step =
      episodeSlots ((feedbackOf rollout).lane lane) substeps steps step := by
  apply episodeSlots_same
  intro j hj
  exact chunkDone_same (hsame.done j hj)

section

variable
  (hj : j ∈ episodeSlots ((feedbackOf rollout).lane lane) substeps steps step)

include hj

theorem SameEpisode.successor
    (hlive : ((feedbackOf rollout).lane lane).chunkDone substeps j = false) :
    successor other otherEnd steps lane j =
      successor rollout endObs steps lane j := by
  obtain ⟨hbounds, hbefore⟩ := mem_episodeSlots.mp hj
  have hupto : ∀ i ∈ Ico step (j + 1),
      ((feedbackOf rollout).lane lane).chunkDone substeps i = false := by
    intro i hi
    have hinside := mem_Ico.mp hi
    by_cases hlast : i = j
    · rw [hlast]
      exact hlive
    · exact hbefore i (mem_Ico.mpr (by omega))
  unfold FpoTrainer.successor
  by_cases hnext : j + 1 < steps
  · rw [if_pos hnext, if_pos hnext]
    apply hsame.obs
    exact mem_episodeSlots.mpr ⟨by omega, hupto⟩
  · rw [if_neg hnext, if_neg hnext]
    apply hsame.final
    have hend : j + 1 = steps := by omega
    rw [← hend]
    exact hupto

theorem SameEpisode.chunkError :
    chunkError forwardValue config other otherEnd substeps steps lane j =
      chunkError forwardValue config rollout endObs substeps steps lane
        j := by
  have hdone := hsame.done j hj
  unfold FpoTrainer.chunkError
  rw [rewards_same hdone (hsame.reward j hj), chunkDone_same hdone,
    executedSteps_same hdone, hsame.obs j hj]
  cases hflag : ((feedbackOf rollout).lane lane).chunkDone substeps j with
  | true => rfl
  | false => rw [hsame.successor hj hflag]

end

theorem SameEpisode.episodeAdvantage :
    episodeAdvantage forwardValue config other otherEnd substeps steps lane
        step =
      episodeAdvantage forwardValue config rollout endObs substeps steps
        lane step := by
  unfold FpoTrainer.episodeAdvantage
  rw [hsame.slots]
  apply sum_congr rfl
  intro j hj
  rw [hsame.chunkError hj]
  congr 1
  apply prod_congr rfl
  intro i hi
  rw [executedSteps_same (hsame.done i (episodeSlots_earlier hj hi))]

end

end Local

/-! ## The advantages of a batch -/

section Batch

variable {forwardValue : DataProto.Row ω → ℚ} {microBatchSize : ℕ}

theorem forwardOldValues_entry (hmicro : 0 < microBatchSize)
    {rowOf : ℕ → ℕ → DataProto.Row ω} {batchSize steps lane step : ℕ}
    (hlane : lane < batchSize) (hstep : step < steps) :
    (forwardOldValues forwardValue microBatchSize rowOf batchSize
      steps).entry [lane, step] = forwardValue (rowOf lane step) := by
  have hslot : lane * steps + step < batchSize * steps := by
    calc lane * steps + step < lane * steps + steps := by omega
      _ = (lane + 1) * steps := (Nat.succ_mul lane steps).symm
      _ ≤ batchSize * steps := Nat.mul_le_mul_right steps hlane
  obtain ⟨hdiv, hmod⟩ := Tensor.add_mul_div_mod hstep lane
  unfold forwardOldValues
  simp only [Tensor.matrix, List.getD_cons_zero, List.getD_cons_succ]
  rw [List.flatMap_def, ← List.map_flatten, flatten_splitRows hmicro, List.map_map,
    List.getD_eq_getElem _ _ (by simpa using hslot), List.getElem_map,
    List.getElem_range, Function.comp_apply, hdiv, hmod]

theorem laneAdvantage_eq {config : Config} {rollout endObs : DataProto ω}
    {substeps lane : ℕ}
    {rewards values nextValues discounts gaeDiscounts valids : Tensor ℚ}
    (hrewards : ∀ step, rewards.entry [lane, step] = FpoTrainer.rewards
      config ((feedbackOf rollout).lane lane) substeps step)
    (hdiscounts : ∀ step, discounts.entry [lane, step] =
      FpoTrainer.discounts ((feedbackOf rollout).lane lane) substeps
        config.gamma step)
    (hgae : ∀ step, gaeDiscounts.entry [lane, step] =
      FpoTrainer.discounts ((feedbackOf rollout).lane lane) substeps
        (config.gamma * config.gaeLambda) step)
    (hvalids : ∀ step, valids.entry [lane, step] = 1)
    (hvalues : ∀ step < values.steps, values.entry [lane, step] =
      forwardValue (slotRow obsKey rollout lane step))
    (hnextValues : ∀ step < values.steps, nextValues.entry [lane, step] =
      forwardValue (successor rollout endObs values.steps lane step))
    (step : ℕ) :
    laneAdvantage rewards values nextValues discounts gaeDiscounts valids
        lane step =
      episodeAdvantage forwardValue config rollout endObs substeps
        values.steps lane step := by
  unfold laneAdvantage episodeAdvantage episodeSlots
  rw [sum_filter]
  apply sum_congr rfl
  intro j hj
  have hless := (mem_Ico.mp hj).2
  have hdelta : gaeDelta rewards values nextValues discounts lane j *
      valids.entry [lane, j] =
        chunkError forwardValue config rollout endObs substeps values.steps
          lane j := by
    unfold gaeDelta chunkError
    rw [hvalids, mul_one, hrewards, hdiscounts, hvalues j hless,
      hnextValues j hless]
    unfold FpoTrainer.discounts dones
    cases hflag : ((feedbackOf rollout).lane lane).chunkDone substeps j with
    | true | false => simp [float]
  rw [hdelta]
  by_cases hlive : ∀ i ∈ Ico step j,
      ((feedbackOf rollout).lane lane).chunkDone substeps i = false
  · rw [if_pos hlive]
    congr 1
    apply prod_congr rfl
    intro i hi
    rw [hvalids, mul_one, hgae]
    unfold FpoTrainer.discounts dones
    rw [hlive i hi]
    simp [float]
  · rw [if_neg hlive]
    push Not at hlive
    obtain ⟨i, hi, hflag⟩ := hlive
    have hended : ((feedbackOf rollout).lane lane).chunkDone substeps i =
        true := by simpa using hflag
    have hzero : gaeDiscounts.entry [lane, i] * valids.entry [lane, i] =
        0 := by
      rw [hgae]
      unfold FpoTrainer.discounts dones
      rw [hended]
      simp [float]
    rw [prod_eq_zero hi hzero, zero_mul]

theorem laneAdvantage_of_valid
    {rewards values nextValues other otherNext discounts gaeDiscounts
      valids : Tensor ℚ}
    {lane step : ℕ} (hsteps : other.steps = values.steps)
    (hvalid : ∀ j < values.steps, valids.entry [lane, j] ≠ 0 →
      other.entry [lane, j] = values.entry [lane, j] ∧
        otherNext.entry [lane, j] = nextValues.entry [lane, j]) :
    laneAdvantage rewards other otherNext discounts gaeDiscounts valids lane
        step =
      laneAdvantage rewards values nextValues discounts gaeDiscounts valids
        lane step := by
  unfold laneAdvantage
  rw [hsteps]
  apply sum_congr rfl
  intro j hj
  congr 1
  by_cases hzero : valids.entry [lane, j] = 0
  · rw [hzero, mul_zero, mul_zero]
  · obtain ⟨hvalue, hnext⟩ := hvalid j (mem_Ico.mp hj).2 hzero
    unfold gaeDelta
    rw [hvalue, hnext]

theorem laneAdvantage_eq_zero
    {rewards values nextValues discounts gaeDiscounts valids : Tensor ℚ}
    {lane step : ℕ} (hstep : step < values.steps)
    (hinvalid : valids.entry [lane, step] = 0) :
    laneAdvantage rewards values nextValues discounts gaeDiscounts valids
      lane step = 0 := by
  rw [laneAdvantage_step hstep, hinvalid, mul_zero]

end Batch

/-! ## Advantages of a window -/

section Window

variable (padToDivisor : DataProto ω → ℕ → DataProto ω × ℕ)
  (forwardValue : DataProto.Row ω → ℚ) (microBatchSize : ℕ)
  (config : Config) (globalSteps : ℤ) (worldSize : ℕ)

def windowAdvantages (rollout endObs : DataProto ω) :
    Except (TrainingError ω) (Tensor ℚ × Tensor ℚ) := do
  let data ← prepareActorInput padToDivisor rollout endObs config globalSteps
    worldSize
  prepareAdvantages forwardValue microBatchSize data

structure AdvantagesPerEpisode (batchSize steps substeps horizon : ℕ)
    (rollout endObs : DataProto ω) (advantages returns : Tensor ℚ) :
    Prop where
  ofEpisode : ∀ lane < batchSize, ∀ step < steps,
    advantages.entry [lane, step] = episodeAdvantage forwardValue config
      rollout endObs substeps steps lane step
  returned : ∀ lane < batchSize, ∀ step < steps,
    returns.entry [lane, step] = advantages.entry [lane, step] +
      forwardValue (slotRow obsKey rollout lane step)
  padding : ∀ lane, batchSize ≤ lane → lane < advantages.rows →
    ∀ step < steps, advantages.entry [lane, step] = 0
  otherEpisodes : ∀ (other otherEnd : DataProto ω)
      (otherAdvantages otherReturns : Tensor ℚ),
    WindowShape other otherEnd batchSize steps substeps horizon →
      windowAdvantages padToDivisor forwardValue microBatchSize config
          globalSteps worldSize other otherEnd =
        .ok (otherAdvantages, otherReturns) →
      ∀ lane < batchSize, ∀ step < steps,
        SameEpisode substeps steps rollout endObs other otherEnd lane step →
          otherAdvantages.entry [lane, step] = advantages.entry [lane, step]

variable {batchSize steps substeps horizon : ℕ}

theorem windowAdvantages_ok
    {padToDivisor : DataProto ω → ℕ → DataProto ω × ℕ}
    (hpad : PadsRows padToDivisor) (forwardValue : DataProto.Row ω → ℚ)
    {microBatchSize : ℕ} (hmicro : 0 < microBatchSize) (config : Config)
    (globalSteps : ℤ) {worldSize : ℕ} (hworld : 0 < worldSize)
    {rollout endObs : DataProto ω}
    (hwindow : WindowShape rollout endObs batchSize steps substeps horizon) :
    ∃ advantages returns,
      windowAdvantages padToDivisor forwardValue microBatchSize config
        globalSteps worldSize rollout endObs = .ok (advantages, returns) ∧
      (∀ lane < batchSize, ∀ step < steps, advantages.entry [lane, step] =
        episodeAdvantage forwardValue config rollout endObs substeps steps
          lane step) ∧
      (∀ lane < batchSize, ∀ step < steps, returns.entry [lane, step] =
        advantages.entry [lane, step] +
          forwardValue (slotRow obsKey rollout lane step)) ∧
      ∀ lane, batchSize ≤ lane → lane < advantages.rows →
        ∀ step < steps, advantages.entry [lane, step] = 0 := by
  obtain ⟨data, count, hdata, hpadded⟩ :=
    prepareActorInput_ok config hpad hwindow globalSteps hworld
  obtain ⟨rewards, hrewardsKey, hrewards⟩ := hpadded.rewards
  obtain ⟨discounts, hdiscountsKey, hdiscounts⟩ := hpadded.discounts
  obtain ⟨gaeDiscounts, hgaeKey, hgae⟩ := hpadded.gaeDiscounts
  obtain ⟨valids, hvalidsKey, hrows, hsteps, hones, hzeros⟩ := hpadded.valids
  let values := forwardOldValues forwardValue microBatchSize
    (slotRow obsKey data) valids.rows valids.steps
  let nextValues := forwardOldValues forwardValue microBatchSize
    (slotRow nextObsKey data) valids.rows valids.steps
  have hvalueSteps : values.steps = steps := hsteps
  have hvalue : ∀ lane < batchSize, ∀ step < steps, values.entry [lane, step] =
        forwardValue (slotRow obsKey rollout lane step) := by
    intro lane hlane step hstep
    rw [forwardOldValues_entry hmicro (by omega) (by omega),
      hpadded.obs lane hlane]
  have hnextValue : ∀ lane < batchSize, ∀ step < steps,
      nextValues.entry [lane, step] =
        forwardValue (successor rollout endObs steps lane step) := by
    intro lane hlane step hstep
    rw [forwardOldValues_entry hmicro (by omega) (by omega),
      hpadded.nextObs lane hlane step hstep]
  have hcomputed : windowAdvantages padToDivisor forwardValue microBatchSize
      config globalSteps worldSize rollout endObs =
        .ok (computeGae rewards values nextValues discounts gaeDiscounts
          valids) := by
    apply bind_eq_ok.mpr
    refine ⟨data, hdata, ?_⟩
    simp only [prepareAdvantages, bind_eq_ok, Dict.fetch_eq_ok]
    exact ⟨valids, hvalidsKey, rewards, hrewardsKey, discounts,
      hdiscountsKey, gaeDiscounts, hgaeKey, rfl⟩
  let computed :=
    computeGae rewards values nextValues discounts gaeDiscounts valids
  refine ⟨computed.1, computed.2, hcomputed, ?_, ?_, ?_⟩
  · intro lane hlane step hstep
    have hlaneValue : ∀ step < values.steps, values.entry [lane, step] =
        forwardValue (slotRow obsKey rollout lane step) := by
      intro step hstep
      exact hvalue lane hlane step (by omega)
    have hlaneNext : ∀ step < values.steps, nextValues.entry [lane, step] =
        forwardValue (successor rollout endObs values.steps lane step) := by
      intro step hstep
      rw [hvalueSteps]
      exact hnextValue lane hlane step (by omega)
    have hclosed := laneAdvantage_eq (hrewards lane hlane)
      (hdiscounts lane hlane) (hgae lane hlane) (hones lane hlane) hlaneValue
      hlaneNext step
    rw [hvalueSteps] at hclosed
    rw [← hclosed]
    exact computeGae_entry (by omega)
  · intro lane hlane step hstep
    rw [← hvalue lane hlane step hstep]
    rfl
  · intro lane hafter hbefore step hstep
    have hless : lane < batchSize + count := by
      rw [← hrows]
      exact hbefore
    have hstepValues : step < values.steps := by omega
    exact (computeGae_entry hstepValues).trans
      (laneAdvantage_eq_zero hstepValues (hzeros lane hafter hless step))

def InvalidSlotsUnread : Prop :=
  ∀ rewards values nextValues other otherNext discounts gaeDiscounts
      valids : Tensor ℚ,
    other.steps = values.steps →
    (∀ lane, ∀ step < values.steps, valids.entry [lane, step] ≠ 0 →
      other.entry [lane, step] = values.entry [lane, step] ∧
        otherNext.entry [lane, step] = nextValues.entry [lane, step]) →
    ∀ lane, ∀ step < values.steps,
      (computeGae rewards other otherNext discounts gaeDiscounts
          valids).1.entry [lane, step] =
        (computeGae rewards values nextValues discounts gaeDiscounts
          valids).1.entry [lane, step]

theorem invalidSlotsUnread : InvalidSlotsUnread := by
  intro rewards values nextValues other otherNext discounts gaeDiscounts
    valids hsteps hvalid lane step hstep
  have hother : step < other.steps := by omega
  rw [computeGae_entry hother, computeGae_entry hstep]
  exact laneAdvantage_of_valid hsteps (hvalid lane)

/-- The advantages of a prepared window are those of its episodes, and invalid
slots do not enter them. -/
theorem advantages_per_episode
    (padToDivisor : DataProto ω → ℕ → DataProto ω × ℕ)
    (hpad : PadsRows padToDivisor) (forwardValue : DataProto.Row ω → ℚ)
    {microBatchSize : ℕ} (hmicro : 0 < microBatchSize) (config : Config)
    (globalSteps : ℤ) {worldSize : ℕ} (hworld : 0 < worldSize)
    {rollout endObs : DataProto ω}
    (hwindow : WindowShape rollout endObs batchSize steps substeps
      horizon) :
    (∃ advantages returns,
      windowAdvantages padToDivisor forwardValue microBatchSize config
        globalSteps worldSize rollout endObs = .ok (advantages, returns) ∧
      AdvantagesPerEpisode padToDivisor forwardValue microBatchSize config
        globalSteps worldSize batchSize steps substeps horizon rollout endObs
        advantages returns) ∧
      InvalidSlotsUnread := by
  constructor
  · obtain ⟨advantages, returns, hcomputed, hclosed, hreturned, hpadding⟩ :=
      windowAdvantages_ok hpad forwardValue hmicro config globalSteps hworld
        hwindow
    refine ⟨advantages, returns, hcomputed, hclosed, hreturned, hpadding, ?_⟩
    intro other otherEnd otherAdvantages otherReturns hother hotherComputed
      lane hlane step hstep hsame
    obtain ⟨_, _, hagain, hotherClosed, -, -⟩ :=
      windowAdvantages_ok hpad forwardValue hmicro config globalSteps hworld
        hother
    rw [hotherComputed] at hagain
    cases hagain
    rw [hotherClosed lane hlane step hstep, hclosed lane hlane step hstep]
    exact hsame.episodeAdvantage
  · exact invalidSlotsUnread

end Window

/-! ## A window of one lane -/

/-- Rows are appended by starting over with the first. -/
def padRows (data : DataProto ω) (sizeDivisor : ℕ) : DataProto ω × ℕ :=
  let missing := (sizeDivisor - data.length % sizeDivisor) % sizeDivisor
  let indices := List.range data.length ++
    (List.range missing).map (· % data.length)
  ({ batch := data.batch.map fun _ tensor => tensor.selectRows indices
     nonTensorBatch := data.nonTensorBatch.map fun _ array =>
       array.selectRows indices
     metaInfo := data.metaInfo }, missing)

theorem padsRows_padRows : PadsRows (padRows (ω := ω)) := by
  intro data n sizeDivisor _ hlength hn hdivisor
  let missing := (sizeDivisor - n % sizeDivisor) % sizeDivisor
  refine ⟨(List.range missing).map (· % n), ?_, ?_, ?_, ?_, ?_⟩
  · intro index hindex
    obtain ⟨position, -, rfl⟩ := List.mem_map.mp hindex
    exact Nat.mod_lt _ hn
  · rw [List.length_map, List.length_range]
    unfold padRows
    rw [hlength]
  · rw [List.length_map, List.length_range]
    apply Nat.dvd_of_mod_eq_zero
    have hrest := Nat.mod_lt n hdivisor
    have hsum : (n + missing) % sizeDivisor =
        (n % sizeDivisor + (sizeDivisor - n % sizeDivisor)) %
          sizeDivisor := by
      rw [Nat.add_mod n missing, Nat.mod_mod, ← Nat.add_mod, Nat.mod_add_mod]
    rw [hsum, Nat.add_sub_cancel' (Nat.le_of_lt hrest), Nat.mod_self]
  · intro key
    unfold padRows
    rw [Dict.lookup_map, hlength]
  · intro key
    unfold padRows
    rw [Dict.lookup_map, hlength]

def singleRollout : DataProto Unit where
  batch :=
    { entries :=
        [⟨"action.action", ⟨[1, 2, 2, 1], fun _ => 0⟩⟩,
          ⟨"action.full_action", ⟨[1, 2, 3, 1], fun _ => 0⟩⟩,
          ⟨"obs.state", ⟨[1, 2], fun index => index.sum⟩⟩,
          ⟨"next.terminated", ⟨[1, 2, 2], fun _ => 0⟩⟩,
          ⟨"next.truncated", ⟨[1, 2, 2], fun _ => 0⟩⟩,
          ⟨"next.reward", ⟨[1, 2, 2], fun _ => 1⟩⟩,
          ⟨"next.success", ⟨[1, 2, 2], fun _ => 0⟩⟩]
      nodupKeys := by
        unfold List.NodupKeys List.keys
        decide }
  nonTensorBatch := ∅
  metaInfo := ∅

def singleEndObs : DataProto Unit where
  batch :=
    { entries := [⟨"state", ⟨[1], fun _ => 2⟩⟩]
      nodupKeys := by
        unfold List.NodupKeys List.keys
        decide }
  nonTensorBatch := ∅
  metaInfo := ∅

theorem singleWindow : WindowShape singleRollout singleEndObs 1 2 2 3 := by
  have hmem : ∀ {key : String}, (singleRollout.batch.lookup key).isSome →
      key ∈ singleRollout.batch.keys := by
    intro key hsome
    exact AList.mem_keys.mp (AList.lookup_isSome.mp hsome)
  constructor
  · decide
  · refine ⟨Dict.forall_lookup (by decide), ?_⟩
    intro _ _ hlookup
    cases hlookup
  · exact ⟨_, rfl, rfl⟩
  · exact ⟨_, rfl, rfl⟩
  · decide
  · intro key hkey
    simp only [feedbackKeys, List.mem_cons, List.not_mem_nil, or_false] at hkey
    rcases hkey with rfl | rfl | rfl | rfl
    · exact ⟨_, rfl, rfl⟩
    · exact ⟨_, rfl, rfl⟩
    · exact ⟨_, rfl, rfl⟩
    · exact ⟨_, rfl, rfl⟩
  · intro key hobs hsome
    have hstate : ∀ key ∈ singleRollout.batch.keys, isObs key →
        key = "obs.state" := by decide
    rw [hstate key (hmem hsome) hobs]
    exact ⟨by decide, _, _, rfl, rfl, rfl, rfl⟩
  · intro _ _ hsome
    cases hsome
  · intro field
    have hplain : ∀ key ∈ singleRollout.batch.keys,
        isNextObs key = false := by decide
    apply Option.not_isSome_iff_eq_none.mp
    intro hsome
    have hnext := hplain _ (hmem hsome)
    rw [isNextObs_nextObsKey] at hnext
    cases hnext
  · intro field
    rfl

def stateValue (row : DataProto.Row Unit) : ℚ :=
  ((row.tensors "state").map fun tensor => tensor.entry []).getD 0

theorem advantages_per_episode_of_one_lane : (∃ advantages returns,
      windowAdvantages padRows stateValue 1 ⟨1 / 2, 1 / 2, 0⟩ 0 2
        singleRollout singleEndObs = .ok (advantages, returns) ∧
      AdvantagesPerEpisode padRows stateValue 1 ⟨1 / 2, 1 / 2, 0⟩ 0 2 1 2 2 3
        singleRollout singleEndObs advantages returns) ∧
      InvalidSlotsUnread :=
  advantages_per_episode padRows padsRows_padRows stateValue (by decide)
    ⟨1 / 2, 1 / 2, 0⟩ 0 (by decide) singleWindow

end FpoTrainer
end VerlVla
