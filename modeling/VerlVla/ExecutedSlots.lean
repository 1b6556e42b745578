import VerlVla.ExecutedTicks
import VerlVla.PreparedTransitions

/-!
# Slots that are executed

The environment keeps an ended episode at rest when it does not reset by
itself, and reports zeros.  The trainer without groups takes every slot for a
transition, so its masks are those of the executed actions as long as no slot
begins after the end of an episode and no operator leaves an environment alone.
-/

namespace VerlVla

open BaseEnv

variable {n : ℕ} {A O ω : Type}

namespace BaseEnv

/-! ## A rollout of chunks -/

structure SlotInput (n : ℕ) (A O : Type) where
  inputs : List (TickInput n A O)
  fresh : Option (Fin n → EnvObs O)
  resetObs : Fin n → EnvObs O

def rolloutSlots (config : EnvConfig) (env : EnvState n A O) :
    List (SlotInput n A O) →
    Except (Raised n A O) (EnvState n A O × List (List (StepFeedback n)))
  | [] => .ok (env, [])
  | chunk :: chunks => do
    let slot ← serialStep config env chunk.inputs chunk.fresh chunk.resetObs
    let rest ← rolloutSlots config slot.1 chunks
    pure (rest.1, slot.2 :: rest.2)

def slotRecords (config : EnvConfig) (env : EnvState n A O) :
    List (SlotInput n A O) → List (List (TickRecord n A O))
  | [] => []
  | chunk :: chunks =>
    tickRecords env true chunk.inputs ::
      match serialStep config env chunk.inputs chunk.fresh chunk.resetObs with
      | .ok slot => slotRecords config slot.1 chunks
      | .error _ => []

/-- No slot begins after the end of the episode, and no operator leaves the
environment alone. -/
def NeverIdle (records : List (List (TickRecord n A O))) (e : Fin n) : Prop :=
  ∀ slot ∈ records, (∀ tick ∈ slot.head?, tick.before.done e = false) ∧
      ∀ tick ∈ slot, tick.leftAlone e = false

/-- When the slots of a rollout begin after the end of an episode. -/
structure SlotStarts (config : EnvConfig) (env : EnvState n A O)
    (records : List (List (TickRecord n A O)))
    (slots : List (List (StepFeedback n))) (e : Fin n) : Prop where
  autoReset : config.autoReset = true → env.done e = false →
    ∀ slot ∈ records, ∀ tick ∈ slot.head?, tick.before.done e = false
  fixed : config.autoReset = false →
    ∀ t slot, records[t]? = some slot → ∀ tick ∈ slot.head?,
      tick.before.done e = (env.done e ||
        (slots.take t).any fun steps => steps.any (·.flagged e))

section Rollout

variable {e : Fin n}

theorem serialStep_ticks {chunk : SlotInput n A O}
    (hstep : serialStep config env chunk.inputs chunk.fresh chunk.resetObs =
      .ok next) :
    ∃ final, ChunkTicks e env (tickRecords env true chunk.inputs) next.2
        final ∧
      next.1.done e = (!config.autoReset && final.done e) := by
  obtain ⟨executed, hexecuted, hrest⟩ := bind_eq_ok.mp hstep
  obtain ⟨finished, hfinish, hpure⟩ := bind_eq_ok.mp hrest
  cases hpure
  refine ⟨executed.1, executeSteps_ticks hexecuted, ?_⟩
  unfold finishExecutionSlice at hfinish
  cases hrows : executed.1.mergedStepResult with
  | none =>
    simp [hrows] at hfinish
  | some rows =>
    rw [hrows] at hfinish
    dsimp only at hfinish
    cases hfinish
    unfold clearFlags
    cases hreset : config.autoReset with
    | true => simp [noEnvs]
    | false => simp [resetDoneEnvs, hreset]

theorem slotStarts_of_run {chunks : List (SlotInput n A O)}
    {final : EnvState n A O} {slots : List (List (StepFeedback n))}
    (hrun : rolloutSlots config env chunks = .ok (final, slots)) :
    SlotStarts config env (slotRecords config env chunks) slots e := by
  induction chunks generalizing env final slots with
  | nil =>
    constructor
    · exact nofun
    · intro _ t slot hslot
      simp [slotRecords] at hslot
  | cons chunk chunks ih =>
    obtain ⟨next, hstep, hrest⟩ := bind_eq_ok.mp hrun
    obtain ⟨rest, hrestRun, hpure⟩ := bind_eq_ok.mp hrest
    cases hpure
    obtain ⟨ended, hticks, hdone⟩ := serialStep_ticks (e := e) hstep
    have htail := ih hrestRun
    have hrecords : slotRecords config env (chunk :: chunks) =
        tickRecords env true chunk.inputs ::
          slotRecords config next.1 chunks := by
      rw [slotRecords, hstep]
    have hhead : ∀ tick ∈ (tickRecords env true chunk.inputs).head?,
        tick.before.done e = env.done e := by
      intro tick htick
      rw [List.head?_eq_getElem?] at htick
      rw [hticks.before 0 tick htick]
      simp
    rw [hrecords]
    constructor
    · intro hauto hlive slot hslot tick htick
      cases List.mem_cons.mp hslot with
      | inl hsame =>
        rw [hsame] at htick
        rw [hhead tick htick, hlive]
      | inr hlater =>
        apply htail.autoReset hauto _ slot hlater tick htick
        rw [hdone, hauto]
        rfl
    · intro hfixed t slot hslot tick htick
      cases t with
      | zero =>
        cases hslot
        rw [hhead tick htick]
        simp
      | succ t =>
        rw [htail.fixed hfixed t slot hslot tick htick, hdone, hfixed,
          hticks.done, List.take_succ_cons, List.any_cons]
        simp [Bool.or_assoc]

theorem slot_ticks {chunks : List (SlotInput n A O)}
    {final : EnvState n A O} {slots : List (List (StepFeedback n))}
    (hrun : rolloutSlots config env chunks = .ok (final, slots))
    {t : ℕ} {slot : List (TickRecord n A O)}
    (hslot : (slotRecords config env chunks)[t]? = some slot) :
    ∃ start steps ended, slots[t]? = some steps ∧
      ChunkTicks e start slot steps ended := by
  induction chunks generalizing env final slots t with
  | nil => simp [slotRecords] at hslot
  | cons chunk chunks ih =>
    obtain ⟨next, hstep, hrest⟩ := bind_eq_ok.mp hrun
    obtain ⟨rest, hrestRun, hpure⟩ := bind_eq_ok.mp hrest
    cases hpure
    obtain ⟨ended, hticks, -⟩ := serialStep_ticks (e := e) hstep
    have hrecords : slotRecords config env (chunk :: chunks) =
        tickRecords env true chunk.inputs ::
          slotRecords config next.1 chunks := by
      rw [slotRecords, hstep]
    rw [hrecords] at hslot
    cases t with
    | zero =>
      cases hslot
      exact ⟨env, next.2, ended, rfl, hticks⟩
    | succ t =>
      obtain ⟨start, steps, laterEnded, hsteps, hlater⟩ := ih hrestRun hslot
      exact ⟨start, steps, laterEnded, hsteps, hlater⟩

end Rollout

end BaseEnv

/-! ## Masks of the trainer -/

namespace FpoTrainer

structure Produced (rollout : DataProto ω)
    (slots : List (List (StepFeedback n))) (substeps : ℕ) : Prop where
  sizes : ∀ steps ∈ slots, steps.length = substeps
  terminated : ∀ (e : Fin n) t k steps feedback, slots[t]? = some steps →
    steps[k]? = some feedback →
      (feedbackOf rollout).terminated.entry [e, t, k] =
        float (feedback.terminated e)
  truncated : ∀ (e : Fin n) t k steps feedback, slots[t]? = some steps →
    steps[k]? = some feedback →
      (feedbackOf rollout).truncated.entry [e, t, k] =
        float (feedback.truncated e)
  reward : ∀ (e : Fin n) t k steps feedback, slots[t]? = some steps →
    steps[k]? = some feedback →
      (feedbackOf rollout).reward.entry [e, t, k] = feedback.reward e

structure SlotAgrees (valids actionValids rewards : Tensor ℚ) (horizon : ℕ)
    (e : Fin n) (t : ℕ) (slot : List (TickRecord n A O)) : Prop where
  valid : valids.entry [e, t] = 1 ↔ ∃ tick ∈ slot, tick.executed e = true
  actions : ∀ position < horizon, actionValids.entry [e, t, position] =
    float ((slot[position]?.map fun tick => tick.executed e).getD false)
  idle : (∀ tick ∈ slot, tick.executed e = false) → rewards.entry [e, t] = 0

section Slots

variable {rollout endObs : DataProto ω} {e : Fin n}
  {slots : List (List (StepFeedback n))} {substeps horizon : ℕ}

theorem Produced.done (hproduced : Produced rollout slots substeps)
    (hsteps : slots[t]? = some steps) (hfeedback : steps[k]? = some feedback) :
    ((feedbackOf rollout).lane e).done t k = feedback.flagged e := by
  unfold Feedback.lane StepFeedback.flagged
  dsimp only
  rw [hproduced.terminated e t k steps feedback hsteps hfeedback,
    hproduced.truncated e t k steps feedback hsteps hfeedback]
  cases feedback.terminated e with
  | true => simp [float]
  | false =>
    cases feedback.truncated e with
    | true | false => simp [float]

theorem Produced.validSubstep (hproduced : Produced rollout slots substeps)
    (hsteps : slots[t]? = some steps) (hk : k < substeps) :
    validSubstep ((feedbackOf rollout).lane e) t k =
      !(steps.take k).any (·.flagged e) := by
  have hlength := hproduced.sizes steps (List.mem_of_getElem? hsteps)
  apply Bool.eq_iff_iff.mpr
  unfold FpoTrainer.validSubstep
  rw [unraisedBefore_iff, Bool.not_eq_true', List.any_eq_false]
  constructor
  · intro hnone feedback hfeedback
    obtain ⟨i, hi, hget⟩ := List.mem_take_iff_getElem.mp hfeedback
    have hlive := hnone i (by omega)
    rw [hproduced.done hsteps
      (List.getElem?_eq_some_iff.mpr ⟨by omega, hget⟩)] at hlive
    simp [hlive]
  · intro hnone i hi
    have hbound : i < steps.length := by omega
    rw [hproduced.done hsteps (List.getElem?_eq_getElem hbound)]
    have hfeedback : steps[i] ∈ steps.take k :=
      List.mem_take_iff_getElem.mpr ⟨i, by omega, rfl⟩
    simpa using hnone _ hfeedback

theorem slotAgrees_iff (hproduced : Produced rollout slots substeps)
    (hpositive : 0 < substeps) (hhorizon : substeps ≤ horizon)
    {valids actionValids rewards : Tensor ℚ} {t : ℕ}
    (hvalids : valids.entry [e, t] = 1)
    (hactions : ∀ position, actionValids.entry [e, t, position] =
      FpoTrainer.actionValids ((feedbackOf rollout).lane e) substeps t
        position)
    {start ended : EnvState n A O} {slot : List (TickRecord n A O)}
    {steps : List (StepFeedback n)} (hsteps : slots[t]? = some steps)
    (hticks : ChunkTicks e start slot steps ended) :
    SlotAgrees valids actionValids rewards horizon e t slot ↔
      (∀ tick ∈ slot.head?, tick.before.done e = false) ∧
        ∀ tick ∈ slot, tick.leftAlone e = false := by
  have hlength : slot.length = substeps := by
    rw [← hproduced.sizes steps (List.mem_of_getElem? hsteps),
      ← hticks.reports, List.length_map]
  have hfirst : slot[0]? = some slot[0] := List.getElem?_eq_getElem (by omega)
  have hhead : slot.head? = some slot[0] := by
    rw [List.head?_eq_getElem?, hfirst]
  have hstart : slot[0].before.done e = start.done e := by
    rw [hticks.before 0 _ hfirst]
    simp
  have hmask : ∀ k tick, slot[k]? = some tick → actionValids.entry [e, t, k] =
        float (!(steps.take k).any (·.flagged e)) := by
    intro k tick htick
    have hk : k < substeps := by
      rw [← hlength]
      exact (List.getElem?_eq_some_iff.mp htick).1
    rw [hactions]
    unfold FpoTrainer.actionValids
    rw [if_pos hk, hproduced.validSubstep hsteps hk]
  rw [hhead]
  constructor
  · intro hagrees
    obtain ⟨tick, htick, hexecuted⟩ := hagrees.valid.mp hvalids
    have hlive : start.done e = false := by
      rw [hticks.executed tick htick] at hexecuted
      obtain ⟨k, hk⟩ := List.mem_iff_getElem?.mp htick
      rw [hticks.before k tick hk] at hexecuted
      cases hdone : start.done e with
      | false => rfl
      | true =>
        simp [hdone] at hexecuted
    constructor
    · intro first hsame
      cases hsame
      rw [hstart, hlive]
    · intro tick htick
      obtain ⟨k, hk⟩ := List.mem_iff_getElem?.mp htick
      have hk' : k < horizon := by
        have hbound := (List.getElem?_eq_some_iff.mp hk).1
        omega
      have hentry := hagrees.actions k hk'
      rw [hmask k tick hk, hk, Option.map_some, Option.getD_some,
        hticks.executed tick htick, hticks.before k tick hk, hlive,
        Bool.false_or] at hentry
      by_contra halone
      rw [Bool.not_eq_false] at halone
      have hbefore : tick.before.done e = false := by
        unfold TickRecord.leftAlone at halone
        simp only [Bool.and_eq_true, Bool.not_eq_true'] at halone
        exact halone.1.1
      rw [hticks.before k tick hk, hlive, Bool.false_or] at hbefore
      rw [halone, hbefore] at hentry
      exact absurd hentry (by decide)
  · intro hnever
    have hlive : start.done e = false := by
      rw [← hstart]
      exact hnever.1 _ rfl
    have hexecuted : ∀ k tick, slot[k]? = some tick →
        tick.executed e = !(steps.take k).any (·.flagged e) := by
      intro k tick htick
      have hmem := List.mem_of_getElem? htick
      rw [hticks.executed tick hmem, hnever.2 tick hmem,
        hticks.before k tick htick, hlive]
      simp
    have hran : slot[0].executed e = true := by
      rw [hexecuted 0 _ hfirst]
      simp
    constructor
    · constructor
      · intro _
        exact ⟨slot[0], List.mem_of_getElem? hfirst, hran⟩
      · intro _
        exact hvalids
    · intro position hposition
      cases htick : slot[position]? with
      | some tick =>
        rw [hmask position tick htick, ← hexecuted position tick htick]
        rfl
      | none =>
        have hbeyond : ¬ position < substeps := by
          rw [← hlength]
          exact Nat.not_lt.mpr (List.getElem?_eq_none_iff.mp htick)
        rw [hactions]
        unfold FpoTrainer.actionValids
        rw [if_neg hbeyond]
        rfl
    · intro hnone
      rw [hnone _ (List.mem_of_getElem? hfirst)] at hran
      cases hran

end Slots

/-! ## An episode that ends in the first slot -/

def endedRow (ended : Bool) : StepRow Unit where
  obs := ⟨(), ∅⟩
  reward := if ended then 1 else 0
  terminated := ended
  truncated := false
  success := ended
  score := none

def endedChunk (ended : Bool) : SlotInput 1 Unit Unit where
  inputs :=
    [{ action := fun _ => ()
       polls := []
       reply := fun _ => endedRow ended }]
  fresh := none
  resetObs := fun _ => ⟨(), ∅⟩

def endedStart (config : EnvConfig) : EnvState 1 Unit Unit :=
  BaseEnv.reset config .initial ⟨none, false⟩ fun _ => ⟨(), ∅⟩

def endedFeedback (ended : Bool) : StepFeedback 1 where
  reward := fun _ => if ended then 1 else 0
  terminated := fun _ => ended
  truncated := fun _ => false
  success := fun _ => ended
  score := fun _ => none

theorem endedRun (autoReset : Bool) :
    ∃ final, rolloutSlots ⟨autoReset⟩ (endedStart ⟨autoReset⟩)
        [endedChunk true, endedChunk false] =
      .ok (final, [[endedFeedback true], [endedFeedback false]]) := by
  cases autoReset with
  | true | false => exact ⟨_, rfl⟩

/-- A reward and a termination in the first slot, and nothing in the second. -/
def firstSlot (index : List ℕ) : ℚ := if index.getD 1 0 = 0 then 1 else 0

def endedRollout : DataProto Unit where
  batch :=
    { entries :=
        [⟨"action.action", ⟨[1, 2, 1, 1], fun _ => 0⟩⟩,
          ⟨"action.full_action", ⟨[1, 2, 1, 1], fun _ => 0⟩⟩,
          ⟨"next.terminated", ⟨[1, 2, 1], firstSlot⟩⟩,
          ⟨"next.truncated", ⟨[1, 2, 1], fun _ => 0⟩⟩,
          ⟨"next.reward", ⟨[1, 2, 1], firstSlot⟩⟩,
          ⟨"next.success", ⟨[1, 2, 1], firstSlot⟩⟩]
      nodupKeys := by
        unfold List.NodupKeys List.keys
        decide }
  nonTensorBatch := ∅
  metaInfo := ∅

def noFields : DataProto Unit where
  batch := ∅
  nonTensorBatch := ∅
  metaInfo := ∅

theorem endedWindow : WindowShape endedRollout noFields 1 2 1 1 := by
  have hmem : ∀ {key : String}, (endedRollout.batch.lookup key).isSome →
      key ∈ endedRollout.batch.keys := by
    intro key hsome
    exact AList.mem_keys.mp (AList.lookup_isSome.mp hsome)
  constructor
  · decide
  · refine ⟨Dict.forall_lookup (by decide), ?_⟩
    intro _ _ hlookup
    cases hlookup
  · exact ⟨_, rfl, rfl⟩
  · exact ⟨_, rfl, rfl⟩
  · decide
  · intro key hkey
    simp only [feedbackKeys, List.mem_cons, List.not_mem_nil, or_false] at hkey
    rcases hkey with rfl | rfl | rfl | rfl
    · exact ⟨_, rfl, rfl⟩
    · exact ⟨_, rfl, rfl⟩
    · exact ⟨_, rfl, rfl⟩
    · exact ⟨_, rfl, rfl⟩
  · intro key hobs hsome
    have hnone : ∀ key ∈ endedRollout.batch.keys, isObs key = false := by
      decide
    rw [hnone key (hmem hsome)] at hobs
    cases hobs
  · intro _ _ hsome
    cases hsome
  · intro field
    have hplain : ∀ key ∈ endedRollout.batch.keys,
        isNextObs key = false := by decide
    apply Option.not_isSome_iff_eq_none.mp
    intro hsome
    have hnext := hplain _ (hmem hsome)
    rw [isNextObs_nextObsKey] at hnext
    cases hnext
  · intro field
    rfl

theorem endedProduced :
    Produced endedRollout [[endedFeedback true], [endedFeedback false]] 1 := by
  have hcases : ∀ (P : ℕ → ℕ → StepFeedback 1 → Prop),
      P 0 0 (endedFeedback true) → P 1 0 (endedFeedback false) →
      ∀ t k steps feedback,
        [[endedFeedback true], [endedFeedback false]][t]? = some steps →
          steps[k]? = some feedback → P t k feedback := by
    intro P hfirst hsecond t k steps feedback hsteps hfeedback
    match t, k with
    | 0, 0 =>
      cases hsteps
      cases hfeedback
      exact hfirst
    | 1, 0 =>
      cases hsteps
      cases hfeedback
      exact hsecond
    | 0, k + 1 =>
      cases hsteps
      cases hfeedback
    | 1, k + 1 =>
      cases hsteps
      cases hfeedback
    | t + 2, _ => cases hsteps
  constructor
  · decide
  · intro e
    apply hcases fun t k feedback =>
      (feedbackOf endedRollout).terminated.entry [e, t, k] =
        float (feedback.terminated e)
    · rfl
    · rfl
  · intro e
    apply hcases fun t k feedback =>
      (feedbackOf endedRollout).truncated.entry [e, t, k] =
        float (feedback.truncated e)
    · rfl
    · rfl
  · intro e
    apply hcases fun t k feedback =>
      (feedbackOf endedRollout).reward.entry [e, t, k] = feedback.reward e
    · rfl
    · rfl

end FpoTrainer
end VerlVla
