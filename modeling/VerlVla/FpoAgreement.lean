import VerlVla.FpoUpdate

/-!
# Ranks that agree on an update

The ranks share the actor, its optimizer and every flag that a branch reads.
Only the divergence at the end of an epoch is their own, and where no rank acts
on it alone they call the same operations to the end of the update.
-/

namespace VerlVla

open RankProgram
open EpochLayout (selectRows)

namespace FpoSchedule

variable {K : Type} [Field K] [LinearOrder K]

/-- The checks before the first epoch pass. -/
def Starts (schedule : FpoSchedule K) (size : ℕ) : Prop :=
  schedule.worldSize ∣ schedule.config.miniBatchSize ∧
    schedule.localMiniBatchSize size ≤ size ∧
    0 < schedule.localMiniBatchSize size

def minibatchCount (schedule : FpoSchedule K) (size : ℕ) : ℕ :=
  (chunkStarts size (schedule.localMiniBatchSize size)).length

def SafeUpdate (schedule : FpoSchedule K) (size : ℕ) : Prop :=
  schedule.worldSize = 1 ∨ ¬schedule.Starts size ∨
    schedule.config.targetKl = none ∨
    schedule.config.klEarlyStopMode = .preOptimizer ∨
    schedule.valueOnly = true ∨ schedule.config.updateEpochs = 1 ∨
    schedule.config.updateEpochs = 2 ∧ schedule.minibatchCount size = 1

end FpoSchedule

namespace FpoSetting

variable {K Θ Ω S Φ G X : Type} [Field K] [LinearOrder K]
  (setting : FpoSetting K Θ Ω S Φ G X) {world : ℕ}

/-- A skipped step leaves the actor, its optimizer and its scheduler. -/
def SkipsKeep (state : FpoState Θ Ω S Φ) : Prop :=
  ∀ step ∈ state.actorSteps, step.skipped = true → step.after = step.before

def Agreed (states : Fin world → FpoState Θ Ω S Φ) : Prop :=
  ∃ shared, SkipsKeep shared ∧ ∀ rank, states rank = shared

/-- No divergence has been seen, and none can be. -/
def Quiet (state : RankState K Θ Ω S Φ) : Prop := (setting.valueOnly = true ∨
    state.actor.parameters = setting.oldParameters) ∧
    ∀ kl ∈ state.epochKls, kl = 0

structure MicroAgreed (quiet : Prop)
    (states : Fin world → MicroState K Θ Ω S Φ G) : Prop where
  agreed : Agreed fun rank => (states rank).toFpoState
  critic : setting.config.criticEnabled = true →
    ∀ rank, (states rank).hierarchicalApproxKl = 0
  quiet : quiet → ∀ rank, setting.Quiet (states rank).toRankState ∧
    (states rank).hierarchicalApproxKl = 0

abbrev Ranks {α : Type} (post : (Fin world → α) → Prop)
    (programs : Fin world → FpoProgram K G α) : Prop :=
  Together setting.reduce (fun _ => True) post programs

variable {setting}

variable {states : Fin world → MicroState K Θ Ω S Φ G}

theorem MicroAgreed.of_eq {quiet : Prop}
    (hstates : setting.MicroAgreed quiet states) (shared : FpoState Θ Ω S Φ)
    (hkeep : SkipsKeep shared) (hshared : ∀ rank,
      (next rank).toFpoState = shared)
    (hactor : ∀ rank, (next rank).actor = (states rank).actor)
    (hkls : ∀ rank, (next rank).epochKls = (states rank).epochKls)
    (hsum : ∀ rank, (next rank).hierarchicalApproxKl =
      (states rank).hierarchicalApproxKl) :
    setting.MicroAgreed quiet next := by
  constructor
  · exact ⟨shared, hkeep, hshared⟩
  · intro hcritic rank
    rw [hsum]
    exact hstates.critic hcritic rank
  · intro hquiet rank
    rw [hsum, Quiet, hactor, hkls]
    exact hstates.quiet hquiet rank

def SameGradient (states : Fin world → MicroState K Θ Ω S Φ G) : Prop :=
  ∃ shared, ∀ rank, (states rank).gradient = shared

theorem identityGate_agrees {quiet : Prop}
    (hstates : setting.MicroAgreed quiet states)
    (rows : Fin world → List (FpoChunk K X)) :
    setting.Ranks (setting.MicroAgreed quiet) fun rank =>
      setting.identityGate (rows rank) (states rank) := by
  obtain ⟨shared, hkeep, hshared⟩ := hstates.agreed
  unfold identityGate
  simp only [hshared]
  by_cases hrequired : (!shared.identityGateChecked &&
      setting.identityGateRequired shared) = true
  · simp only [if_pos hrequired]
    apply Together.collective_bind
    generalize setting.reduce FpoCollective.identityGate _ = differences
    by_cases hvalid : 0 < differences.2.2
    · simp only [if_pos hvalid]
      apply Together.check_bind
      · intro _
        apply Together.done
        refine hstates.of_eq { shared with
          identityGateChecked := true, identityGateHasPassed := true } hkeep
          (fun _ => rfl) ?_ (fun _ => rfl) (fun _ => rfl)
        intro rank
        exact (congrArg FpoState.actor (hshared rank)).symm
      · exact fun _ => trivial
    · simp only [if_neg hvalid]
      exact .done hstates
  · simp only [if_neg hrequired]
    exact .done hstates

theorem backward_agrees {quiet : Prop}
    (hstates : setting.MicroAgreed quiet states) (normalization : Option K)
    (last : Bool) (rows : Fin world → List (FpoChunk K X)) :
    setting.Ranks (fun values => setting.MicroAgreed quiet values ∧
        (last = true → SameGradient values)) fun rank =>
      setting.backward normalization last (rows rank) (states rank) := by
  have hagreed : ∀ gradients : Fin world → G, setting.MicroAgreed quiet
      fun rank => { states rank with gradient := gradients rank } :=
    fun _ => ⟨hstates.agreed, hstates.critic, hstates.quiet⟩
  cases last with
  | true =>
    apply Together.collective_bind
    exact .done ⟨hagreed _, fun _ => ⟨_, fun _ => rfl⟩⟩
  | false => exact .done ⟨hagreed _, nofun⟩

theorem gradient_recordKl (kl : K) (state : MicroState K Θ Ω S Φ G) :
    (setting.recordKl kl state).gradient = state.gradient := by
  unfold recordKl
  split_ifs <;> rfl

theorem recordKl_agrees {quiet : Prop} {kls : Fin world → K}
    (hstates : setting.MicroAgreed quiet states)
    (hkls : quiet → ∀ rank, kls rank = 0) :
    setting.MicroAgreed quiet fun rank =>
      setting.recordKl (kls rank) (states rank) := by
  unfold recordKl
  by_cases hcritic : setting.config.criticEnabled = true
  · simp only [if_pos hcritic]
    refine ⟨hstates.agreed, hstates.critic, ?_⟩
    intro hquiet rank
    obtain ⟨⟨hpolicy, hzero⟩, hsum⟩ := hstates.quiet hquiet rank
    refine ⟨⟨hpolicy, ?_⟩, hsum⟩
    intro kl hkl
    rcases List.mem_append.mp hkl with hkl | hkl
    · exact hzero kl hkl
    · rw [List.mem_singleton.mp hkl]
      exact hkls hquiet rank
  · simp only [if_neg hcritic]
    refine ⟨hstates.agreed, fun hcontra => absurd hcontra hcritic, ?_⟩
    intro hquiet rank
    obtain ⟨hquietState, hsum⟩ := hstates.quiet hquiet rank
    refine ⟨hquietState, ?_⟩
    change (states rank).hierarchicalApproxKl + kls rank = 0
    rw [hsum, hkls hquiet rank, add_zero]

/-! ## A minibatch -/

/-- The ranks of a minibatch hold equally many rows. -/
def SameLength (rows : Fin world → List (FpoChunk K X)) : Prop :=
  ∃ size, ∀ rank, (rows rank).length = size

theorem normalizeRows_agrees {rows : Fin world → List (FpoChunk K X)}
    (hrows : SameLength rows) :
    setting.Ranks SameLength fun rank => setting.normalizeRows (rows rank) := by
  obtain ⟨size, hsize⟩ := hrows
  unfold normalizeRows
  by_cases hnormalize : setting.config.normalizeAdvantages = true
  · simp only [if_pos hnormalize]
    by_cases hcritic : setting.config.criticEnabled = true
    · simp only [if_pos hcritic]
      apply Together.collective_bind
      apply Together.done
      refine ⟨size, ?_⟩
      intro rank
      rw [List.length_map, hsize]
    · simp only [if_neg hcritic]
      exact .fail trivial
  · simp only [if_neg hnormalize]
    exact .done ⟨size, hsize⟩

theorem hierarchicalNormalization_agrees
    (rows : Fin world → List (FpoChunk K X)) :
    setting.Ranks (fun values => ∃ shared, ∀ rank, values rank = shared)
      fun rank => setting.hierarchicalNormalization (rows rank) := by
  unfold hierarchicalNormalization
  by_cases hcritic : setting.config.criticEnabled = true
  · simp only [if_pos hcritic]
    exact .done ⟨none, fun _ => rfl⟩
  · simp only [if_neg hcritic]
    apply Together.collective_bind
    apply Together.check_bind
    · exact fun _ => .done ⟨_, fun _ => rfl⟩
    · exact fun _ => trivial

variable (setting) in
/-- A policy compared with itself does not differ. -/
structure Consistent : Prop where
  exp_zero : setting.exp 0 = 1
  logRatio : ∀ parameters contents,
    setting.engine.logRatio parameters parameters contents =
      setting.config.policy.variant.constLogRatio 0

section Ordered

variable [IsStrictOrderedRing K]

variable (setting) in
theorem policyKl_done (normalization : Option K) (parameters : Θ)
    (rows : List (FpoChunk K X)) :
    ∃ kl, (setting.policyKl normalization parameters rows :
        FpoProgram K G K) = .done kl ∧
      (setting.Consistent → parameters = setting.oldParameters → kl = 0) := by
  obtain ⟨result, hresult, _, hkl⟩ := computeClippedPolicyLoss_eq setting.exp
    setting.config.policy (rows.map (setting.surrogateRow parameters))
    (if setting.config.criticEnabled then none
      else some fun row => row.weight) normalization
  refine ⟨result.approxKl, ?_, ?_⟩
  · unfold policyKl
    rw [hresult]
    rfl
  · intro hconsistent hold
    rw [hkl]
    have hterms : ∀ value ∈ (rows.map (setting.surrogateRow parameters)).map
        fun row => chunkWeight (if setting.config.criticEnabled then none
          else some fun row => row.weight) row *
            setting.config.policy.klTerm setting.exp row, value = 0 := by
      intro value hvalue
      obtain ⟨row, hrow, rfl⟩ := List.mem_map.mp hvalue
      obtain ⟨chunk, _, rfl⟩ := List.mem_map.mp hrow
      have hterm : setting.config.policy.klTerm setting.exp
          (setting.surrogateRow parameters chunk) = 0 := by
        unfold surrogateRow
        rw [hold, hconsistent.logRatio, klTerm_const,
          klOf_zero hconsistent.exp_zero]
      rw [hterm, mul_zero]
    rw [List.sum_eq_zero hterms, zero_div]

variable {states : Fin world → MicroState K Θ Ω S Φ G}

section

variable {quiet : Prop} (hconsistent : setting.Consistent)

include hconsistent

theorem policyKl_agrees (hvalue : ¬setting.valueOnly = true)
    (hstates : setting.MicroAgreed quiet states) (normalization : Option K)
    (rows : Fin world → List (FpoChunk K X)) :
    setting.Ranks (fun kls => quiet → ∀ rank, kls rank = 0) fun rank =>
      setting.policyKl normalization (states rank).actor.parameters
        (rows rank) := by
  choose kls hkls hzero using fun rank => setting.policyKl_done normalization
    (states rank).actor.parameters (rows rank)
  simp only [hkls]
  apply Together.done
  intro hquiet rank
  obtain ⟨⟨hpolicy, _⟩, _⟩ := hstates.quiet hquiet rank
  exact hzero rank hconsistent (hpolicy.resolve_left hvalue)

theorem microBatchStep_agrees
    (hstates : setting.MicroAgreed quiet states) (normalization : Option K)
    (last : Bool) (rows : Fin world → List (FpoChunk K X)) :
    setting.Ranks (fun values => setting.MicroAgreed quiet values ∧
        (last = true → SameGradient values)) fun rank =>
      setting.microBatchStep normalization last (states rank) (rows rank) := by
  have hrecord : ∀ (kls : Fin world → K)
      (values : Fin world → MicroState K Θ Ω S Φ G),
      (quiet → ∀ rank, kls rank = 0) →
      (setting.MicroAgreed quiet values ∧
        (last = true → SameGradient values)) →
      setting.MicroAgreed quiet
          (fun rank => setting.recordKl (kls rank) (values rank)) ∧
        (last = true → SameGradient fun rank =>
          setting.recordKl (kls rank) (values rank)) := by
    intro kls values hkls hvalues
    refine ⟨recordKl_agrees hvalues.1 hkls, ?_⟩
    intro hlast
    obtain ⟨shared, hshared⟩ := hvalues.2 hlast
    refine ⟨shared, fun rank => ?_⟩
    rw [gradient_recordKl, hshared]
  apply Together.collective_bind
  by_cases hvalue : setting.valueOnly = true
  · simp only [if_pos hvalue]
    apply (backward_agrees hstates normalization last rows).bind
    intro values hvalues
    exact .done (hrecord (fun _ => 0) values (fun _ _ => rfl) hvalues)
  · simp only [if_neg hvalue]
    apply (identityGate_agrees hstates rows).bind
    intro gated hgated
    apply (policyKl_agrees hconsistent hvalue hgated normalization rows).bind
    intro kls hkls
    apply (backward_agrees hgated normalization last rows).bind
    intro values hvalues
    exact .done (hrecord kls values hkls hvalues)

theorem microBatches_agree (hstates : setting.MicroAgreed quiet states)
    (hgradient : SameGradient states) (normalization : Option K)
    (hrows : SameLength rows) :
    setting.Ranks (fun values => setting.MicroAgreed quiet values ∧
        SameGradient values) fun rank =>
      forEach (setting.microBatchStep normalization)
        (splitRows setting.config.microBatchSize (rows rank))
        (states rank) := by
  obtain ⟨size, hsize⟩ := hrows
  have hsplit : ∀ rank, splitRows setting.config.microBatchSize (rows rank) =
      ((chunkStarts size setting.config.microBatchSize).map fun start rank =>
        sliceRows (start, start + setting.config.microBatchSize)
          (rows rank)).map (· rank) := by
    intro rank
    rw [splitRows, hsize, List.map_map]
    rfl
  simp only [hsplit]
  apply Together.forEach (setting.MicroAgreed quiet) (fun _ => True)
  · intro states items hstates _
    have hstep := microBatchStep_agrees hconsistent hstates normalization
      false items
    exact hstep.mono fun _ hvalues => hvalues.1
  · intro states items hstates _
    have hstep := microBatchStep_agrees hconsistent hstates normalization
      true items
    exact hstep.mono fun _ hvalues => ⟨hvalues.1, hvalues.2 rfl⟩
  · exact fun _ _ => trivial
  · exact hstates
  · exact fun _ => ⟨hstates, hgradient⟩

end

end Ordered

section Steps

structure RankAgreed (quiet : Prop)
    (states : Fin world → RankState K Θ Ω S Φ) : Prop where
  agreed : Agreed fun rank => (states rank).toFpoState
  quiet : quiet → ∀ rank, ∀ kl ∈ (states rank).epochKls, kl = 0

theorem reduceKl_agrees {quiet : Prop}
    (hstates : setting.MicroAgreed quiet states) :
    setting.Ranks (fun values : Fin world → K × MicroState K Θ Ω S Φ G =>
      (∃ shared, ∀ rank, (values rank).1 = shared) ∧
      RankAgreed quiet (fun rank => (values rank).2.toRankState) ∧
      ∀ rank, (values rank).2.gradient = (states rank).gradient)
      fun rank => setting.reduceKl (states rank) := by
  unfold reduceKl
  by_cases hcritic : setting.config.criticEnabled = true
  · simp only [if_pos hcritic]
    apply Together.done
    refine ⟨⟨0, hstates.critic hcritic⟩, ⟨hstates.agreed, ?_⟩, fun _ => rfl⟩
    exact fun hquiet rank => (hstates.quiet hquiet rank).1.2
  · simp only [if_neg hcritic]
    apply Together.collective_bind
    apply Together.done
    refine ⟨⟨_, fun _ => rfl⟩, ⟨hstates.agreed, ?_⟩, fun _ => rfl⟩
    intro hquiet rank kl hkl
    obtain ⟨⟨_, hzero⟩, hsum⟩ := hstates.quiet hquiet rank
    rcases List.mem_append.mp hkl with hkl | hkl
    · exact hzero kl hkl
    · rw [List.mem_singleton.mp hkl]
      exact hsum

section

variable {quiet : Prop} {states : Fin world → RankState K Θ Ω S Φ}
  (hstates : RankAgreed quiet states) {gradients : Fin world → G}
  {gradient : G} (hgradients : ∀ rank, gradients rank = gradient)

include hstates hgradients

theorem stepValue_agrees : setting.Ranks (RankAgreed quiet) fun rank =>
      setting.stepValue (gradients rank) (states rank) := by
  obtain ⟨shared, hkeep, hshared⟩ := hstates.agreed
  unfold stepValue
  simp only [hgradients, hshared]
  by_cases hcritic : setting.config.criticEnabled = true
  · simp only [if_pos hcritic]
    apply Together.collective_bind
    apply Together.done
    refine ⟨⟨_, ?_, fun _ => rfl⟩, hstates.quiet⟩
    exact hkeep
  · simp only [if_neg hcritic]
    exact .done hstates

theorem stepActor_agrees (epoch : ℕ) (skip : Bool) :
    setting.Ranks (RankAgreed quiet) fun rank =>
      setting.stepActor epoch skip (gradients rank) (states rank) := by
  obtain ⟨shared, hkeep, hshared⟩ := hstates.agreed
  unfold stepActor
  simp only [hgradients, hshared]
  cases skip with
  | true =>
    simp only [if_true]
    apply Together.done
    refine ⟨⟨_, ?_, fun _ => rfl⟩, hstates.quiet⟩
    intro step hstep hskipped
    rcases List.mem_append.mp hstep with hstep | hstep
    · exact hkeep step hstep hskipped
    · rw [List.mem_singleton.mp hstep]
  | false =>
    simp only [Bool.false_eq_true, if_false]
    by_cases hvalue : setting.valueOnly = true
    · simp only [if_pos hvalue]
      exact .done hstates
    · simp only [if_neg hvalue]
      apply Together.collective_bind
      apply Together.done
      refine ⟨⟨_, ?_, fun _ => rfl⟩, hstates.quiet⟩
      intro step hstep hskipped
      rcases List.mem_append.mp hstep with hstep | hstep
      · exact hkeep step hstep hskipped
      · rw [List.mem_singleton.mp hstep] at hskipped
        cases hskipped

end

end Steps

section Shards

variable {K X : Type} {world : ℕ}

theorem length_selectRows {indices : List ℕ} {rows : List (FpoChunk K X)}
    (hindices : ∀ index ∈ indices, index < rows.length) :
    (selectRows indices rows).length = indices.length := by
  unfold selectRows
  induction indices with
  | nil => rfl
  | cons index indices ih =>
    have hindex := hindices index List.mem_cons_self
    rw [List.filterMap_cons_some (List.getElem?_eq_getElem hindex),
      List.length_cons, List.length_cons,
      ih fun other hother => hindices other (List.mem_cons_of_mem _ hother)]

def minibatchRows {size : ℕ} (localSize epoch : ℕ)
    (shards : Fin world → RankShard K X size) :
    List (Fin world → List (FpoChunk K X)) :=
  (chunkStarts size localSize).map fun start rank => selectRows
    (sliceRows (start, start + localSize) ((shards rank).permutation epoch))
      (shards rank).rows

theorem minibatches_eq (localSize epoch : ℕ)
    (shards : Fin world → RankShard K X size) (rank : Fin world) :
    minibatches localSize (shards rank).rows
        ((shards rank).permutation epoch) =
      (minibatchRows localSize epoch shards).map (· rank) := by
  rw [minibatches, minibatchRows, (shards rank).length_rows, List.map_map]
  rfl

theorem sameLength_minibatchRows {size localSize epoch : ℕ}
    {shards : Fin world → RankShard K X size} :
    ∀ rows ∈ minibatchRows localSize epoch shards, SameLength rows := by
  intro rows hrows
  obtain ⟨start, _, rfl⟩ := List.mem_map.mp hrows
  refine ⟨min localSize (size - start), ?_⟩
  intro rank
  have hperm := (shards rank).permuted epoch
  have hlength : ((shards rank).permutation epoch).length = size :=
    hperm.length_eq.trans List.length_range
  rw [length_selectRows]
  · rw [sliceRows, List.length_take, List.length_drop, hlength,
      Nat.add_sub_cancel_left]
  · intro index hindex
    have hmember := List.mem_of_mem_drop (List.mem_of_mem_take hindex)
    rw [(shards rank).length_rows]
    exact List.mem_range.mp (hperm.mem_iff.mp hmember)

end Shards

section Epochs

theorem stopsAfterEpoch_of_zero (hkls : ∀ kl ∈ kls, kl = 0)
    (htarget : ∀ target ∈ setting.config.targetKl, 0 < target) :
    setting.stopsAfterEpoch kls = false := by
  have hmean : meanEpochKl kls = 0 := by
    rw [meanEpochKl, List.sum_eq_zero hkls, zero_div]
  have hany : setting.config.targetKl.any (· < meanEpochKl kls) = false := by
    cases hvalue : setting.config.targetKl with
    | none => rfl
    | some target =>
      have hpositive := htarget target hvalue
      rw [Option.any_some, decide_eq_false_iff_not, hmean]
      exact not_lt.mpr hpositive.le
  rw [stopsAfterEpoch, hany, Bool.and_false]

variable (setting) in
def SafeEpochs (world minibatches remaining : ℕ) (fresh : Prop) : Prop :=
  world = 1 ∨ (∀ kls, setting.stopsAfterEpoch kls = false) ∨
    setting.valueOnly = true ∨ remaining ≤ 1 ∨
    remaining = 2 ∧ minibatches = 1 ∧ fresh

/-- The ranks stop together or go on together after an epoch that is not the
last. -/
theorem SafeEpochs.stops {quiet fresh : Prop} {minibatches remaining : ℕ}
    (hsafe : setting.SafeEpochs world minibatches (remaining + 2) fresh)
    (htarget : ∀ target ∈ setting.config.targetKl, 0 < target)
    {ended : Fin world → RankState K Θ Ω S Φ}
    (hended : RankAgreed quiet ended)
    (hquiet : setting.valueOnly = true ∨ minibatches = 1 ∧ fresh → quiet) :
    (∃ answer, ∀ rank, setting.stopsAfterEpoch (ended rank).epochKls =
      answer) ∧
      ∀ fresh, setting.SafeEpochs world minibatches (remaining + 1) fresh := by
  have hzero : quiet → ∀ rank,
      setting.stopsAfterEpoch (ended rank).epochKls = false :=
    fun hcondition rank =>
      stopsAfterEpoch_of_zero (hended.quiet hcondition rank) htarget
  rcases hsafe with hworld | hnever | hvalue | hlast | ⟨hlast, hcount, hfresh⟩
  · subst hworld
    refine ⟨⟨setting.stopsAfterEpoch (ended 0).epochKls, ?_⟩,
      fun _ => .inl rfl⟩
    intro rank
    rw [Subsingleton.elim rank 0]
  · exact ⟨⟨false, fun rank => hnever _⟩, fun _ => .inr (.inl hnever)⟩
  · exact ⟨⟨false, hzero (hquiet (.inl hvalue))⟩,
      fun _ => .inr (.inr (.inl hvalue))⟩
  · omega
  · refine ⟨⟨false, hzero (hquiet (.inr ⟨hcount, hfresh⟩))⟩, ?_⟩
    intro _
    exact .inr (.inr (.inr (.inl (by omega))))

/-- The ranks call the same operations to the end and finish in one state, in
which no skipped step changed the actor. -/
def UpdatesTogether {size : ℕ} (setting : FpoSetting K Θ Ω S Φ G X)
    (start : FpoState Θ Ω S Φ)
    (shards : Fin setting.worldSize → RankShard K X size) : Prop :=
  setting.Ranks Agreed fun rank =>
    setting.updateFpoPolicy start (shards rank)

theorem safeEpochs_of_update (hsafe : setting.SafeUpdate size)
    (hstarts : setting.Starts size) {fresh : Prop} (hfresh : fresh) :
    setting.SafeEpochs setting.worldSize
      (chunkStarts size (setting.localMiniBatchSize size)).length
      setting.config.updateEpochs fresh := by
  rcases hsafe with hworld | hnone | htarget | hmode | hvalue | hone |
    ⟨htwo, hcount⟩
  · exact .inl hworld
  · exact absurd hstarts hnone
  · right; left
    intro kls
    rw [stopsAfterEpoch, htarget]
    exact Bool.and_false _
  · right; left
    intro kls
    rw [stopsAfterEpoch, hmode]
    rfl
  · exact .inr (.inr (.inl hvalue))
  · exact .inr (.inr (.inr (.inl hone.le)))
  · exact .inr (.inr (.inr (.inr ⟨htwo, hcount, hfresh⟩)))

variable [IsStrictOrderedRing K]

theorem minibatchStep_agrees {quiet : Prop} (hconsistent : setting.Consistent)
    (epoch : ℕ) {states : Fin world → RankState K Θ Ω S Φ}
    (hstates : RankAgreed quiet states)
    (hquiet : quiet → ∀ rank, setting.Quiet (states rank))
    {rows : Fin world → List (FpoChunk K X)} (hrows : SameLength rows) :
    setting.Ranks (RankAgreed quiet) fun rank =>
      setting.minibatchStep epoch (states rank) (rows rank) := by
  apply (normalizeRows_agrees hrows).bind
  intro normalized hnormalized
  apply (hierarchicalNormalization_agrees normalized).bind
  rintro normalizations ⟨normalization, hnormalization⟩
  simp only [hnormalization]
  have hbegin : setting.MicroAgreed quiet fun rank =>
      ({ states rank with
        gradient := setting.engine.noGradient
        hierarchicalApproxKl := 0 } : MicroState K Θ Ω S Φ G) :=
    ⟨hstates.agreed, fun _ _ => rfl,
      fun hcondition rank => ⟨hquiet hcondition rank, rfl⟩⟩
  apply (microBatches_agree hconsistent hbegin ⟨_, fun _ => rfl⟩ normalization
    hnormalized).bind
  rintro sums ⟨hsums, gradient, hgradient⟩
  obtain ⟨shared, _, hshared⟩ := hsums.agreed
  simp only [hshared]
  apply Together.check_bind
  · intro _
    apply (reduceKl_agrees hsums).bind
    rintro reduced ⟨⟨preStepKl, hpreStepKl⟩, hreduced, hsame⟩
    have hgradients : ∀ rank, (reduced rank).2.gradient = gradient :=
      fun rank => (hsame rank).trans (hgradient rank)
    apply (stepValue_agrees hreduced hgradients).bind
    intro stepped hstepped
    simp only [hpreStepKl]
    exact stepActor_agrees hstepped hgradients epoch _
  · exact fun _ => trivial

theorem epoch_agrees (quiet : Prop) (hconsistent : setting.Consistent)
    {size : ℕ} (localSize epoch : ℕ)
    (shards : Fin world → RankShard K X size)
    {states : Fin world → RankState K Θ Ω S Φ}
    (hstates : RankAgreed quiet states)
    (hquiet : quiet → ∀ rank, setting.Quiet (states rank))
    (hfew : quiet → setting.valueOnly = true ∨
      (chunkStarts size localSize).length = 1) :
    setting.Ranks (RankAgreed quiet) fun rank =>
      forEach (fun _ => setting.minibatchStep epoch)
        (minibatches localSize (shards rank).rows
          ((shards rank).permutation epoch)) (states rank) := by
  have hsame : ∀ rows ∈ minibatchRows localSize epoch shards,
      SameLength rows := sameLength_minibatchRows
  simp only [minibatches_eq]
  by_cases hsingle : (chunkStarts size localSize).length = 1
  · obtain ⟨rows, hrows⟩ := List.length_eq_one_iff.mp
      (show (minibatchRows localSize epoch shards).length = 1 by
        rw [minibatchRows, List.length_map, hsingle])
    rw [hrows] at hsame ⊢
    have hstep := minibatchStep_agrees hconsistent epoch hstates hquiet
      (hsame rows List.mem_cons_self)
    exact hstep.bind fun values hvalues => .done hvalues
  · have hnext : ∀ next : Fin world → RankState K Θ Ω S Φ,
        RankAgreed quiet next → quiet → ∀ rank, setting.Quiet (next rank) := by
      intro next hagreed hcondition rank
      exact ⟨.inl ((hfew hcondition).resolve_right hsingle),
        hagreed.quiet hcondition rank⟩
    apply Together.forEach (RankAgreed quiet) SameLength
    · intro next rows hagreed hrows
      exact minibatchStep_agrees hconsistent epoch hagreed
        (hnext next hagreed) hrows
    · intro next rows hagreed hrows
      exact minibatchStep_agrees hconsistent epoch hagreed
        (hnext next hagreed) hrows
    · exact hsame
    · exact hstates
    · exact fun _ => hstates

section

variable (hconsistent : setting.Consistent)
  (htarget : ∀ target ∈ setting.config.targetKl, 0 < target)

include hconsistent htarget

theorem runEpochs_agrees
    {size : ℕ} (localSize : ℕ) (shards : Fin world → RankShard K X size)
    (remaining epoch : ℕ) (states : Fin world → RankState K Θ Ω S Φ)
    (hstates : Agreed fun rank => (states rank).toFpoState)
    (hsafe : setting.SafeEpochs world (chunkStarts size localSize).length
      remaining
      (∀ rank, (states rank).actor.parameters = setting.oldParameters)) :
    setting.Ranks (fun values => Agreed fun rank => (values rank).toFpoState)
      fun rank => setting.runEpochs localSize (shards rank) remaining epoch
        (states rank) := by
  induction remaining generalizing epoch states with
  | zero => exact .done hstates
  | succ remaining ih =>
    have hbegan : ∀ quiet, RankAgreed quiet fun rank =>
        ({ states rank with epochKls := [] } : RankState K Θ Ω S Φ) :=
      fun _ => ⟨hstates, fun _ _ _ hkl => absurd hkl List.not_mem_nil⟩
    have hepoch := epoch_agrees (setting.valueOnly = true ∨
      (chunkStarts size localSize).length = 1 ∧
        ∀ rank, (states rank).actor.parameters = setting.oldParameters)
      hconsistent localSize epoch shards (hbegan _)
      (fun hquiet rank => ⟨hquiet.imp_right fun hfresh => hfresh.2 rank,
        fun _ hkl => absurd hkl List.not_mem_nil⟩)
      (fun hquiet => hquiet.imp_right And.left)
    apply hepoch.bind
    intro ended hended
    obtain ⟨shared, hkeep, hshared⟩ := hended.agreed
    have hagreed : Agreed fun rank =>
        ({ ended rank with epochsRun := (ended rank).epochsRun + 1 } :
          RankState K Θ Ω S Φ).toFpoState :=
      ⟨{ shared with epochsRun := shared.epochsRun + 1 }, hkeep,
        fun rank => congrArg (fun state : FpoState Θ Ω S Φ =>
          { state with epochsRun := state.epochsRun + 1 }) (hshared rank)⟩
    simp only [hshared] at hagreed ⊢
    by_cases htriggered : shared.klEarlyStopTriggered = true
    · simp only [htriggered, Bool.true_or, if_true] at hagreed ⊢
      exact .done hagreed
    · rw [Bool.not_eq_true] at htriggered
      simp only [htriggered, Bool.false_or] at hagreed ⊢
      cases remaining with
      | zero =>
        simp only [runEpochs, ite_self]
        exact .done hagreed
      | succ remaining =>
        obtain ⟨⟨answer, hanswer⟩, hrest⟩ := hsafe.stops htarget hended id
        simp only [hanswer]
        cases answer with
        | true => exact .done hagreed
        | false => exact ih _ _ hagreed (hrest _)

theorem updatesTogether_of_safe
    (hold : start.actor.parameters = setting.oldParameters)
    (shards : Fin setting.worldSize → RankShard K X size)
    (hsafe : setting.SafeUpdate size) :
    setting.UpdatesTogether start shards := by
  have hlength : ∀ rank, (shards rank).rows.length = size :=
    fun rank => (shards rank).length_rows
  unfold UpdatesTogether updateFpoPolicy
  simp only [hlength]
  apply Together.check_bind
  · intro hdivides
    apply Together.check_bind
    · intro hfits
      apply Together.collective_bind
      apply Together.check_bind
      · intro hpositive
        have hepochs := runEpochs_agrees hconsistent htarget
          (setting.localMiniBatchSize size) shards
          setting.config.updateEpochs 0 (fun _ => { start with
            identityGateChecked := false
            klEarlyStopTriggered := false
            epochsRun := 0
            optimizerStepsApplied := 0
            actorSteps := []
            epochKls := [] })
          ⟨_, fun _ hstep => absurd hstep List.not_mem_nil, fun _ => rfl⟩
          (safeEpochs_of_update hsafe ⟨hdivides, hfits, hpositive⟩ fun _ => hold)
        apply hepochs.bind
        intro ended hended
        apply Together.collective_bind
        exact .done hended
      · exact fun _ => trivial
    · exact fun _ => trivial
  · exact fun _ => trivial

end

end Epochs

end FpoSetting

end VerlVla
