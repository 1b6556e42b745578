import Mathlib.Algebra.Order.BigOperators.Group.Finset
import Mathlib.Tactic.Linarith
import VerlVla.FpoAgreement

/-!
# An update in which one rank drifts

The first rank holds chunks whose log ratio leaves zero once the actor has
stepped, and the other ranks hold chunks whose log ratio stays.  The ranks stay
together through the minibatches of an epoch, and their divergences do not.
-/

namespace VerlVla

open List hiding choose cons count length nil

open RankProgram
open EpochLayout (selectRows)

section Drift

variable {K : Type} [Field K] [LinearOrder K]

/-- Parameters count the actor steps, and a chunk may drift from the policy that
acted. -/
def driftEngine (policy : PolicyConfig K) (drift : K) :
    FpoEngine K (policy.variant.LogRatio K policy.samples) ℕ Unit Unit Unit
      Unit Bool where
  logRatio old current drifts := policy.variant.constLogRatio
    (if drifts && old ≠ current then drift else 0)
  scoreDelta _ _ _ := 0
  gradient _ _ _ _ _ := ()
  noGradient := ()
  addGradient _ _ := ()
  averageGradients _ := ()
  optimizerStep actor _ := (actor.parameters + 1, ())
  lrSchedulerStep _ := ()
  valueStep _ _ := ()
  sqrt _ := 1

def driftSetting (exp : K → K) (schedule : FpoSchedule K) (drift : K) :
    FpoSetting K ℕ Unit Unit Unit Unit Bool where
  toFpoSchedule := schedule
  exp := exp
  engine := driftEngine schedule.config.policy drift
  oldParameters := 0

def driftChunk (drifts : Bool) : FpoChunk K Bool where
  valid := true
  weight := 1
  advantage := 0
  contents := drifts

def driftShard (size : ℕ) (drifts : Bool) : RankShard K Bool size where
  rows := replicate size (driftChunk drifts)
  permutation _ := range size
  length_rows := length_replicate
  permuted _ := Perm.refl _

def driftShards (worldSize size : ℕ) (rank : Fin worldSize) :
    RankShard K Bool size :=
  driftShard size (rank.val = 0)

def driftStart : FpoState ℕ Unit Unit Unit where
  actor := ⟨0, (), ()⟩
  value := ()
  identityGateHasPassed := false
  identityGateChecked := false
  klEarlyStopTriggered := false
  epochsRun := 0
  optimizerStepsApplied := 0
  actorSteps := []

/-- All advantages aside, a row is a chunk of its rank. -/
def IsDrift (drifts : Bool) (row : FpoChunk K Bool) : Prop :=
  row.valid = true ∧ row.weight = 1 ∧ row.contents = drifts

structure DriftRows {world : ℕ} (count : ℕ)
    (rows : Fin world → List (FpoChunk K Bool)) : Prop where
  length : ∀ rank, (rows rank).length = count
  drift : ∀ rank, ∀ row ∈ rows rank, IsDrift (rank.val = 0) row

end Drift

/-! ## Micro-batches that drift -/

namespace FpoSetting

theorem sum_map_of_const {K α : Type} [Field K] {f : α → K} {value : K}
    {items : List α} (hitems : ∀ item ∈ items, f item = value) :
    (items.map f).sum = items.length * value := by
  have hconst : items.map f = replicate items.length value :=
    eq_replicate_iff.mpr ⟨length_map f, by
      intro term hterm
      obtain ⟨item, hitem, rfl⟩ := mem_map.mp hterm
      exact hitems item hitem⟩
  rw [hconst, sum_replicate, nsmul_eq_mul]

theorem foldl_max_zero {K α : Type} [Zero K] [LinearOrder K] {f : α → K}
    {items : List α} (hitems : ∀ item ∈ items, f item = 0) :
    items.foldl (fun bound item => max bound (f item)) 0 = 0 := by
  induction items with
  | nil => rfl
  | cons item items ih =>
    rw [foldl_cons, hitems item mem_cons_self, max_self]
    exact ih fun other hother => hitems other (mem_cons_of_mem _ hother)

section Steps

variable {K : Type} [Field K] [LinearOrder K]
  {setting : FpoSetting K ℕ Unit Unit Unit Unit Bool} {drift kl : K}
  {world size : ℕ}

/-- A setting in which drifting chunks show a divergence after a step. -/
structure Drifting (setting : FpoSetting K ℕ Unit Unit Unit Unit Bool)
    (drift kl : K) : Prop where
  logRatio : ∀ old current drifts, setting.engine.logRatio old current drifts =
      setting.config.policy.variant.constLogRatio
        (if drifts && old ≠ current then drift else 0)
  scoreDelta : ∀ old current drifts,
    setting.engine.scoreDelta old current drifts = 0
  optimizerStep : ∀ actor gradient,
    setting.engine.optimizerStep actor gradient = (actor.parameters + 1, ())
  old : setting.oldParameters = 0
  exp_zero : setting.exp 0 = 1
  divergence : setting.config.policy.variant.klOf setting.exp drift = kl
  kl_nonneg : 0 ≤ kl
  mode : setting.config.klEarlyStopMode = .postEpoch
  policy : setting.valueOnly = false
  normalized : setting.config.normalizeAdvantages = true →
    setting.config.criticEnabled = true
  micro : 0 < setting.config.microBatchSize

/-- What each rank divides by in a minibatch of the given number of rows. -/
def DriftNormalization (setting : FpoSetting K ℕ Unit Unit Unit Unit Bool)
    (count : ℕ) (normalization : Option K) : Prop :=
  if setting.config.criticEnabled then normalization = none
  else normalization = some (count : K)

/-- Divergences in an epoch: none while no drift can show, and at least a share
of the drift once it does. -/
structure KlsSeen (bound : ℕ) (quiet loud : Prop) (share : K)
    (kls : List K) : Prop where
  length : kls.length ≤ bound
  nonneg : ∀ value ∈ kls, 0 ≤ value
  quiet : quiet → ∀ value ∈ kls, value = 0
  loud : loud → share ≤ kls.sum

theorem KlsSeen.mono {bound larger : ℕ} {quiet loud calm clear : Prop}
    {share : K} {kls : List K} (hkls : KlsSeen bound quiet loud share kls)
    (hbound : bound ≤ larger) (hcalm : calm → quiet)
    (hclear : clear → loud) : KlsSeen larger calm clear share kls :=
  ⟨hkls.length.trans hbound, hkls.nonneg, fun h => hkls.quiet (hcalm h),
    fun h => hkls.loud (hclear h)⟩

theorem KlsSeen.snoc_zero {bound : ℕ} {quiet loud : Prop} {share : K}
    {kls : List K} (hkls : KlsSeen bound quiet loud share kls) :
    KlsSeen (bound + 1) quiet loud share (kls ++ [0]) := by
  have hlast : ∀ {value : K}, value ∈ kls ++ [0] → value ∈ kls ∨ value = 0 :=
    fun hvalue => (mem_append.mp hvalue).imp_right mem_singleton.mp
  constructor
  · rw [length_append]
    exact Nat.succ_le_succ hkls.length
  · intro value hvalue
    rcases hlast hvalue with hvalue | hzero
    · exact hkls.nonneg value hvalue
    · exact hzero.ge
  · intro hquiet value hvalue
    exact (hlast hvalue).elim (hkls.quiet hquiet value) id
  · intro hloud
    rw [sum_append, sum_singleton, add_zero]
    exact hkls.loud hloud

theorem KlsSeen.of_snoc_zero {bound : ℕ} {quiet loud : Prop} {share : K}
    {kls : List K} (hkls : KlsSeen bound quiet loud share (kls ++ [0])) :
    KlsSeen bound quiet loud share kls := by
  have hlength := hkls.length
  rw [length_append] at hlength
  constructor
  · omega
  · exact fun value hvalue =>
      hkls.nonneg value (mem_append_left _ hvalue)
  · exact fun hquiet value hvalue =>
      hkls.quiet hquiet value (mem_append_left _ hvalue)
  · intro hloud
    have hshare := hkls.loud hloud
    rwa [sum_append, sum_singleton, add_zero] at hshare

section Ordered

variable [IsStrictOrderedRing K]

variable {normalization : Option K}
  {states : Fin world → MicroState K ℕ Unit Unit Unit Unit}

/-- A loss over drifting chunks divides by at least one and at most the rows of
the minibatch. -/
theorem lossDenominator_drift {count : ℕ}
    (hnormalization : setting.DriftNormalization count normalization)
    {lossWeights : Option (setting.config.policy.Row → K)}
    {rows : List setting.config.policy.Row}
    (hweights : ∀ row ∈ rows, chunkWeight lossWeights row = 1)
    (hne : rows ≠ []) (hcount : rows.length ≤ count) :
    1 ≤ lossDenominator rows lossWeights normalization ∧
      lossDenominator rows lossWeights normalization ≤ count := by
  have hpos : 1 ≤ rows.length := length_pos_iff.mpr hne
  have hrows : (1 : K) ≤ rows.length := Nat.one_le_cast.mpr hpos
  have hle : (rows.length : K) ≤ count := Nat.cast_le.mpr hcount
  unfold DriftNormalization at hnormalization
  split_ifs at hnormalization
  · rw [hnormalization, lossDenominator, sum_map_of_const hweights, mul_one,
      max_eq_left hrows]
    exact ⟨hrows, hle⟩
  · rw [hnormalization, lossDenominator, max_eq_left (hrows.trans hle)]
    exact ⟨hrows.trans hle, le_refl _⟩

/-- The divergence of a micro-batch: none before the first step or without
drift, and a share of the drift otherwise. -/
theorem Drifting.policyKl (hdrift : setting.Drifting drift kl) {count : ℕ}
    (hnormalization : setting.DriftNormalization count normalization)
    (parameters : ℕ) {drifts : Bool} {rows : List (FpoChunk K Bool)}
    (hrows : ∀ row ∈ rows, IsDrift drifts row) (hne : rows ≠ [])
    (hcount : rows.length ≤ count) (hsize : count ≤ size) :
    ∃ value, (setting.policyKl normalization parameters rows :
        FpoProgram K Unit K) = .done value ∧ 0 ≤ value ∧
      (drifts = false ∨ parameters = 0 → value = 0) ∧
      (drifts = true → parameters ≠ 0 → kl / size ≤ value) := by
  let lossWeights : Option (setting.config.policy.Row → K) :=
    if setting.config.criticEnabled then none else some fun row => row.weight
  let seen := setting.config.policy.variant.klOf setting.exp
    (if drifts && 0 ≠ parameters then drift else 0)
  obtain ⟨result, hresult, _, hkl⟩ := computeClippedPolicyLoss_eq setting.exp
    setting.config.policy (rows.map (setting.surrogateRow parameters))
    lossWeights normalization
  have hweights : ∀ row ∈ rows.map (setting.surrogateRow parameters),
      chunkWeight lossWeights row = 1 := by
    intro row hrow
    obtain ⟨chunk, hchunk, rfl⟩ := mem_map.mp hrow
    obtain ⟨hvalid, hweight, _⟩ := hrows chunk hchunk
    have hvalidity : chunk.validity = 1 := if_pos hvalid
    change chunkWeight (if setting.config.criticEnabled then none
      else some fun row => row.weight) _ = 1
    split_ifs
    · exact hvalidity
    · change chunk.weight * chunk.validity = 1
      rw [hweight, hvalidity, one_mul]
  have hterms : ∀ row ∈ rows.map (setting.surrogateRow parameters),
      chunkWeight lossWeights row *
        setting.config.policy.klTerm setting.exp row = seen := by
    intro row hrow
    rw [hweights row hrow, one_mul]
    obtain ⟨chunk, hchunk, rfl⟩ := mem_map.mp hrow
    unfold surrogateRow
    rw [hdrift.logRatio, klTerm_const, (hrows chunk hchunk).2.2, hdrift.old]
  have hseen : 0 ≤ seen ∧ (drifts = false ∨ parameters = 0 → seen = 0) ∧
      (drifts = true → parameters ≠ 0 → seen = kl) := by
    have hnone : setting.config.policy.variant.klOf setting.exp 0 = 0 :=
      klOf_zero hdrift.exp_zero _
    by_cases hmoved : (drifts && 0 ≠ parameters) = true
    · have hvalue : seen = kl := by
        simp only [seen, if_pos hmoved]
        exact hdrift.divergence
      rw [Bool.and_eq_true, decide_eq_true_eq] at hmoved
      refine ⟨hvalue ▸ hdrift.kl_nonneg, ?_, fun _ _ => hvalue⟩
      rintro (hdrifts | hparameters)
      · rw [hdrifts] at hmoved
        exact absurd hmoved.1 Bool.false_ne_true
      · exact absurd hparameters.symm hmoved.2
    · have hvalue : seen = 0 := by
        simp only [seen, if_neg hmoved]
        exact hnone
      refine ⟨hvalue.ge, fun _ => hvalue, ?_⟩
      intro hdrifts hparameters
      rw [hdrifts, Bool.true_and, decide_eq_true_eq, not_not] at hmoved
      exact absurd hmoved.symm hparameters
  have hpos : (1 : K) ≤ rows.length :=
    Nat.one_le_cast.mpr (length_pos_iff.mpr hne)
  obtain ⟨hone, hle⟩ := lossDenominator_drift hnormalization hweights
    (by simpa using hne) (by simpa using hcount)
  have hleSize : lossDenominator (rows.map (setting.surrogateRow parameters))
      lossWeights normalization ≤ size :=
    hle.trans (Nat.cast_le.mpr hsize)
  rw [sum_map_of_const hterms, length_map] at hkl
  generalize lossDenominator (rows.map (setting.surrogateRow parameters))
    lossWeights normalization = denominator at hone hleSize hkl
  have hpositive : 0 < denominator := one_pos.trans_le hone
  refine ⟨result.approxKl, ?_, ?_, ?_, ?_⟩
  · unfold FpoSetting.policyKl
    rw [hresult]
    rfl
  · rw [hkl]
    exact div_nonneg (mul_nonneg (Nat.cast_nonneg _) hseen.1) hpositive.le
  · intro hnone
    rw [hkl, hseen.2.1 hnone, mul_zero, zero_div]
  · intro hdrifts hparameters
    rw [hkl, hseen.2.2 hdrifts hparameters]
    apply div_le_div₀ _ _ hpositive hleSize
    · exact mul_nonneg (Nat.cast_nonneg _) hdrift.kl_nonneg
    · exact le_mul_of_one_le_left hdrift.kl_nonneg hpos

theorem KlsSeen.record {bound : ℕ} {quiet loud clear : Prop} {share : K}
    {kls : List K} {pending value : K}
    (hkls : KlsSeen bound quiet loud share (kls ++ [pending]))
    (hnonneg : 0 ≤ value) (hquiet : quiet → value = 0)
    (hclear : clear → share ≤ value) (critic : Bool)
    (hcritic : critic = true → pending = 0) :
    KlsSeen (bound + 1) quiet clear share (if critic
      then kls ++ [value] ++ [pending] else kls ++ [pending + value]) := by
  have hsum : 0 ≤ (kls ++ [pending]).sum := sum_nonneg hkls.nonneg
  have hlength := hkls.length
  rw [sum_append, sum_singleton] at hsum
  rw [length_append, length_singleton] at hlength
  have hpending : pending ∈ kls ++ [pending] := mem_append_right _
    mem_cons_self
  have hkept : ∀ {kl}, kl ∈ kls → kl ∈ kls ++ [pending] :=
    fun hkl => mem_append_left _ hkl
  cases critic with
  | true =>
    have hzero := hcritic rfl
    simp only [if_true]
    constructor
    · simpa using hlength
    · intro kl hkl
      simp only [append_assoc, mem_append, mem_cons,
        not_mem_nil, or_false] at hkl
      rcases hkl with hkl | rfl | rfl
      · exact hkls.nonneg kl (hkept hkl)
      · exact hnonneg
      · exact hkls.nonneg kl hpending
    · intro hcalm kl hkl
      simp only [append_assoc, mem_append, mem_cons,
        not_mem_nil, or_false] at hkl
      rcases hkl with hkl | rfl | rfl
      · exact hkls.quiet hcalm kl (hkept hkl)
      · exact hquiet hcalm
      · exact hzero
    · intro hloud
      have hshare := hclear hloud
      simp only [sum_append, sum_singleton]
      linarith
  | false =>
    simp only [Bool.false_eq_true, if_false]
    constructor
    · rw [length_append, length_singleton]
      omega
    · intro kl hkl
      rcases mem_append.mp hkl with hkl | hkl
      · exact hkls.nonneg kl (hkept hkl)
      · rw [mem_singleton.mp hkl]
        exact add_nonneg (hkls.nonneg pending hpending) hnonneg
    · intro hcalm kl hkl
      rcases mem_append.mp hkl with hkl | hkl
      · exact hkls.quiet hcalm kl (hkept hkl)
      · rw [mem_singleton.mp hkl, hquiet hcalm,
          hkls.quiet hcalm pending hpending, add_zero]
    · intro hloud
      have hshare := hclear hloud
      rw [sum_append, sum_singleton]
      linarith

/-! ## The ranks in step -/

/-- All ranks have stepped the actor equally often, none has skipped a step,
and the identity gate is behind them or passes on the first parameters. -/
def InStep (parameters : ℕ) (checked : Prop)
    (states : Fin world → FpoState ℕ Unit Unit Unit) : Prop :=
  ∃ shared, (∀ rank, states rank = shared) ∧
    shared.actor.parameters = parameters ∧
    shared.klEarlyStopTriggered = false ∧
    (shared.identityGateChecked = true ∨
      ¬checked ∧ parameters = 0 ∧ shared.identityGateHasPassed = false)

structure MicroDrift (setting : FpoSetting K ℕ Unit Unit Unit Unit Bool)
    (kl : K) (size parameters bound : ℕ) (checked : Prop) (count : ℕ)
    (states : Fin world → MicroState K ℕ Unit Unit Unit Unit) : Prop where
  inStep : InStep parameters checked fun rank => (states rank).toFpoState
  kls : ∀ rank, KlsSeen (bound + count + 1) (rank.val ≠ 0 ∨ parameters = 0)
    (rank.val = 0 ∧ parameters ≠ 0 ∧ 0 < count) (kl / size)
    ((states rank).epochKls ++ [(states rank).hierarchicalApproxKl])
  critic : setting.config.criticEnabled = true →
    ∀ rank, (states rank).hierarchicalApproxKl = 0

/-- The ranks between minibatches.  What they have seen in the epoch depends on
the steps that the last minibatch follows. -/
structure RankDrift (kl : K) (size actor : ℕ) (checked : Prop)
    (shown count : ℕ)
    (states : Fin world → RankState K ℕ Unit Unit Unit) : Prop where
  inStep : InStep actor checked fun rank => (states rank).toFpoState
  kls : ∀ rank, KlsSeen (count * (size + 1)) (rank.val ≠ 0 ∨ shown ≤ 1)
    (rank.val = 0 ∧ 2 ≤ shown ∧ 0 < count) (kl / size)
    (states rank).epochKls

/-- No rank fails here. -/
abbrev Sure {α : Type} (setting : FpoSetting K ℕ Unit Unit Unit Unit Bool)
    (post : (Fin world → α) → Prop)
    (programs : Fin world → FpoProgram K Unit α) : Prop :=
  Together setting.reduce (fun _ => False) post programs

theorem maxAbsLogRatio_zero (variant : PolicyVariant) : variant.maxAbsLogRatio
      (variant.constLogRatio 0 : variant.LogRatio K samples) = 0 := by
  have hsamples : (ofFn fun _ : Fin samples => (0 : K)).foldl
      (fun bound value => max bound |value|) 0 = 0 := by
    apply foldl_max_zero
    intro value hvalue
    obtain ⟨_, rfl⟩ := mem_ofFn.mp hvalue
    exact abs_zero
  cases variant with
  | vanilla => exact abs_zero
  | fpoPlusPlus mode | flowGrpo => exact hsamples

theorem Drifting.identityDifferences (hdrift : setting.Drifting drift kl)
    {rows : List (FpoChunk K Bool)} (hrows : ∀ row ∈ rows, IsDrift drifts row) :
    setting.identityDifferences 0 rows = (0, 0, (rows.length : K)) := by
  have hvalid : rows.filter (fun row => row.valid) = rows :=
    filter_eq_self.mpr fun row hrow => (hrows row hrow).1
  have hratio : ∀ row ∈ rows, setting.config.policy.variant.maxAbsLogRatio
        (setting.surrogateRow 0 row).logRatio = 0 := by
    intro row _
    unfold surrogateRow
    rw [hdrift.logRatio, hdrift.old, if_neg (by simp)]
    exact maxAbsLogRatio_zero _
  have hscore : ∀ row ∈ rows,
      setting.engine.scoreDelta setting.oldParameters 0 row.contents = 0 :=
    fun row _ => hdrift.scoreDelta _ _ _
  unfold FpoSetting.identityDifferences
  simp only [hvalid, foldl_max_zero hratio, foldl_max_zero hscore]

theorem identityGate_drift (hdrift : setting.Drifting drift kl)
    (hworld : 0 < world) {parameters bound count : ℕ} {checked : Prop}
    (hstates : setting.MicroDrift kl size parameters bound checked count
      states) {rows : Fin world → List (FpoChunk K Bool)}
    (hne : ∀ rank, rows rank ≠ [])
    (hrows : ∀ rank, ∀ row ∈ rows rank, IsDrift (rank.val = 0) row) :
    setting.Sure (setting.MicroDrift kl size parameters bound True count)
      fun rank => setting.identityGate (rows rank) (states rank) := by
  obtain ⟨shared, hshared, hparameters, htriggered, hgate⟩ := hstates.inStep
  unfold identityGate
  simp only [hshared]
  by_cases hchecked : shared.identityGateChecked = true
  · simp only [hchecked, Bool.not_true, Bool.false_and, Bool.false_eq_true,
      if_false]
    apply Together.done
    exact ⟨⟨shared, hshared, hparameters, htriggered, .inl hchecked⟩,
      hstates.kls, hstates.critic⟩
  · obtain ⟨_, hzero, hpassed⟩ := hgate.resolve_left hchecked
    have hrequired : (!shared.identityGateChecked &&
        setting.identityGateRequired shared) = true := by
      rw [identityGateRequired, hpassed]
      simp [hchecked]
    subst hzero
    simp only [if_pos hrequired, hparameters]
    apply Together.collective_bind
    have hcount : 0 < ∑ rank, ((rows rank).length : K) := by
      have : Nonempty (Fin world) := ⟨⟨0, hworld⟩⟩
      apply Finset.sum_pos
      · exact fun rank _ =>
          Nat.cast_pos.mpr (length_pos_iff.mpr (hne rank))
      · exact Finset.univ_nonempty
    have hnone : (ofFn fun _ : Fin world => (0 : K)).foldl max 0 = 0 := by
      apply foldl_max_zero (f := fun value => value)
      intro value hvalue
      obtain ⟨_, rfl⟩ := mem_ofFn.mp hvalue
      rfl
    have hdifferences : setting.reduce FpoCollective.identityGate
        (fun rank => setting.identityDifferences 0 (rows rank)) =
        (0, 0, ∑ rank, ((rows rank).length : K)) := by
      have hrank := fun rank => hdrift.identityDifferences (hrows rank)
      simp only [hrank, reduce, hnone]
    have hatol : (0 : K) ≤ identityAtol := by
      unfold identityAtol
      positivity
    rw [hdifferences]
    simp only [if_pos hcount]
    apply Together.check_bind
    · intro _
      apply Together.done
      refine ⟨⟨{ shared with
        identityGateChecked := true, identityGateHasPassed := true }, ?_,
        hparameters, htriggered, .inl rfl⟩, hstates.kls, hstates.critic⟩
      intro rank
      rw [← hshared rank]
    · exact fun hfails => hfails ⟨hatol, hatol⟩

theorem recordKl_drift {parameters bound count : ℕ} {checked : Prop}
    (hstates : setting.MicroDrift kl size parameters bound checked count
      states) {values : Fin world → K} (hnonneg : ∀ rank, 0 ≤ values rank)
    (hquiet : ∀ rank, rank.val ≠ 0 ∨ parameters = 0 → values rank = 0)
    (hloud : ∀ rank, rank.val = 0 → parameters ≠ 0 → kl / size ≤ values rank) :
    setting.MicroDrift kl size parameters bound checked (count + 1)
      fun rank => setting.recordKl (values rank) (states rank) := by
  have hflags : ∀ rank, (setting.recordKl (values rank)
      (states rank)).toFpoState = (states rank).toFpoState := by
    intro rank
    unfold recordKl
    split_ifs <;> rfl
  constructor
  · simp only [hflags]
    exact hstates.inStep
  · intro rank
    have hrecord := (hstates.kls rank).record (hnonneg rank) (hquiet rank)
      (fun h : rank.val = 0 ∧ parameters ≠ 0 ∧ 0 < count + 1 =>
        hloud rank h.1 h.2.1)
      setting.config.criticEnabled fun hcritic => hstates.critic hcritic rank
    unfold recordKl
    split_ifs with hcritic
    · rw [if_pos hcritic] at hrecord
      exact hrecord
    · rw [if_neg hcritic] at hrecord
      exact hrecord
  · intro hcritic rank
    unfold recordKl
    rw [if_pos hcritic]
    exact hstates.critic hcritic rank

section

variable (hdrift : setting.Drifting drift kl) (hworld : 0 < world)
  {rowCount : ℕ}
  (hnormalization : setting.DriftNormalization rowCount normalization)

include hdrift hworld hnormalization

theorem microBatchStep_drift
    (hsize : rowCount ≤ size) {parameters bound count : ℕ}
    (hstates : setting.MicroDrift kl size parameters bound (0 < count) count
      states) {rows : Fin world → List (FpoChunk K Bool)}
    (hrows : ∀ rank, rows rank ≠ [] ∧ (rows rank).length ≤ rowCount ∧
      ∀ row ∈ rows rank, IsDrift (rank.val = 0) row) (last : Bool) :
    setting.Sure (setting.MicroDrift kl size parameters bound
      (0 < count + 1) (count + 1)) fun rank =>
        setting.microBatchStep normalization last (states rank)
          (rows rank) := by
  apply Together.collective_bind
  simp only [hdrift.policy, Bool.false_eq_true, if_false]
  apply (identityGate_drift hdrift hworld hstates (fun rank => (hrows rank).1)
    fun rank => (hrows rank).2.2).bind
  intro gated hgated
  have hparameters : ∀ rank, (gated rank).actor.parameters = parameters := by
    obtain ⟨shared, hshared, hsame, _⟩ := hgated.inStep
    intro rank
    rw [← hsame]
    exact congrArg (fun state : FpoState ℕ Unit Unit Unit =>
      state.actor.parameters) (hshared rank)
  have hkl := fun rank => hdrift.policyKl hnormalization parameters
    (hrows rank).2.2 (hrows rank).1 (hrows rank).2.1 hsize
  choose values hvalues hnonneg hquiet hloud using hkl
  have hrecorded := recordKl_drift hgated hnonneg
    (by
      intro rank hcalm
      apply hquiet
      simpa using hcalm)
    (by
      intro rank hfirst
      apply hloud
      simpa using hfirst)
  have hchecked : True ↔ 0 < count + 1 := by simp
  rw [hchecked] at hrecorded
  simp only [hparameters, hvalues]
  cases last with
  | true => exact .collect (.done hrecorded)
  | false => exact .done hrecorded

theorem microBatches_drift (hpositive : 0 < rowCount) (hsize : rowCount ≤ size)
    {parameters bound : ℕ}
    (hstates : setting.MicroDrift kl size parameters bound (0 < 0) 0 states)
    {rows : Fin world → List (FpoChunk K Bool)}
    (hrows : DriftRows rowCount rows) :
    setting.Sure (fun values => ∃ count, 0 < count ∧ count ≤ size ∧
        setting.MicroDrift kl size parameters bound True count values)
      fun rank => forEach (setting.microBatchStep normalization)
        (splitRows setting.config.microBatchSize (rows rank))
        (states rank) := by
  let microBatch (start : ℕ) (rank : Fin world) : List (FpoChunk K Bool) :=
    sliceRows (start, start + setting.config.microBatchSize) (rows rank)
  let starts := chunkStarts rowCount setting.config.microBatchSize
  have hsplit : ∀ rank, splitRows setting.config.microBatchSize (rows rank) =
      (starts.map microBatch).map (· rank) := by
    intro rank
    rw [splitRows, hrows.length, map_map]
    rfl
  have hmicro : ∀ batch ∈ starts.map microBatch, ∀ rank, batch rank ≠ [] ∧
      (batch rank).length ≤ rowCount ∧
      ∀ row ∈ batch rank, IsDrift (rank.val = 0) row := by
    intro batch hbatch rank
    obtain ⟨start, hstart, rfl⟩ := mem_map.mp hbatch
    have hlt := chunkStarts_lt hdrift.micro hstart
    have hlength : (microBatch start rank).length =
        min setting.config.microBatchSize (rowCount - start) := by
      simp only [microBatch, sliceRows, length_take, length_drop,
        hrows.length, Nat.add_sub_cancel_left]
    have hmicroSize := hdrift.micro
    refine ⟨ne_nil_of_length_pos (by omega), by omega, ?_⟩
    intro row hrow
    exact hrows.drift rank row (mem_of_mem_drop (mem_of_mem_take hrow))
  have hcount : (starts.map microBatch).length = starts.length := length_map _
  simp only [hsplit]
  have hloop : setting.Sure (fun values =>
      setting.MicroDrift kl size parameters bound
        (0 < 0 + (starts.map microBatch).length)
        (0 + (starts.map microBatch).length) values) fun rank =>
      forEach (setting.microBatchStep normalization)
        ((starts.map microBatch).map (· rank)) (states rank) := by
    apply Together.forEach_count
      (fun count => setting.MicroDrift kl size parameters bound (0 < count)
        count)
      (fun batch : Fin world → List (FpoChunk K Bool) => ∀ rank,
        batch rank ≠ [] ∧ (batch rank).length ≤ rowCount ∧
          ∀ row ∈ batch rank, IsDrift (rank.val = 0) row)
    · intro count last states batch hstates hbatch
      exact microBatchStep_drift hdrift hworld hnormalization hsize hstates
        hbatch last
    · exact hmicro
    · exact hstates
  apply hloop.mono
  intro values hvalues
  have hstarts : 0 < starts.length :=
    length_chunkStarts_pos hdrift.micro hpositive
  rw [Nat.zero_add, hcount, eq_true hstarts] at hvalues
  exact ⟨starts.length, hstarts,
    (length_chunkStarts_le hdrift.micro).trans hsize, hvalues⟩

end

end Ordered

/-! ## Minibatches that drift -/

theorem normalizeRows_drift (hdrift : setting.Drifting drift kl)
    {rowCount : ℕ} {rows : Fin world → List (FpoChunk K Bool)}
    (hrows : DriftRows rowCount rows) :
    setting.Sure (DriftRows rowCount) fun rank =>
      setting.normalizeRows (rows rank) := by
  unfold normalizeRows
  by_cases hnormalize : setting.config.normalizeAdvantages = true
  · simp only [if_pos hnormalize, if_pos (hdrift.normalized hnormalize)]
    apply Together.collective_bind
    apply Together.done
    constructor
    · intro rank
      rw [length_map, hrows.length]
    · intro rank row hrow
      obtain ⟨chunk, hchunk, rfl⟩ := mem_map.mp hrow
      exact hrows.drift rank chunk hchunk
  · simp only [if_neg hnormalize]
    exact .done hrows

theorem reduceKl_drift {parameters count batches : ℕ}
    (hbatches : 0 < batches) (hsize : batches ≤ size)
    {states : Fin world → MicroState K ℕ Unit Unit Unit Unit}
    (hstates : setting.MicroDrift kl size parameters (count * (size + 1)) True
      batches states) :
    setting.Sure (fun values : Fin world →
        K × MicroState K ℕ Unit Unit Unit Unit =>
      RankDrift kl size parameters True (parameters + 1) (count + 1)
        fun rank => (values rank).2.toRankState) fun rank =>
      setting.reduceKl (states rank) := by
  have hbound : count * (size + 1) + batches + 1 ≤
      (count + 1) * (size + 1) := by
    rw [Nat.succ_mul]
    omega
  have hkls : ∀ rank : Fin world, KlsSeen ((count + 1) * (size + 1))
      (rank.val ≠ 0 ∨ parameters + 1 ≤ 1)
      (rank.val = 0 ∧ 2 ≤ parameters + 1 ∧ 0 < count + 1) (kl / size)
      ((states rank).epochKls ++ [(states rank).hierarchicalApproxKl]) := by
    intro rank
    apply (hstates.kls rank).mono hbound
    · rintro (hother | hfirst)
      · exact .inl hother
      · exact .inr (by omega)
    · rintro ⟨hfirst, hmoved, _⟩
      exact ⟨hfirst, by omega, hbatches⟩
  unfold reduceKl
  by_cases hcritic : setting.config.criticEnabled = true
  · simp only [if_pos hcritic]
    apply Together.done
    refine ⟨hstates.inStep, ?_⟩
    intro rank
    have hrank := hkls rank
    rw [hstates.critic hcritic rank] at hrank
    exact hrank.of_snoc_zero
  · simp only [if_neg hcritic]
    apply Together.collective_bind
    exact .done ⟨hstates.inStep, hkls⟩

theorem stepActor_drift (hdrift : setting.Drifting drift kl) (epoch : ℕ)
    {parameters shown count : ℕ}
    {states : Fin world → RankState K ℕ Unit Unit Unit}
    (hstates : RankDrift kl size parameters True shown count states) :
    setting.Sure (RankDrift kl size (parameters + 1) False shown count)
      fun rank => setting.stepActor epoch false () (states rank) := by
  obtain ⟨shared, hshared, hparameters, htriggered, hgate⟩ := hstates.inStep
  have hchecked := hgate.resolve_right fun hopen => hopen.1 trivial
  unfold stepActor
  simp only [Bool.false_eq_true, if_false, hdrift.policy, hshared]
  apply Together.collective_bind
  apply Together.done
  refine ⟨⟨_, fun _ => rfl, ?_, htriggered, .inl hchecked⟩, hstates.kls⟩
  change (setting.actorAfter () shared.actor).parameters = parameters + 1
  rw [actorAfter, hdrift.optimizerStep, hparameters]

section Minibatches

variable [IsStrictOrderedRing K]

theorem hierarchicalNormalization_drift (hworld : 0 < setting.worldSize)
    {rowCount : ℕ} (hpositive : 0 < rowCount)
    {rows : Fin setting.worldSize → List (FpoChunk K Bool)}
    (hrows : DriftRows rowCount rows) :
    setting.Sure (fun values => ∃ normalization,
        setting.DriftNormalization rowCount normalization ∧
        ∀ rank, values rank = normalization) fun rank =>
      setting.hierarchicalNormalization (rows rank) := by
  unfold hierarchicalNormalization DriftNormalization
  by_cases hcritic : setting.config.criticEnabled = true
  · simp only [if_pos hcritic]
    exact .done ⟨none, rfl, fun _ => rfl⟩
  · simp only [if_neg hcritic]
    apply Together.collective_bind
    have hweights : ∀ rank,
        ((rows rank).map fun row => row.weight).sum = (rowCount : K) := by
      intro rank
      rw [sum_map_of_const fun row hrow => (hrows.drift rank row hrow).2.1,
        hrows.length, mul_one]
    have hne : (setting.worldSize : K) ≠ 0 := Nat.cast_ne_zero.mpr hworld.ne'
    have htotal : setting.reduce FpoCollective.lossDenominator
        (fun rank => ((rows rank).map fun row => row.weight).sum) /
          (setting.worldSize : K) = (rowCount : K) := by
      simp only [hweights, reduce]
      rw [Finset.sum_const, Finset.card_univ, Fintype.card_fin, nsmul_eq_mul,
        mul_div_cancel_left₀ _ hne]
    rw [htotal]
    apply Together.check_bind
    · exact fun _ => .done ⟨some (rowCount : K), rfl, fun _ => rfl⟩
    · exact fun hfails => hfails (Nat.cast_pos.mpr hpositive)

theorem minibatchStep_drift (hdrift : setting.Drifting drift kl)
    (hworld : 0 < setting.worldSize) (epoch : ℕ) {rowCount : ℕ}
    (hpositive : 0 < rowCount) (hsize : rowCount ≤ size)
    {parameters count : ℕ}
    {states : Fin setting.worldSize → RankState K ℕ Unit Unit Unit}
    (hstates : RankDrift kl size parameters False parameters count states)
    {rows : Fin setting.worldSize → List (FpoChunk K Bool)}
    (hrows : DriftRows rowCount rows) :
    setting.Sure (RankDrift kl size (parameters + 1) False (parameters + 1)
      (count + 1)) fun rank =>
        setting.minibatchStep epoch (states rank) (rows rank) := by
  apply (normalizeRows_drift hdrift hrows).bind
  intro normalized hnormalized
  apply (hierarchicalNormalization_drift hworld hpositive hnormalized).bind
  rintro normalizations ⟨normalization, hnormalization, hsame⟩
  simp only [hsame]
  have hbegin : setting.MicroDrift kl size parameters (count * (size + 1))
      (0 < 0) 0 fun rank => ({ states rank with
        gradient := setting.engine.noGradient
        hierarchicalApproxKl := 0 } : MicroState K ℕ Unit Unit Unit Unit) := by
    constructor
    · simp only [lt_irrefl]
      exact hstates.inStep
    · intro rank
      apply (hstates.kls rank).snoc_zero.mono (le_refl _)
      · rintro (hother | hfirst)
        · exact .inl hother
        · exact .inr (by omega)
      · exact fun hloud => absurd hloud.2.2 (lt_irrefl 0)
    · exact fun _ _ => rfl
  apply (microBatches_drift hdrift hworld hnormalization hpositive hsize
    hbegin hnormalized).bind
  rintro sums ⟨batches, hbatches, hfew, hsums⟩
  obtain ⟨shared, hshared, _, _, hgate⟩ := hsums.inStep
  have hchecked := hgate.resolve_right fun hopen => hopen.1 trivial
  simp only [hshared]
  apply Together.check_bind
  · intro _
    apply (reduceKl_drift hbatches hfew hsums).bind
    intro reduced hreduced
    have hskips : ∀ preStepKl,
        setting.skipsActorStep epoch preStepKl = false := by
      intro preStepKl
      simp [skipsActorStep, hdrift.mode]
    simp only [hskips]
    have hactor := stepActor_drift hdrift epoch hreduced
    unfold stepValue
    by_cases hcritic : setting.config.criticEnabled = true
    · simp only [if_pos hcritic]
      exact .collect hactor
    · simp only [if_neg hcritic]
      exact hactor
  · exact fun hfails => hfails (.inr (.inl hchecked))

end Minibatches

end Steps

end FpoSetting

end VerlVla
