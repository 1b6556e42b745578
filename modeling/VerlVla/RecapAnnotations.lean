import Mathlib.Algebra.BigOperators.Group.List.Basic
import Mathlib.Data.List.GetD
import Mathlib.Data.Prod.Lex
import Mathlib.Data.Rat.Floor
import Mathlib.Tactic.Linarith
import Mathlib.Tactic.Positivity
import Mathlib.Tactic.Ring
import VerlVla.Checks
import VerlVla.KeyedRows

/-!
# Annotations of recorded frames

An advantage looks ahead along the consecutive frames of an episode, a score
may average the advantages of such a run, and of every task the frames with the
highest scores are positive.
-/

namespace VerlVla

open List hiding after count nil
namespace Recap

/-! ## Frames -/

/-- A row of a file; a file may lack the two optional columns. -/
structure RecapRow where
  index : ℤ
  episodeIndex : ℤ
  frameIndex : ℤ
  returnValue : ℚ
  taskIndex : Option ℤ
  isIntervention : Option Bool

structure RecapRecord where
  index : ℤ
  episodeIndex : ℤ
  frameIndex : ℤ
  taskIndex : ℤ
  returnValue : ℚ
  value : ℚ
  isIntervention : Bool
  deriving DecidableEq, Inhabited

inductive RecapError
  | missingValue (index : ℤ)
  | strategy (strategy : String)
  deriving DecidableEq

def recordKey (record : RecapRecord) : ℤ ×ₗ ℤ ×ₗ ℤ :=
  toLex (record.episodeIndex, toLex (record.frameIndex, record.index))

def loadRecord (valueLookup : List (ℤ × ℚ)) (row : RecapRow) :
    Except RecapError RecapRecord :=
  match lastValue valueLookup row.index with
  | some value => .ok ⟨row.index, row.episodeIndex, row.frameIndex,
      row.taskIndex.getD 0, row.returnValue, value,
      row.isIntervention.getD false⟩
  | none => .error (.missingValue row.index)

def loadRecapRecords (files : List (List RecapRow))
    (valueLookup : List (ℤ × ℚ)) : Except RecapError (List RecapRecord) :=
  (files.flatten.mapM (loadRecord valueLookup)).map (sortByKey recordKey)

/-! ## Advantages and scores -/

/-- The rounds of a loop before its break. -/
def passed (check : ℕ → Bool) : ℕ → ℕ
  | 0 => 0
  | rounds + 1 =>
    if passed check rounds = rounds ∧ check rounds then rounds + 1
    else passed check rounds

def recordAt (records : List RecapRecord) (index : ℕ) : RecapRecord :=
  records.getD index default

/-- The frame after some steps continues the run of the first one. -/
def inRun (records : List RecapRecord) (start step : ℕ) : Bool :=
  start + step < records.length ∧
    (recordAt records (start + step)).episodeIndex =
      (recordAt records start).episodeIndex ∧
    (recordAt records (start + step)).frameIndex =
      (recordAt records start).frameIndex + step

def nStepRecordOrEpisodeTail (records : List RecapRecord)
    (startIndex offset : ℕ) : RecapRecord :=
  recordAt records (startIndex +
    passed (fun round => inRun records startIndex (round + 1)) offset)

def nStepAdvantage (nStep : ℕ) (records : List RecapRecord) (i : ℕ) : ℚ :=
  ((range nStep).map fun offset =>
    (nStepRecordOrEpisodeTail records i offset).returnValue -
      (nStepRecordOrEpisodeTail records i (offset + 1)).returnValue).sum +
    (nStepRecordOrEpisodeTail records i nStep).value -
      (recordAt records i).value

def computeNStepAdvantages (nStep : ℕ) (records : List RecapRecord) : List ℚ :=
  (range records.length).map (nStepAdvantage nStep records)

def smoothFutureScore (records : List RecapRecord) (scores : List ℚ)
    (window : ℕ) (decay : ℚ) (i : ℕ) : ℚ :=
  let offsets := range (passed (inRun records i) window)
  let weightedSum :=
    (offsets.map fun offset => decay ^ offset * scores.getD (i + offset) 0).sum
  let weightSum := (offsets.map fun offset => decay ^ offset).sum
  if 0 < weightSum then weightedSum / weightSum else scores.getD i 0

structure RecapConfig where
  nStep : ℕ
  positiveRatio : ℚ
  forceInterventionPositive : Bool
  indicatorStrategy : String
  smoothingWindow : ℕ
  smoothingDecay : ℚ

def computeIndicatorScores (config : RecapConfig)
    (records : List RecapRecord) (advantages : List ℚ) :
    Except RecapError (List ℚ) :=
  if config.indicatorStrategy = "raw_advantage" then .ok advantages
  else if config.indicatorStrategy = "future_smoothed_advantage" then
    .ok ((range records.length).map (smoothFutureScore records
      advantages config.smoothingWindow config.smoothingDecay))
  else .error (.strategy config.indicatorStrategy)

/-! ## Labels -/

/-- What is assumed of `np.argsort`: the order of a list of scores, with ties
in an order that the scores determine. -/
structure Argsort where
  order : List ℚ → List ℕ
  perm : ∀ scores, (order scores).Perm (range scores.length)
  sorted : ∀ scores, (order scores).Pairwise fun first second =>
    scores.getD first 0 ≤ scores.getD second 0

def taskPositions (records : List RecapRecord) (task : ℤ) : List ℕ :=
  (range records.length).filter fun i =>
    (recordAt records i).taskIndex = task

def taskScores (records : List RecapRecord) (scores : List ℚ) (task : ℤ) :
    List ℚ :=
  (taskPositions records task).map fun i => scores.getD i 0

/-- `np.argsort(scores)[-count:]`. -/
def positiveOrder (argsort : Argsort) (scores : List ℚ) (count : ℕ) : List ℕ :=
  (argsort.order scores).drop ((argsort.order scores).length - count)

def labelTask (argsort : Argsort) (positiveRatio : ℚ)
    (records : List RecapRecord) (scores : List ℚ) (indicators : ℕ → ℤ)
    (task : ℤ) : ℕ → ℤ :=
  let positions := taskPositions records task
  let scored := taskScores records scores task
  let positiveCount := ⌈(scored.length : ℚ) * positiveRatio⌉
  if positiveCount ≤ 0 then indicators
  else
    let positive := (positiveOrder argsort scored
      positiveCount.toNat).map fun place => positions.getD place 0
    fun i =>
      if i ∈ positions then if i ∈ positive then 1 else 0
      else indicators i

def binarizeIndicatorScores (argsort : Argsort) (config : RecapConfig)
    (records : List RecapRecord) (scores : List ℚ) : ℕ → ℤ :=
  let tasks := sortByKey (fun task : ℤ => task)
    (records.map RecapRecord.taskIndex).dedup
  let indicators := tasks.foldl
    (labelTask argsort config.positiveRatio records scores) fun _ => 0
  fun i =>
    if config.forceInterventionPositive ∧
      (recordAt records i).isIntervention then 1 else indicators i

structure Annotation where
  value : ℚ
  advantage : ℚ
  indicatorScore : ℚ
  indicator : ℤ
  deriving DecidableEq, Inhabited

def computeRecapAnnotations (argsort : Argsort) (config : RecapConfig)
    (files : List (List RecapRow)) (valueLookup : List (ℤ × ℚ)) :
    Except RecapError (List (ℤ × Annotation)) := do
  let records ← loadRecapRecords files valueLookup
  let advantages := computeNStepAdvantages config.nStep records
  let scores ← computeIndicatorScores config records advantages
  let indicators := binarizeIndicatorScores argsort config records scores
  .ok ((range records.length).map fun i =>
    ((recordAt records i).index, ⟨(recordAt records i).value,
      advantages.getD i 0, scores.getD i 0, indicators i⟩))

/-! ## Loops that break -/

section Loops

variable {check other : ℕ → Bool} {rounds : ℕ}

theorem passed_le : passed check rounds ≤ rounds := by
  induction rounds with
  | zero => exact le_rfl
  | succ rounds ih =>
    unfold passed
    split_ifs <;> omega

variable (check) in
theorem check_of_lt_passed {round : ℕ}
    (hround : round < passed check rounds) : check round = true := by
  induction rounds with
  | zero => cases hround
  | succ rounds ih =>
    unfold passed at hround
    split_ifs at hround with hnext
    · by_cases hlast : round = rounds
      · rw [hlast]
        exact hnext.2
      · apply ih
        omega
    · exact ih hround

theorem check_passed (hstop : passed check rounds < rounds) :
    check (passed check rounds) = false := by
  induction rounds with
  | zero => cases hstop
  | succ rounds ih =>
    unfold passed at hstop ⊢
    split_ifs at hstop ⊢ with hnext
    · omega
    · by_cases hall : passed check rounds = rounds
      · rw [hall]
        simpa [hall] using hnext
      · have hle : passed check rounds ≤ rounds := passed_le
        exact ih (by omega)

theorem passed_congr (hsame : ∀ round < rounds, check round = other round) :
    passed check rounds = passed other rounds := by
  induction rounds with
  | zero => rfl
  | succ rounds ih =>
    have hprior := ih fun round hround => hsame round (by omega)
    unfold passed
    rw [hprior, hsame rounds (by omega)]

end Loops

/-! ## Runs of an episode -/

theorem sum_differences (value : ℕ → ℚ) (count : ℕ) :
    ((range count).map fun i => value i - value (i + 1)).sum =
      value 0 - value count := by
  induction count with
  | zero => simp
  | succ count ih =>
    rw [range_succ, map_append, sum_append, ih]
    simp

/-- A number of steps that the run of a frame has at least. -/
def RunOf (records : List RecapRecord) (start steps : ℕ) : Prop :=
  ∀ step ≤ steps, inRun records start step = true

def lookAhead (records : List RecapRecord) (start limit : ℕ) : ℕ :=
  passed (fun round => inRun records start (round + 1)) limit

section Runs

variable {records before episode after : List RecapRecord}
  {start step limit : ℕ} {id : ℤ}

theorem inRun_zero (hstart : start < records.length) :
    inRun records start 0 = true := by
  simp [inRun, hstart]

theorem inRun_lt (hrun : inRun records start step = true) :
    start + step < records.length := by
  simp only [inRun, decide_eq_true_eq] at hrun
  exact hrun.1

theorem runOf_lookAhead (hstart : start < records.length) :
    RunOf records start (lookAhead records start limit) := by
  intro step hstep
  cases step with
  | zero => exact inRun_zero hstart
  | succ step =>
    exact check_of_lt_passed
      (fun round => inRun records start (round + 1)) hstep

theorem not_runOf_lookAhead (hstop : lookAhead records start limit < limit) :
    ¬RunOf records start (lookAhead records start limit + 1) := by
  intro hrun
  have hnext := hrun _ le_rfl
  have hend := check_passed hstop
  change inRun records start (lookAhead records start limit + 1) =
    false at hend
  simp [hnext] at hend

theorem nStepAdvantage_eq (nStep : ℕ) : nStepAdvantage nStep records start =
      (recordAt records start).returnValue - (recordAt records
          (start + lookAhead records start nStep)).returnValue +
        (recordAt records (start + lookAhead records start nStep)).value -
          (recordAt records start).value := by
  unfold nStepAdvantage
  rw [sum_differences fun offset =>
    (nStepRecordOrEpisodeTail records start offset).returnValue]
  rfl

theorem recordAt_local (hstep : step < episode.length) :
    recordAt (before ++ (episode ++ after)) (before.length + step) =
      recordAt episode step := by
  unfold recordAt
  rw [getD_append_right _ _ _ _ (by omega), Nat.add_sub_cancel_left,
    getD_append _ _ _ _ hstep]

section

variable (hepisode : ∀ record ∈ episode, record.episodeIndex = id)
  (hafter : ∀ record ∈ after, record.episodeIndex ≠ id)

include hepisode hafter

/-- A run does not leave the frames of its episode. -/
theorem inRun_local (hstart : start < episode.length) :
    inRun (before ++ (episode ++ after)) (before.length + start) step =
      inRun episode start step := by
  unfold inRun
  rw [recordAt_local hstart, Nat.add_assoc]
  by_cases hinside : start + step < episode.length
  · rw [recordAt_local hinside]
    have hlength : before.length + (start + step) <
        (before ++ (episode ++ after)).length := by
      simp only [length_append]
      omega
    simp only [hlength, hinside, true_and]
  · have hfirst := hepisode _ (getElem_mem hstart)
    simp only [hinside, false_and, decide_false, decide_eq_false_iff_not]
    rintro ⟨hlength, hsame, _⟩
    have hlater : start + step - episode.length < after.length := by
      simp only [length_append] at hlength
      omega
    unfold recordAt at hsame
    rw [getD_append_right _ _ _ _ (by omega), Nat.add_sub_cancel_left,
      getD_append_right _ _ _ _ (by omega),
      getD_eq_getElem _ _ hlater, getD_eq_getElem _ _ hstart,
      hfirst] at hsame
    exact hafter _ (getElem_mem hlater) hsame

theorem lookAhead_local (hstart : start < episode.length) :
    lookAhead (before ++ (episode ++ after)) (before.length + start) limit =
      lookAhead episode start limit :=
  passed_congr fun _ _ => inRun_local hepisode hafter hstart

theorem nStepAdvantage_local (nStep : ℕ) (hstart : start < episode.length) :
    nStepAdvantage nStep (before ++ (episode ++ after))
        (before.length + start) = nStepAdvantage nStep episode start := by
  have hrun : RunOf episode start (lookAhead episode start nStep) :=
    runOf_lookAhead hstart
  have htail := inRun_lt (hrun _ le_rfl)
  rw [nStepAdvantage_eq, nStepAdvantage_eq,
    lookAhead_local hepisode hafter hstart, Nat.add_assoc,
    recordAt_local hstart, recordAt_local htail]

end

theorem getD_computeNStepAdvantages (nStep : ℕ)
    (hstart : start < records.length) :
    (computeNStepAdvantages nStep records).getD start 0 =
      nStepAdvantage nStep records start := by
  unfold computeNStepAdvantages
  rw [getD_eq_getElem _ _ (by simpa using hstart), getElem_map, getElem_range]

def scoreOf (config : RecapConfig) (records : List RecapRecord) (i : ℕ) : ℚ :=
  if config.indicatorStrategy = "raw_advantage" then
    nStepAdvantage config.nStep records i
  else smoothFutureScore records
    (computeNStepAdvantages config.nStep records) config.smoothingWindow
    config.smoothingDecay i

section

variable (hepisode : ∀ record ∈ episode, record.episodeIndex = id)
  (hafter : ∀ record ∈ after, record.episodeIndex ≠ id)

include hepisode hafter

theorem smoothFutureScore_local
    (nStep window : ℕ) (decay : ℚ) (hstart : start < episode.length) :
    smoothFutureScore (before ++ (episode ++ after))
        (computeNStepAdvantages nStep (before ++ (episode ++ after)))
        window decay (before.length + start) =
      smoothFutureScore episode (computeNStepAdvantages nStep episode)
        window decay start := by
  have hrounds : passed (inRun (before ++ (episode ++ after))
      (before.length + start)) window = passed (inRun episode start) window :=
    passed_congr fun _ _ => inRun_local hepisode hafter hstart
  have hscore : ∀ offset, start + offset < episode.length →
      (computeNStepAdvantages nStep (before ++ (episode ++ after))).getD
          (before.length + start + offset) 0 =
        (computeNStepAdvantages nStep episode).getD (start + offset) 0 := by
    intro offset hoffset
    rw [getD_computeNStepAdvantages _ hoffset,
      getD_computeNStepAdvantages _ (by
        simp only [length_append]
        omega), Nat.add_assoc,
      nStepAdvantage_local hepisode hafter nStep hoffset]
  have hsum : ((range (passed (inRun episode start) window)).map
      fun offset => decay ^ offset *
        (computeNStepAdvantages nStep (before ++ (episode ++ after))).getD
          (before.length + start + offset) 0) =
      (range (passed (inRun episode start) window)).map fun offset =>
        decay ^ offset *
          (computeNStepAdvantages nStep episode).getD (start + offset) 0 := by
    apply map_congr_left
    intro offset hoffset
    rw [hscore offset
      (inRun_lt (check_of_lt_passed _ (mem_range.mp hoffset)))]
  have hself := hscore 0 hstart
  unfold smoothFutureScore
  simp only [hrounds, hsum]
  rw [← Nat.add_zero (before.length + start), hself, Nat.add_zero]

theorem scoreOf_local
    (config : RecapConfig) (hstart : start < episode.length) :
    scoreOf config (before ++ (episode ++ after)) (before.length + start) =
      scoreOf config episode start := by
  unfold scoreOf
  rw [nStepAdvantage_local hepisode hafter _ hstart,
    smoothFutureScore_local hepisode hafter _ _ _ hstart]

end

/-- The smoothed score is the weighted mean over the rounds of its loop. -/
theorem smoothFutureScore_mul (scores : List ℚ)
    (hstart : start < records.length) (hwindow : 0 < window)
    (hdecay : 0 < decay) :
    0 < passed (inRun records start) window ∧
      smoothFutureScore records scores window decay start *
          ((range (passed (inRun records start) window)).map
            fun offset => decay ^ offset).sum =
        ((range (passed (inRun records start) window)).map fun offset =>
            decay ^ offset * scores.getD (start + offset) 0).sum := by
  have hrounds : 0 < passed (inRun records start) window := by
    by_contra hnone
    have hzero : passed (inRun records start) window = 0 := by omega
    have hend := check_passed (hzero ▸ hwindow :
      passed (inRun records start) window < window)
    rw [hzero, inRun_zero hstart] at hend
    cases hend
  have hweights : 0 < ((range (passed (inRun records start) window)).map
      fun offset => decay ^ offset).sum := by
    apply sum_pos
    · intro weight hweight
      obtain ⟨offset, _, rfl⟩ := mem_map.mp hweight
      positivity
    · simpa using hrounds.ne'
  refine ⟨hrounds, ?_⟩
  unfold smoothFutureScore
  rw [if_pos hweights, div_mul_cancel₀ _ hweights.ne']

end Runs

/-! ## The labels of a task -/

section Labels

variable {argsort : Argsort} {scores : List ℚ} {count place other : ℕ}

theorem length_order : (argsort.order scores).length = scores.length := by
  rw [(argsort.perm scores).length_eq, length_range]

theorem place_lt (hplace : place ∈ positiveOrder argsort scores count) :
    place < scores.length := by
  have hmember := (argsort.perm scores).mem_iff.mp (mem_of_mem_drop hplace)
  exact mem_range.mp hmember

theorem nodup_positiveOrder : (positiveOrder argsort scores count).Nodup := by
  apply Nodup.sublist (drop_sublist _ _)
  exact (argsort.perm scores).nodup_iff.mpr nodup_range

theorem count_positiveOrder (hcount : count ≤ scores.length) :
    ((range scores.length).filter fun place =>
      place ∈ positiveOrder argsort scores count).length = count := by
  have hperm : ((range scores.length).filter fun place =>
      place ∈ positiveOrder argsort scores count).Perm
        (positiveOrder argsort scores count) := by
    apply (perm_ext_iff_of_nodup (nodup_range.filter _)
      nodup_positiveOrder).mpr
    intro place
    rw [mem_filter, mem_range, decide_eq_true_eq]
    exact ⟨And.right, fun hplace => ⟨place_lt hplace, hplace⟩⟩
  rw [hperm.length_eq, positiveOrder, length_drop, length_order]
  omega

/-- No frame outside the last ones scores higher than one of them. -/
theorem le_positiveOrder (hother : other < scores.length)
    (hnot : other ∉ positiveOrder argsort scores count)
    (hplace : place ∈ positiveOrder argsort scores count) :
    scores.getD other 0 ≤ scores.getD place 0 := by
  have hsorted := argsort.sorted scores
  have hmember : other ∈ argsort.order scores :=
    (argsort.perm scores).mem_iff.mpr (mem_range.mpr hother)
  rw [← take_append_drop
    ((argsort.order scores).length - count) (argsort.order scores)]
    at hsorted hmember
  have hearly := (mem_append.mp hmember).resolve_right hnot
  exact (pairwise_append.mp hsorted).2.2 other hearly place hplace

def taskLabel (argsort : Argsort) (positiveRatio : ℚ) (scores : List ℚ)
    (place : ℕ) : ℤ :=
  if place ∈ positiveOrder argsort scores
    ⌈(scores.length : ℚ) * positiveRatio⌉.toNat then 1 else 0

variable {positiveRatio : ℚ} {records : List RecapRecord} {i : ℕ}

theorem mem_taskPositions : i ∈ taskPositions records task ↔
    i < records.length ∧ (recordAt records i).taskIndex = task := by
  simp [taskPositions]

theorem getD_positions_inj
    (hplace : place < (taskPositions records task).length)
    (hother : other < (taskPositions records task).length)
    (heq : (taskPositions records task).getD place 0 =
      (taskPositions records task).getD other 0) : place = other := by
  rw [getD_eq_getElem _ _ hplace, getD_eq_getElem _ _ hother] at heq
  exact (nodup_range.filter _).getElem_inj_iff.mp heq

/-- A task labels its own frames, by their places, and no others. -/
theorem labelTask_at (indicators : ℕ → ℤ) (task : ℤ) :
    (∀ place < (taskPositions records task).length,
      indicators ((taskPositions records task).getD place 0) = 0 →
      labelTask argsort positiveRatio records scores indicators task
          ((taskPositions records task).getD place 0) =
        taskLabel argsort positiveRatio (taskScores records scores task)
          place) ∧
    ∀ i, i ∉ taskPositions records task →
      labelTask argsort positiveRatio records scores indicators task i =
        indicators i := by
  unfold labelTask taskLabel
  simp only
  by_cases hcount :
      ⌈((taskScores records scores task).length : ℚ) * positiveRatio⌉ ≤ 0
  · have hzero : ⌈((taskScores records scores task).length : ℚ) *
        positiveRatio⌉.toNat = 0 := by omega
    have hnone : positiveOrder argsort (taskScores records scores task) 0 =
        [] := by
      simp [positiveOrder]
    rw [hzero, hnone]
    simp only [hcount, if_true, not_mem_nil, if_false]
    exact ⟨fun _ _ hfree => hfree, fun _ _ => trivial⟩
  · simp only [hcount, if_false]
    constructor
    · intro place hplace _
      have hmember : (taskPositions records task).getD place 0 ∈
          taskPositions records task := by
        rw [getD_eq_getElem _ _ hplace]
        exact getElem_mem hplace
      rw [if_pos hmember]
      congr 1
      rw [mem_map, eq_iff_iff]
      constructor
      · rintro ⟨chosen, hchosen, heq⟩
        have hrange := place_lt hchosen
        rw [taskScores, length_map] at hrange
        rw [← getD_positions_inj hrange hplace heq]
        exact hchosen
      · intro hchosen
        exact ⟨place, hchosen, rfl⟩
    · intro i hi
      rw [if_neg hi]

theorem foldl_labelTask {tasks : List ℤ} (hnodup : tasks.Nodup) :
    (∀ task ∈ tasks, ∀ place < (taskPositions records task).length,
      tasks.foldl (labelTask argsort positiveRatio records scores)
          (fun _ => 0) ((taskPositions records task).getD place 0) =
        taskLabel argsort positiveRatio (taskScores records scores task)
          place) ∧
    ∀ i, (recordAt records i).taskIndex ∉ tasks →
      tasks.foldl (labelTask argsort positiveRatio records scores)
        (fun _ => 0) i = 0 := by
  induction tasks using reverseRecOn with
  | nil =>
    constructor
    · exact nofun
    · intro i _
      rfl
  | append_singleton tasks last ih =>
    obtain ⟨hprior, _, hfresh⟩ := nodup_append.mp hnodup
    obtain ⟨hlabelled, hfree⟩ := ih hprior
    obtain ⟨hown, hothers⟩ := labelTask_at
      (tasks.foldl (labelTask argsort positiveRatio records scores)
        fun _ => 0) last
    rw [foldl_append, foldl_cons, foldl_nil]
    have hposition : ∀ task, ∀ place < (taskPositions records task).length,
        (recordAt records ((taskPositions records task).getD place
          0)).taskIndex = task := by
      intro task place hplace
      rw [getD_eq_getElem _ _ hplace]
      exact (mem_taskPositions.mp (getElem_mem hplace)).2
    constructor
    · intro task htask place hplace
      by_cases hlast : task = last
      · rw [hlast] at hplace ⊢
        apply hown place hplace
        apply hfree
        rw [hposition last place hplace]
        intro hmember
        exact hfresh last hmember last (mem_singleton_self _) rfl
      · have hearlier : task ∈ tasks := by
          rcases mem_append.mp htask with hmember | hmember
          · exact hmember
          · exact absurd (mem_singleton.mp hmember) hlast
        rw [hothers, hlabelled task hearlier place hplace]
        intro hmember
        apply hlast
        rw [← hposition task place hplace]
        exact (mem_taskPositions.mp hmember).2
    · intro i hi
      rw [mem_append, not_or, mem_singleton] at hi
      rw [hothers, hfree i hi.1]
      intro hmember
      exact hi.2 (mem_taskPositions.mp hmember).2

end Labels

/-! ## Annotated collections -/

/-- A collection of files with the values of its frames and the settings that
the workflow accepts. -/
structure AnnotationSetting where
  argsort : Argsort
  config : RecapConfig
  files : List (List RecapRow)
  values : List (ℤ × ℚ)
  distinct : (files.flatten.map RecapRow.index).Nodup
  valued : ∀ row ∈ files.flatten, row.index ∈ values.map Prod.fst
  strategy : config.indicatorStrategy = "raw_advantage" ∨
    config.indicatorStrategy = "future_smoothed_advantage"
  window_pos : 0 < config.smoothingWindow
  decay_pos : 0 < config.smoothingDecay
  ratio_nonneg : 0 ≤ config.positiveRatio
  ratio_le : config.positiveRatio ≤ 1

namespace AnnotationSetting

variable (setting : AnnotationSetting)

/-- The frames with their values. -/
def loaded : List RecapRecord := setting.files.flatten.map fun row =>
    ⟨row.index, row.episodeIndex, row.frameIndex, row.taskIndex.getD 0,
      row.returnValue, (lastValue setting.values row.index).getD 0,
      row.isIntervention.getD false⟩

def records : List RecapRecord := sortByKey recordKey setting.loaded

def scores : List ℚ := (range setting.records.length).map
    (scoreOf setting.config setting.records)

def annotation (record : RecapRecord) : Annotation :=
  ((computeRecapAnnotations setting.argsort setting.config setting.files
    setting.values).toOption.bind
      fun annotations => lastValue annotations record.index).getD default

/-- The same collection, without labels forced by interventions. -/
def unforced : AnnotationSetting := { setting with
    config := { setting.config with forceInterventionPositive := false } }

def episode (id : ℤ) : List RecapRecord := sortByKey recordKey
    (setting.loaded.filter fun record => record.episodeIndex = id)

def taskRecords (task : ℤ) : List RecapRecord :=
  setting.records.filter fun record => record.taskIndex = task

def scoresOfTask (task : ℤ) : List ℚ :=
  (setting.taskRecords task).map fun record =>
    ( setting.annotation record).indicatorScore

variable {setting} {id task : ℤ} {record : RecapRecord} {i place : ℕ}

@[simp] theorem length_scoresOfTask : (setting.scoresOfTask task).length =
    (setting.taskRecords task).length :=
  length_map _

theorem nodup_loaded : (setting.loaded.map RecapRecord.index).Nodup := by
  have hindex : setting.loaded.map RecapRecord.index =
      setting.files.flatten.map RecapRow.index := map_map
  rw [hindex]
  exact setting.distinct

theorem recordKey_injOn :
    Set.InjOn recordKey {record | record ∈ setting.loaded} := by
  intro first hfirst second hsecond heq
  apply inj_on_of_nodup_map nodup_loaded hfirst hsecond
  exact congrArg (fun key => (ofLex (ofLex key).2).2) heq

theorem computeRecapAnnotations_ok :
    computeRecapAnnotations setting.argsort setting.config setting.files
        setting.values =
      .ok ((range setting.records.length).map fun i =>
        ((recordAt setting.records i).index,
          ⟨(recordAt setting.records i).value,
            (computeNStepAdvantages setting.config.nStep
              setting.records).getD i 0,
            setting.scores.getD i 0,
            binarizeIndicatorScores setting.argsort setting.config
              setting.records setting.scores i⟩)) := by
  have hloaded : setting.files.flatten.mapM (loadRecord setting.values) =
      .ok setting.loaded := by
    apply mapM_eq_ok_map
    intro row hrow
    obtain ⟨value, hvalue, _⟩ := exists_lastValue (setting.valued row hrow)
    rw [loadRecord, hvalue]
    rfl
  have hscores : computeIndicatorScores setting.config setting.records
      (computeNStepAdvantages setting.config.nStep setting.records) =
        .ok setting.scores := by
    unfold computeIndicatorScores scores scoreOf
    rcases setting.strategy with hraw | hsmooth
    · simp only [hraw, if_true]
      rfl
    · simp only [hsmooth, String.reduceEq, if_false, if_true]
  unfold computeRecapAnnotations loadRecapRecords
  rw [hloaded]
  change (computeIndicatorScores setting.config setting.records
    (computeNStepAdvantages setting.config.nStep setting.records) >>=
      fun scores => Except.ok _) = _
  rw [hscores]
  rfl

theorem recordAt_mem (hi : i < setting.records.length) :
    recordAt setting.records i ∈ setting.records := by
  unfold recordAt
  rw [getD_eq_getElem _ _ hi]
  exact getElem_mem hi

theorem annotation_recordAt (hi : i < setting.records.length) :
    setting.annotation (recordAt setting.records i) =
      ⟨(recordAt setting.records i).value,
        nStepAdvantage setting.config.nStep setting.records i,
        scoreOf setting.config setting.records i,
        binarizeIndicatorScores setting.argsort setting.config
          setting.records setting.scores i⟩ := by
  have hscore : setting.scores.getD i 0 =
      scoreOf setting.config setting.records i := by
    unfold scores
    rw [getD_eq_getElem _ _ (by simpa using hi), getElem_map, getElem_range]
  have hkeys : ((range setting.records.length).map fun i =>
      (recordAt setting.records i).index).Nodup := by
    have hindices : (setting.records.map RecapRecord.index).Nodup :=
      (sortByKey_perm.map RecapRecord.index).nodup_iff.mpr nodup_loaded
    apply Nodup.map_on _ nodup_range
    intro first hfirst second hsecond heq
    rw [mem_range] at hfirst hsecond
    unfold recordAt at heq
    rw [getD_eq_getElem _ _ hfirst, getD_eq_getElem _ _ hsecond] at heq
    apply (Nodup.getElem_inj_iff hindices).mp
    rw [getElem_map, getElem_map]
    · exact heq
    · simpa using hsecond
    · simpa using hfirst
  have hentry := mem_map_of_mem
    (f := fun i => ((recordAt setting.records i).index,
      (⟨(recordAt setting.records i).value,
        (computeNStepAdvantages setting.config.nStep
          setting.records).getD i 0, setting.scores.getD i 0,
        binarizeIndicatorScores setting.argsort setting.config
          setting.records setting.scores i⟩ : Annotation)))
    (mem_range.mpr hi)
  unfold annotation
  rw [computeRecapAnnotations_ok]
  change (lastValue _ _).getD default = _
  rw [lastValue_of_mem (by rw [map_map]; exact hkeys) hentry,
    Option.getD_some, getD_computeNStepAdvantages _ hi, hscore]

/-! ## Episodes and tasks of a collection -/

theorem episode_eq : setting.episode id =
    setting.records.filter fun record => record.episodeIndex = id :=
  (filter_sortByKey recordKey_injOn _).symm

theorem mem_episode : record ∈ setting.episode id ↔
    record ∈ setting.loaded ∧ record.episodeIndex = id := by
  simp [episode]

variable (setting) in
/-- The frames of an episode are consecutive in the order of all frames. -/
theorem exists_split (id : ℤ) : ∃ before after,
    setting.records = before ++ (setting.episode id ++ after) ∧
      ∀ record ∈ after, record.episodeIndex ≠ id := by
  have hsorted : setting.records.Pairwise fun first second =>
      first.episodeIndex ≤ second.episodeIndex := by
    apply sortByKey_sorted.imp
    intro first second hle
    rcases Prod.Lex.le_iff.mp hle with hlt | ⟨heq, _⟩
    · exact le_of_lt hlt
    · exact le_of_eq heq
  refine ⟨setting.records.filter fun record => record.episodeIndex < id,
    setting.records.filter fun record => id < record.episodeIndex, ?_, ?_⟩
  · rw [episode_eq]
    exact split_of_sorted hsorted id
  · intro record hrecord
    rw [mem_filter, decide_eq_true_eq] at hrecord
    exact hrecord.2.ne'

theorem annotation_episode (hrecord : (setting.episode id)[i]? = some record) :
    ( setting.annotation record).advantage =
        nStepAdvantage setting.config.nStep (setting.episode id) i ∧
      ( setting.annotation record).indicatorScore =
        scoreOf setting.config (setting.episode id) i := by
  obtain ⟨before, after, hsplit, hafter⟩ := exists_split setting id
  obtain ⟨hi, hentry⟩ := List.getElem?_eq_some_iff.mp hrecord
  have hepisode : ∀ record ∈ setting.episode id,
      record.episodeIndex = id := fun record hrecord =>
    (mem_episode.mp hrecord).2
  have hlength : before.length + i < setting.records.length := by
    rw [hsplit]
    simp only [length_append]
    omega
  have hposition : recordAt setting.records (before.length + i) = record := by
    rw [hsplit, recordAt_local hi, recordAt, getD_eq_getElem _ _ hi]
    exact hentry
  have hannotation := annotation_recordAt hlength
  rw [hposition] at hannotation
  rw [ hannotation, hsplit]
  exact ⟨nStepAdvantage_local hepisode hafter _ hi,
    scoreOf_local hepisode hafter _ hi⟩

theorem taskRecords_eq : setting.taskRecords task =
    (taskPositions setting.records task).map (recordAt setting.records) := by
  have hall : setting.records = (range setting.records.length).map
      (recordAt setting.records) := by
    apply ext_getElem
    · simp
    · intro i hi _
      rw [getElem_map, getElem_range, recordAt, getD_eq_getElem _ _ hi]
  unfold taskRecords taskPositions
  conv_lhs => rw [hall]
  rw [filter_map]
  rfl

theorem taskScores_eq : taskScores setting.records setting.scores task =
      setting.scoresOfTask task := by
  rw [scoresOfTask, taskRecords_eq, map_map]
  apply map_congr_left
  intro i hi
  have hlength := (mem_taskPositions.mp hi).1
  unfold scores
  rw [getD_eq_getElem _ _ (by simpa using hlength), getElem_map,
    getElem_range, Function.comp_apply, annotation_recordAt hlength]

/-- The label of a frame, by its place among the frames of its task. -/
theorem indicator_eq
    (hrecord : (setting.taskRecords task)[place]? = some record) :
    ( setting.annotation record).indicator =
      if setting.config.forceInterventionPositive ∧ record.isIntervention
      then 1
      else taskLabel setting.argsort setting.config.positiveRatio
        (setting.scoresOfTask task) place := by
  rw [taskRecords_eq, getElem?_map, Option.map_eq_some_iff] at hrecord
  obtain ⟨i, hposition, hentry⟩ := hrecord
  obtain ⟨hplace, hi⟩ := List.getElem?_eq_some_iff.mp hposition
  obtain ⟨hlength, htask⟩ := mem_taskPositions.mp (mem_of_getElem? hposition)
  have hmember : task ∈ sortByKey (fun task : ℤ => task)
      (setting.records.map RecapRecord.taskIndex).dedup := by
    rw [mem_sortByKey, mem_dedup, ← htask]
    exact mem_map_of_mem (recordAt_mem hlength)
  have hnodup : (sortByKey (fun task : ℤ => task)
      (setting.records.map RecapRecord.taskIndex).dedup).Nodup :=
    sortByKey_perm.nodup_iff.mpr (nodup_dedup _)
  have hlabel : _ = taskLabel setting.argsort setting.config.positiveRatio
      (taskScores setting.records setting.scores task) place :=
    (foldl_labelTask hnodup).1 task hmember place hplace
  rw [getD_eq_getElem _ _ hplace, hi] at hlabel
  rw [← hentry, annotation_recordAt hlength, ← taskScores_eq, ← hlabel]
  rfl

theorem exists_place (hrecord : record ∈ setting.records) : ∃ place : ℕ,
    (setting.taskRecords record.taskIndex)[place]? = some record := by
  apply mem_iff_getElem?.mp
  exact mem_filter.mpr ⟨hrecord, decide_eq_true rfl⟩

theorem exists_index (hrecord : record ∈ setting.loaded) : ∃ i : ℕ,
    (setting.episode record.episodeIndex)[i]? = some record :=
  mem_iff_getElem?.mp (mem_episode.mpr ⟨hrecord, rfl⟩)

/-! ## What a frame depends on -/

section Agreement

variable {other : AnnotationSetting}

def SameEpisode (setting other : AnnotationSetting) (id : ℤ) : Prop :=
  (setting.loaded.filter fun record => record.episodeIndex = id).Perm
    (other.loaded.filter fun record => record.episodeIndex = id)

theorem SameEpisode.episode_eq (hsame : SameEpisode setting other id) :
    other.episode id = setting.episode id := by
  apply sortByKey_of_perm _ hsame.symm
  intro first hfirst second hsecond heq
  exact recordKey_injOn (mem_of_mem_filter hfirst)
    (mem_of_mem_filter hsecond) heq

/-- Settings that differ in the forcing of labels at most. -/
structure SameScoring (setting other : AnnotationSetting) : Prop where
  nStep : other.config.nStep = setting.config.nStep
  score : ∀ records i,
    scoreOf other.config records i = scoreOf setting.config records i

theorem SameScoring.annotation (hconfig : SameScoring setting other)
    (hrecord : record ∈ setting.loaded)
    (hsame : SameEpisode setting other record.episodeIndex) :
    ( other.annotation record).advantage =
        ( setting.annotation record).advantage ∧
      ( other.annotation record).indicatorScore =
        ( setting.annotation record).indicatorScore := by
  obtain ⟨i, hi⟩ := exists_index hrecord
  have hother := hsame.episode_eq ▸ hi
  obtain ⟨hadvantage, hscore⟩ := annotation_episode hi
  obtain ⟨hadvantage', hscore'⟩ := annotation_episode hother
  rw [hadvantage, hscore, hadvantage', hscore', hsame.episode_eq,
    hconfig.nStep, hconfig.score]
  exact ⟨rfl, rfl⟩

def SameTask (setting other : AnnotationSetting) (task : ℤ) : Prop :=
  ∀ id, (∃ record ∈ setting.loaded ++ other.loaded,
      record.taskIndex = task ∧ record.episodeIndex = id) →
    SameEpisode setting other id

theorem SameTask.taskRecords_eq (hsame : SameTask setting other task) :
    other.taskRecords task = setting.taskRecords task := by
  have hmember : ∀ record, record.taskIndex = task →
      (record ∈ other.loaded ↔ record ∈ setting.loaded) := by
    intro record htask
    have hboth : record ∈ setting.loaded ++ other.loaded →
        (record ∈ other.loaded ↔ record ∈ setting.loaded) := by
      intro heither
      have hperm := (hsame _ ⟨record, heither, htask, rfl⟩).mem_iff
        (a := record)
      simpa using hperm.symm
    constructor
    · intro hother
      exact (hboth (mem_append_right _ hother)).mp hother
    · intro hown
      exact (hboth (mem_append_left _ hown)).mpr hown
  have hperm : (other.loaded.filter fun record =>
      record.taskIndex = task).Perm
        (setting.loaded.filter fun record => record.taskIndex = task) := by
    apply (perm_ext_iff_of_nodup ((Nodup.of_map _ nodup_loaded).filter _)
      ((Nodup.of_map _ nodup_loaded).filter _)).mpr
    intro record
    simp only [mem_filter, decide_eq_true_eq]
    constructor
    · rintro ⟨hother, htask⟩
      exact ⟨(hmember record htask).mp hother, htask⟩
    · rintro ⟨hown, htask⟩
      exact ⟨(hmember record htask).mpr hown, htask⟩
  unfold taskRecords records
  rw [filter_sortByKey recordKey_injOn, filter_sortByKey recordKey_injOn]
  apply sortByKey_of_perm _ hperm
  intro first hfirst second hsecond heq
  exact recordKey_injOn (mem_of_mem_filter hfirst)
    (mem_of_mem_filter hsecond) heq

theorem SameTask.scores_eq (hconfig : SameScoring setting other)
    (hsame : SameTask setting other task) :
    other.scoresOfTask task = setting.scoresOfTask task := by
  unfold scoresOfTask
  rw [hsame.taskRecords_eq]
  apply map_congr_left
  intro record hrecord
  obtain ⟨hmember, htask⟩ := mem_filter.mp hrecord
  have hloaded : record ∈ setting.loaded := mem_sortByKey.mp hmember
  exact ( hconfig.annotation hloaded (hsame _
    ⟨record, mem_append_left _ hloaded, of_decide_eq_true htask, rfl⟩)).2

end Agreement

theorem sameScoring_unforced : SameScoring setting setting.unforced :=
  ⟨rfl, fun _ _ => rfl⟩

theorem sameTask_unforced : SameTask setting setting.unforced task :=
  fun _ _ => Perm.refl _

theorem unforced_indicator_eq
    (hrecord : (setting.taskRecords task)[place]? = some record) :
    ( setting.unforced.annotation record).indicator =
      taskLabel setting.argsort setting.config.positiveRatio
        (setting.scoresOfTask task) place := by
  have hother : (setting.unforced.taskRecords task)[place]? =
      some record := hrecord
  have hlabel := indicator_eq hother
  rw [sameTask_unforced.scores_eq sameScoring_unforced] at hlabel
  have hfree : ¬(setting.unforced.config.forceInterventionPositive = true ∧
      record.isIntervention = true) := by
    rintro ⟨hforced, _⟩
    cases hforced
  rw [if_neg hfree] at hlabel
  exact hlabel

/-- The frames of a task that are positive without interventions. -/
theorem count_positive : (((setting.taskRecords task).filter fun record =>
      ( setting.unforced.annotation record).indicator = 1).length : ℤ) =
    ⌈setting.config.positiveRatio * (setting.taskRecords task).length⌉ := by
  have hcount : ⌈((setting.taskRecords task).length : ℚ) *
      setting.config.positiveRatio⌉.toNat ≤
        (setting.taskRecords task).length := by
    rw [Int.toNat_le, Int.ceil_le, Int.cast_natCast]
    exact mul_le_of_le_one_right (Nat.cast_nonneg _) setting.ratio_le
  have hnonneg : 0 ≤ ⌈((setting.taskRecords task).length : ℚ) *
      setting.config.positiveRatio⌉ := by
    apply Int.ceil_nonneg
    exact mul_nonneg (Nat.cast_nonneg _) setting.ratio_nonneg
  have hall : setting.taskRecords task =
      (range (setting.taskRecords task).length).map
        (recordAt (setting.taskRecords task)) := by
    apply ext_getElem
    · simp
    · intro place hplace _
      rw [getElem_map, getElem_range, recordAt, getD_eq_getElem _ _ hplace]
  have hplaces : ((setting.taskRecords task).filter fun record =>
      ( setting.unforced.annotation record).indicator = 1).length =
      ((range (setting.taskRecords task).length).filter fun place =>
        place ∈ positiveOrder setting.argsort (setting.scoresOfTask task)
          ⌈((setting.taskRecords task).length : ℚ) *
            setting.config.positiveRatio⌉.toNat).length := by
    conv_lhs => rw [hall]
    rw [filter_map, length_map]
    congr 1
    apply filter_congr
    intro place hplace
    rw [mem_range] at hplace
    have hrecord : (setting.taskRecords task)[place]? =
        some (recordAt (setting.taskRecords task) place) := by
      rw [recordAt, getD_eq_getElem _ _ hplace, getElem?_eq_getElem hplace]
    rw [Function.comp_apply, unforced_indicator_eq hrecord, taskLabel,
      length_scoresOfTask]
    split_ifs with hpositive <;> simp [hpositive]
  have hrange : ((range (setting.taskRecords task).length).filter
      fun place => place ∈ positiveOrder setting.argsort
        (setting.scoresOfTask task)
        ⌈((setting.taskRecords task).length : ℚ) *
          setting.config.positiveRatio⌉.toNat).length =
      ⌈((setting.taskRecords task).length : ℚ) *
        setting.config.positiveRatio⌉.toNat := by
    rw [← length_scoresOfTask] at hcount ⊢
    exact count_positiveOrder hcount
  rw [hplaces, hrange, Int.toNat_of_nonneg hnonneg, mul_comm]

end AnnotationSetting

/-- Frames from a place on whose numbers follow one another. -/
def ConsecutiveFrames (episode : List RecapRecord) (i steps : ℕ) : Prop :=
  ∀ step ≤ steps, ∃ next, episode[i + step]? = some next ∧
    next.frameIndex = (recordAt episode i).frameIndex + step

theorem runOf_iff {episode : List RecapRecord} {id : ℤ}
    (hepisode : ∀ record ∈ episode, record.episodeIndex = id)
    (hi : i < episode.length) :
    RunOf episode i steps ↔ ConsecutiveFrames episode i steps := by
  apply forall₂_congr
  intro step _
  have hfirst : (recordAt episode i).episodeIndex = id := by
    rw [recordAt, getD_eq_getElem _ _ hi]
    exact hepisode _ (getElem_mem hi)
  simp only [inRun, decide_eq_true_eq]
  constructor
  · rintro ⟨hlength, _, hframe⟩
    refine ⟨_, getElem?_eq_getElem hlength, ?_⟩
    rw [← hframe, recordAt, getD_eq_getElem _ _ hlength]
  · rintro ⟨next, hnext, hframe⟩
    obtain ⟨hlength, hentry⟩ := List.getElem?_eq_some_iff.mp hnext
    have hlater : recordAt episode (i + step) = next := by
      rw [recordAt, getD_eq_getElem _ _ hlength, hentry]
    rw [hlater, hfirst]
    exact ⟨hlength, hepisode next (mem_of_getElem? hnext), hframe⟩

namespace AnnotationSetting

variable {setting other : AnnotationSetting} {record : RecapRecord} {i : ℕ}

/-- The run of a frame, cut after some steps, and what its last frame gives. -/
def AdvantageOverRun (setting : AnnotationSetting) (id : ℤ) (i : ℕ)
    (record : RecapRecord) : Prop :=
  ∃ steps last, steps ≤ setting.config.nStep ∧
    ConsecutiveFrames (setting.episode id) i steps ∧
    (steps < setting.config.nStep →
      ¬ConsecutiveFrames (setting.episode id) i (steps + 1)) ∧
    (setting.episode id)[i + steps]? = some last ∧
    ( setting.annotation record).advantage =
      record.returnValue - last.returnValue + last.value - record.value

/-- The window cuts the run of a frame; a score is the weighted mean. -/
def ScoreOverRun (setting : AnnotationSetting) (id : ℤ) (i : ℕ)
    (record : RecapRecord) : Prop :=
  ∃ count, 0 < count ∧ count ≤ setting.config.smoothingWindow ∧
    ConsecutiveFrames (setting.episode id) i (count - 1) ∧
    (count < setting.config.smoothingWindow →
      ¬ConsecutiveFrames (setting.episode id) i count) ∧
    ( setting.annotation record).indicatorScore *
        ((range count).map fun offset =>
          setting.config.smoothingDecay ^ offset).sum =
      ((range count).map fun offset =>
        setting.config.smoothingDecay ^ offset * ( setting.annotation
            (recordAt (setting.episode id) (i + offset))).advantage).sum

theorem annotations_ok :
    computeRecapAnnotations setting.argsort setting.config setting.files
        setting.values =
      .ok (setting.records.map fun record =>
        (record.index, setting.annotation record)) := by
  rw [computeRecapAnnotations_ok]
  congr 1
  apply ext_getElem
  · simp
  · intro i hi _
    have hlength : i < setting.records.length := by simpa using hi
    have hentry : setting.records[i] = recordAt setting.records i :=
      (getD_eq_getElem _ _ hlength).symm
    rw [getElem_map, getElem_map, getElem_range, hentry,
      annotation_recordAt hlength,
      getD_computeNStepAdvantages _ hlength]
    congr 2
    unfold scores
    rw [getD_eq_getElem _ _ (by simpa using hlength), getElem_map,
      getElem_range]

theorem annotations_of_perm (hconfig : other.config = setting.config)
    (hargsort : other.argsort = setting.argsort)
    (hvalues : other.values = setting.values)
    (hfiles : other.files.flatten.Perm setting.files.flatten) :
    computeRecapAnnotations other.argsort other.config other.files
        other.values =
      computeRecapAnnotations setting.argsort setting.config setting.files
        setting.values := by
  have hloaded : other.loaded.Perm setting.loaded := by
    unfold loaded
    rw [hvalues]
    exact hfiles.map _
  have hrecords : other.records = setting.records :=
    sortByKey_of_perm recordKey_injOn hloaded
  have hscores : other.scores = setting.scores := by
    unfold scores
    rw [hrecords, hconfig]
  rw [computeRecapAnnotations_ok, computeRecapAnnotations_ok, hrecords,
    hscores, hconfig, hargsort]

theorem advantage_eq {id : ℤ}
    (hrecord : (setting.episode id)[i]? = some record) :
    AdvantageOverRun setting id i record := by
  obtain ⟨hi, hentry⟩ := List.getElem?_eq_some_iff.mp hrecord
  have hepisode : ∀ record ∈ setting.episode id,
      record.episodeIndex = id := fun record hrecord =>
    (mem_episode.mp hrecord).2
  have hrun : RunOf (setting.episode id) i
      (lookAhead (setting.episode id) i setting.config.nStep) :=
    runOf_lookAhead hi
  have hlast := inRun_lt (hrun _ le_rfl)
  refine ⟨lookAhead (setting.episode id) i setting.config.nStep, _,
    passed_le, (runOf_iff hepisode hi).mp hrun, ?_,
    getElem?_eq_getElem hlast, ?_⟩
  · intro hstop
    rw [← runOf_iff hepisode hi]
    exact not_runOf_lookAhead hstop
  · rw [(annotation_episode hrecord).1, nStepAdvantage_eq]
    unfold recordAt
    rw [getD_eq_getElem _ _ hi, getD_eq_getElem _ _ hlast, hentry]

/-- The run that is averaged is as long as the window admits. -/
theorem smoothedScore_eq {id : ℤ}
    (hsmooth : setting.config.indicatorStrategy = "future_smoothed_advantage")
    (hrecord : (setting.episode id)[i]? = some record) :
    ScoreOverRun setting id i record := by
  obtain ⟨hi, _⟩ := List.getElem?_eq_some_iff.mp hrecord
  have hepisode : ∀ record ∈ setting.episode id,
      record.episodeIndex = id := fun record hrecord =>
    (mem_episode.mp hrecord).2
  obtain ⟨hcount, hmean⟩ := smoothFutureScore_mul
    (computeNStepAdvantages setting.config.nStep (setting.episode id)) hi
    setting.window_pos setting.decay_pos
  have hpassed : ∀ offset < passed (inRun (setting.episode id) i)
      setting.config.smoothingWindow,
      inRun (setting.episode id) i offset = true := fun _ =>
    check_of_lt_passed _
  refine ⟨passed (inRun (setting.episode id) i)
    setting.config.smoothingWindow, hcount, passed_le, ?_, ?_, ?_⟩
  · apply (runOf_iff hepisode hi).mp
    intro step hstep
    apply hpassed
    omega
  · intro hstop hrun
    have hnext := (runOf_iff hepisode hi).mpr hrun _ le_rfl
    rw [check_passed hstop] at hnext
    cases hnext
  · rw [(annotation_episode hrecord).2, scoreOf, hsmooth]
    simp only [String.reduceEq, if_false]
    rw [hmean]
    congr 1
    apply map_congr_left
    intro offset hoffset
    have hlater := inRun_lt (hpassed offset (mem_range.mp hoffset))
    have hrecord : (setting.episode id)[i + offset]? =
        some (setting.episode id)[i + offset] :=
      getElem?_eq_getElem hlater
    have hadvantage := annotation_episode hrecord
    rw [getD_computeNStepAdvantages _ hlater, recordAt,
      getD_eq_getElem _ _ hlater, hadvantage.1]

theorem taskLabel_le (hfirst : first ∈ setting.taskRecords task)
    (hsecond : second ∈ setting.taskRecords task)
    (hnot : ( setting.unforced.annotation first).indicator ≠ 1)
    (hpositive : ( setting.unforced.annotation second).indicator = 1) :
    ( setting.annotation first).indicatorScore ≤
      ( setting.annotation second).indicatorScore := by
  obtain ⟨place, hplace⟩ := mem_iff_getElem?.mp hfirst
  obtain ⟨chosen, hchosen⟩ := mem_iff_getElem?.mp hsecond
  have hscore : ∀ {place record},
      (setting.taskRecords task)[place]? = some record →
      (setting.scoresOfTask task).getD place 0 =
        ( setting.annotation record).indicatorScore := by
    intro place record hrecord
    rw [scoresOfTask, getD_eq_getElem?_getD, getElem?_map, hrecord]
    rfl
  rw [unforced_indicator_eq hplace, taskLabel] at hnot
  rw [unforced_indicator_eq hchosen, taskLabel] at hpositive
  rw [← hscore hplace, ← hscore hchosen]
  apply le_positiveOrder
  · rw [length_scoresOfTask]
    exact (List.getElem?_eq_some_iff.mp hplace).1
  · intro hmember
    exact hnot (if_pos hmember)
  · by_contra hmember
    rw [if_neg hmember] at hpositive
    cases hpositive

theorem forced_indicator_eq (hrecord : record ∈ setting.records) :
    ( setting.annotation record).indicator =
      if setting.config.forceInterventionPositive ∧ record.isIntervention
      then 1 else ( setting.unforced.annotation record).indicator := by
  obtain ⟨place, hplace⟩ := exists_place hrecord
  rw [indicator_eq hplace, unforced_indicator_eq hplace]

theorem SameTask.indicator_eq (hconfig : other.config = setting.config)
    (hargsort : other.argsort = setting.argsort)
    (hrecord : record ∈ setting.records)
    (hsame : SameTask setting other record.taskIndex) :
    ( other.annotation record).indicator =
      ( setting.annotation record).indicator := by
  have hscoring : SameScoring setting other :=
    ⟨by rw [hconfig], fun _ _ => by rw [hconfig]⟩
  obtain ⟨place, hplace⟩ := exists_place hrecord
  have hother := hsame.taskRecords_eq.symm ▸ hplace
  rw [AnnotationSetting.indicator_eq hplace,
    AnnotationSetting.indicator_eq hother, hconfig, hargsort,
    hsame.scores_eq hscoring]

end AnnotationSetting

/-- Ties in the order of the places. -/
def stableArgsort : Argsort where
  order scores :=
    sortByKey (fun place => scores.getD place 0) (range scores.length)
  perm _ := sortByKey_perm
  sorted _ := sortByKey_sorted

/-- An episode with a frame of each of two tasks and an episode with one
frame; the value is that of the frame of the second task. -/
def mixedEpisode (value : ℚ) : AnnotationSetting where
  argsort := stableArgsort
  config := ⟨1, 1 / 2, false, "raw_advantage", 1, 1⟩
  files := [[⟨0, 0, 0, 0, some 0, none⟩, ⟨1, 0, 1, 0, some 1, none⟩],
    [⟨2, 1, 0, 0, some 0, none⟩]]
  values := [(0, 0), (1, value), (2, 0)]
  distinct := by decide
  valued := by
    intro row hrow
    simp only [flatten_cons, flatten_nil, mem_append,
      mem_cons, not_mem_nil, or_false] at hrow
    obtain (rfl | rfl) | rfl := hrow <;> simp
  strategy := Or.inl rfl
  window_pos := one_pos
  decay_pos := one_pos
  ratio_nonneg := by norm_num
  ratio_le := by norm_num

/-- The value of a frame of another task moves the label of a task. -/
theorem labels_mixedEpisode :
    (mixedEpisode 1).taskRecords 0 = (mixedEpisode (-1)).taskRecords 0 ∧
      ( AnnotationSetting.annotation (mixedEpisode 1) ⟨0, 0, 0, 0, 0, 0, false⟩).indicator = 1 ∧
      ( AnnotationSetting.annotation (mixedEpisode (-1))
        ⟨0, 0, 0, 0, 0, 0, false⟩).indicator = 0 := by
  decide +kernel

open AnnotationSetting

/-- Advantages and scores depend on the frames of the episode, labels on the
episodes that hold a frame of the task. -/
theorem annotations_local (setting : AnnotationSetting) :
    (computeRecapAnnotations setting.argsort setting.config setting.files
        setting.values =
      .ok (setting.records.map fun record =>
        (record.index, setting.annotation record)) ∧
      setting.records.Perm setting.loaded) ∧
    (∀ id i record, (setting.episode id)[i]? = some record →
      AdvantageOverRun setting id i record ∧
      (setting.config.indicatorStrategy = "raw_advantage" →
        ( setting.annotation record).indicatorScore =
          ( setting.annotation record).advantage) ∧
      (setting.config.indicatorStrategy = "future_smoothed_advantage" →
        ScoreOverRun setting id i record)) ∧
    (∀ task, (((setting.taskRecords task).filter fun record =>
        ( setting.unforced.annotation record).indicator = 1).length : ℤ) =
          ⌈setting.config.positiveRatio *
            (setting.taskRecords task).length⌉ ∧
      ∀ first ∈ setting.taskRecords task,
      ∀ second ∈ setting.taskRecords task,
        ( setting.unforced.annotation first).indicator ≠ 1 →
        ( setting.unforced.annotation second).indicator = 1 →
        ( setting.annotation first).indicatorScore ≤
          ( setting.annotation second).indicatorScore) ∧
    (∀ record ∈ setting.records, ( setting.annotation record).indicator =
        if setting.config.forceInterventionPositive ∧ record.isIntervention
        then 1 else ( setting.unforced.annotation record).indicator) ∧
    ∀ other : AnnotationSetting, other.config = setting.config →
      other.argsort = setting.argsort →
      (other.values = setting.values →
        other.files.flatten.Perm setting.files.flatten →
        computeRecapAnnotations other.argsort other.config other.files
            other.values =
          computeRecapAnnotations setting.argsort setting.config
            setting.files setting.values) ∧
      ∀ record ∈ setting.records,
        (SameEpisode setting other record.episodeIndex →
          ( other.annotation record).advantage =
              ( setting.annotation record).advantage ∧
            ( other.annotation record).indicatorScore =
              ( setting.annotation record).indicatorScore) ∧
        (SameTask setting other record.taskIndex →
          ( other.annotation record).indicator =
            ( setting.annotation record).indicator) := by
  refine ⟨⟨annotations_ok, sortByKey_perm⟩, ?_, ?_, ?_, ?_⟩
  · intro id i record hrecord
    refine ⟨advantage_eq hrecord, ?_, fun hsmooth =>
      smoothedScore_eq hsmooth hrecord⟩
    intro hraw
    obtain ⟨hadvantage, hscore⟩ := annotation_episode hrecord
    rw [hadvantage, hscore, scoreOf, if_pos hraw]
  · intro task
    exact ⟨count_positive, fun _ hfirst _ hsecond hnot hpositive =>
      taskLabel_le hfirst hsecond hnot hpositive⟩
  · intro record hrecord
    exact forced_indicator_eq hrecord
  · intro other hconfig hargsort
    refine ⟨annotations_of_perm hconfig hargsort, ?_⟩
    intro record hrecord
    have hscoring : SameScoring setting other :=
      ⟨by rw [hconfig], fun _ _ => by rw [hconfig]⟩
    exact ⟨ hscoring.annotation (mem_sortByKey.mp hrecord),
      SameTask.indicator_eq hconfig hargsort hrecord⟩

theorem annotations_local_mixedEpisode :
    (((mixedEpisode 1).taskRecords 0).filter fun record =>
        ( AnnotationSetting.annotation (mixedEpisode 1).unforced record).indicator = 1).length =
        ⌈(1 / 2 : ℚ) * ((mixedEpisode 1).taskRecords 0).length⌉ ∧
      (( AnnotationSetting.annotation (mixedEpisode (-1))
          ⟨2, 1, 0, 0, 0, 0, false⟩).advantage =
        ( AnnotationSetting.annotation (mixedEpisode 1)
          ⟨2, 1, 0, 0, 0, 0, false⟩).advantage) := by
  obtain ⟨_, _, hlabels, _, hothers⟩ := annotations_local (mixedEpisode 1)
  refine ⟨(hlabels 0).1, ?_⟩
  apply (((hothers (mixedEpisode (-1)) rfl rfl).2 _ _).1 _).1
  · decide +kernel
  · unfold SameEpisode
    decide +kernel

end Recap
end VerlVla
