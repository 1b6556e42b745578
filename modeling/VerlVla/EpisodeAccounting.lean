import VerlVla.ProgressCounts

/-!
# Three accounts of the same episodes

The progress counters, the trajectory records and the episode buffer cut a
stream into the same episodes, as long as every episode has several chunks.
They look for success in different places: behind the first substep after a
chunk that stayed done, in the last chunk only, and also behind the end.
-/

namespace VerlVla

open List hiding cons head nil tail

/-! ## Counting -/

theorem countP_eq_iff {α : Type} {p q : α → Bool} {xs : List α}
    (himp : ∀ x ∈ xs, p x = true → q x = true) :
    xs.countP p = xs.countP q ↔ ∀ x ∈ xs, q x = true → p x = true := by
  constructor
  · intro hcount x hx hq
    by_contra hp
    have hle : ∀ ys : List α, (∀ y ∈ ys, p y = true → q y = true) →
        ys.countP p ≤ ys.countP q := fun ys hys => countP_mono_left hys
    obtain ⟨left, right, rfl⟩ := append_of_mem hx
    obtain ⟨hleft, hright⟩ := forall_mem_append.mp himp
    have hleftLe := hle left hleft
    have hrightLe := hle right (forall_mem_cons.mp hright).2
    rw [countP_append, countP_append, countP_cons,
      countP_cons, hq, if_neg hp, if_pos rfl] at hcount
    omega
  · intro hback
    exact countP_congr fun x hx => ⟨himp x hx, hback x hx⟩

theorem countP_withHeld (p : Episode ChunkInfo → Bool) (held : Bool)
    (runs : List (Episode ChunkInfo)) :
    (withHeld held runs).countP (fun episode => p episode.2) =
      runs.countP p := by
  induction runs generalizing held with
  | nil => rfl
  | cons run runs ih =>
    rw [withHeld, countP_cons, countP_cons, ih]

theorem mem_of_mem_withHeld (hepisode : episode ∈ withHeld held runs) :
    episode.2 ∈ runs := by
  induction runs generalizing held with
  | nil => cases hepisode
  | cons run runs ih =>
    cases hepisode with
    | head => exact mem_cons_self
    | tail _ hlater => exact mem_cons_of_mem _ (ih hlater)

theorem mem_withHeld (held : Bool) (hrun : run ∈ runs) :
    ∃ before, (before, run) ∈ withHeld held runs := by
  induction runs generalizing held with
  | nil => cases hrun
  | cons first runs ih =>
    cases hrun with
    | head => exact ⟨held, mem_cons_self⟩
    | tail _ hlater =>
      obtain ⟨before, hbefore⟩ := ih (first.getLast?.any heldDone) hlater
      exact ⟨before, mem_cons_of_mem _ hbefore⟩

/-! ## Where each account looks for success -/

def recordedSuccess (run : Episode ChunkInfo) : Bool :=
  run.getLast?.any fun last => (executedSubsteps last).any (·.success)

def markedSuccess (stepPenalty : ℚ) (episode : Episode ChunkInfo) : Bool :=
  (prepareSacActorInput stepPenalty episode).any fun transition =>
    transition.successMask = 1

theorem succeeded_of_counted (hcounted : countedSuccess episode = true) :
    succeeded episode.2 = true := by
  obtain ⟨report, hreport, hsuccess⟩ := any_eq_true.mp hcounted
  exact any_eq_true.mpr ⟨report, mem_of_mem_drop hreport, hsuccess⟩

theorem succeeded_of_recorded (hrecorded : recordedSuccess run = true) :
    succeeded run = true := by
  unfold recordedSuccess at hrecorded
  cases hlast : run.getLast? with
  | none =>
    simp [hlast] at hrecorded
  | some last =>
    rw [hlast, Option.any_some] at hrecorded
    obtain ⟨before, rfl⟩ := getLast?_eq_some_iff.mp hlast
    rw [succeeded, executed_append, any_append, executed_cons,
      any_append, hrecorded, Bool.true_or, Bool.or_true]

theorem any_of_succeeded (hsucceeded : succeeded run = true) :
    run.any (·.success) = true := by
  obtain ⟨report, hreport, hsuccess⟩ := any_eq_true.mp hsucceeded
  obtain ⟨substeps, hsubsteps, hmem⟩ := mem_flatten.mp hreport
  obtain ⟨chunk, hchunk, rfl⟩ := mem_map.mp hsubsteps
  exact any_eq_true.mpr ⟨chunk, hchunk,
    any_eq_true.mpr ⟨report, mem_of_mem_take hmem, hsuccess⟩⟩

theorem markedSuccess_run (stepPenalty : ℚ) {run : Episode ChunkInfo}
    (hrun : IsRun RolloutStep.done run) :
    markedSuccess stepPenalty run = run.any (·.success) := by
  obtain ⟨before, last, rfl, hbefore, hlast⟩ := hrun
  have hmask := prepareSacActorInput_ended stepPenalty hbefore hlast
  have hlength : 0 < (prepareSacActorInput stepPenalty
      (before ++ [last])).length := by
    rw [prepareSacActorInput, length_mapIdx]
    simp
  cases hany : (before ++ [last]).any (·.success) with
  | true =>
    rw [hany] at hmask
    have hfirst := getElem_mem hlength
    rw [markedSuccess, any_eq_true]
    exact ⟨_, hfirst, decide_eq_true (hmask _ hfirst).2⟩
  | false =>
    rw [hany] at hmask
    rw [markedSuccess, any_eq_false]
    intro transition htransition
    rw [(hmask transition htransition).2]
    decide

/-! ## Agreement -/

structure AccountingsAgree (stepPenalty : ℚ) (progress : ProgressCounts)
    (records : List TrajectoryRecord) (episodes : List (Episode ChunkInfo))
    (runs : List (Episode ChunkInfo)) : Prop where
  progressDone : progress.doneEps = runs.length
  progressSuccess : progress.succEps = runs.countP succeeded
  recordCount : records.length = runs.length
  recordSuccess : records.countP (·.success) = runs.countP succeeded
  episodeCount : episodes.length = runs.length
  episodeSuccess : episodes.countP (markedSuccess stepPenalty) =
    runs.countP succeeded

/-- Every account finds the success of the episode, and none finds another. -/
structure SeenByAll (episode : Bool × Episode ChunkInfo) : Prop where
  lastChunk : succeeded episode.2 = true → recordedSuccess episode.2 = true
  counted : succeeded episode.2 = true → countedSuccess episode = true
  tail : episode.2.any (·.success) = true → succeeded episode.2 = true

theorem countP_recorded {runs : List (Episode ChunkInfo)}
    {records : List TrajectoryRecord}
    (hrecords : Forall₂ (RecordsRun chunkSteps) runs
      (records.map (·.toRecordFields))) :
    records.length = runs.length ∧
      records.countP (·.success) = runs.countP recordedSuccess := by
  constructor
  · rw [hrecords.length_eq, length_map]
  · have hcount : (records.map (·.toRecordFields)).countP (·.success) =
        runs.countP recordedSuccess := by
      generalize records.map (·.toRecordFields) = fields at hrecords
      induction hrecords with
      | nil => rfl
      | cons hrecord _ ih =>
        obtain ⟨before, last, rfl, rfl⟩ := hrecord
        rw [countP_cons, countP_cons, ih, recordedSuccess, getLast?_concat]
        rfl
    rw [countP_map] at hcount
    exact hcount

/-- The accounts of a lane agree exactly if every account sees the success of
each episode and no other success. -/
theorem accountings_agree_iff (arithmetic : ReturnArithmetic)
    (stepPenalty : ℚ) (lanes chunkSteps : ℕ) (outputs : List ChunkedOutput)
    (houtputs : ∀ output ∈ outputs, output.IsWindow lanes chunkSteps)
    (lane : ℕ) (hlane : lane < lanes) (runs : List (Episode ChunkInfo))
    (rest : Episode ChunkInfo)
    (hcut : Cut RolloutStep.done (streamOf lane outputs) runs rest)
    (hchunks : ∀ run ∈ runs, 2 ≤ run.length) :
    let records := recordsOf arithmetic lanes chunkSteps outputs
    let episodes := EpisodeBuffer.returned lanes (outputs.map (·.lanes))
    (∃ carry, collectAll arithmetic .empty outputs =
        .ok (carry, records.map List.flatten)) ∧
      (EpisodeBuffer.create true).ingestAll (outputs.map (·.lanes)) =
        .ok (episodes.map List.flatten) ∧
      (AccountingsAgree stepPenalty (progressOf (streamOf lane outputs))
          (laneOf lane records) (laneOf lane episodes) runs ↔
        ∀ episode ∈ withHeld false runs, SeenByAll episode) := by
  have hlengths : ∀ rollout ∈ outputs.map (·.lanes),
      rollout.length = lanes := by
    intro rollout hrollout
    obtain ⟨output, houtput, rfl⟩ := mem_map.mp hrollout
    exact (houtputs output houtput).lanes
  have hshape : ∀ chunk ∈ streamOf lane outputs,
      chunk.substeps.length = chunkSteps := streamOf_shape houtputs
  have hzeros : (replicate lanes SegmentPrefix.zero).length = lanes :=
    length_replicate
  have hempty : CarryState.empty.prefixes lanes =
      .ok (replicate lanes .zero) := rfl
  obtain ⟨carry, hcollect, _⟩ := collectAll_eq arithmetic
    (Nat.zero_lt_of_lt hlane) houtputs hempty hzeros
  obtain ⟨_, _, _, hfields, _⟩ := lane_of_windows arithmetic houtputs hlane
  have hrecords := feedFields_stream hcut hshape
  rw [← hfields] at hrecords
  obtain ⟨hrecordCount, hrecordSuccess⟩ := countP_recorded hrecords
  have hprogress : progressOf (streamOf lane outputs) =
      { doneEps := 0 + runs.length
        succEps := 0 + (withHeld false runs).countP countedSuccess } :=
    countStream_cut hcut hshape hchunks
  rw [Nat.zero_add, Nat.zero_add] at hprogress
  have hepisodes := EpisodeBuffer.laneOf_returned hlengths hlane hcut
  have hall : runs.filter (1 < ·.length) = runs := by
    rw [filter_eq_self]
    intro run hrun
    exact decide_eq_true (hchunks run hrun)
  have hmarked : runs.countP (markedSuccess stepPenalty) =
      runs.countP fun run => run.any (·.success) := by
    apply countP_congr
    intro run hrun
    rw [markedSuccess_run stepPenalty (hcut.closed run hrun)]
  refine ⟨⟨carry, hcollect⟩, EpisodeBuffer.ingestAll_returned hlengths, ?_⟩
  rw [hepisodes, hall]
  have hcounted : (withHeld false runs).countP countedSuccess =
      runs.countP succeeded ↔ ∀ episode ∈ withHeld false runs,
        succeeded episode.2 = true → countedSuccess episode = true := by
    rw [← countP_withHeld succeeded false runs]
    exact countP_eq_iff fun episode _ => succeeded_of_counted
  have hrecorded : runs.countP recordedSuccess = runs.countP succeeded ↔
      ∀ run ∈ runs, succeeded run = true → recordedSuccess run = true :=
    countP_eq_iff fun run _ => succeeded_of_recorded
  have hany : runs.countP succeeded =
      runs.countP (fun run => run.any (·.success)) ↔
        ∀ run ∈ runs, run.any (·.success) = true → succeeded run = true :=
    countP_eq_iff fun run _ => any_of_succeeded
  constructor
  · intro hagree
    have hsuccess := hagree.progressSuccess
    rw [hprogress] at hsuccess
    intro episode hepisode
    have hrun := mem_of_mem_withHeld hepisode
    constructor
    · exact hrecorded.mp (hrecordSuccess.symm.trans hagree.recordSuccess)
        episode.2 hrun
    · exact hcounted.mp hsuccess episode hepisode
    · exact hany.mp (hagree.episodeSuccess.symm.trans hmarked) episode.2 hrun
  · intro hseen
    have hruns : ∀ run ∈ runs, ∃ held, (held, run) ∈ withHeld false runs :=
      fun run hrun => mem_withHeld false hrun
    constructor
    · rw [hprogress]
    · rw [hprogress]
      exact hcounted.mpr fun episode hepisode =>
        (hseen episode hepisode).counted
    · exact hrecordCount
    · rw [hrecordSuccess]
      apply hrecorded.mpr
      intro run hrun
      obtain ⟨held, hepisode⟩ := hruns run hrun
      exact (hseen _ hepisode).lastChunk
    · rfl
    · rw [hmarked]
      apply (hany.mpr _).symm
      intro run hrun
      obtain ⟨held, hepisode⟩ := hruns run hrun
      exact (hseen _ hepisode).tail

namespace AccountingRun

def substep (done success : Bool) : BaseEnv.Report where
  reward := 0
  terminated := done
  truncated := false
  success := success

def chunk (first second : BaseEnv.Report) : RolloutStep ChunkInfo where
  substeps := [first, second]
  data := { taskId := 0, evalEpisodeId := none, scores := none }

def idle : BaseEnv.Report := substep false false

def flash : BaseEnv.Report := substep false true

def stop : BaseEnv.Report := substep true false

def window (chunks : Episode ChunkInfo)
    (hshape : ∀ chunk ∈ chunks, chunk.substeps.length = 2) : ChunkedOutput where
  steps := chunks.length
  chunkSteps := 2
  lanes := [chunks]
  shaped := forall_mem_singleton.mpr ⟨rfl, hshape⟩

theorem isRun_pair {first last : RolloutStep ChunkInfo}
    (hfirst : first.done = false) (hlast : last.done = true) :
    IsRun RolloutStep.done [first, last] :=
  ⟨[first], last, rfl, forall_mem_singleton.mpr hfirst, hlast⟩

/-- One success before the last chunk, one at the first substep after a chunk
that stayed done, and one behind the end. -/
def episodes : List (Episode ChunkInfo) :=
  [[chunk flash idle, chunk idle stop], [chunk flash idle, chunk stop idle],
    [chunk idle idle, chunk stop flash]]

def disputed : ChunkedOutput := window episodes.flatten (by decide)

def plain : Episode ChunkInfo :=
  [chunk idle idle, chunk idle (substep true true)]

def agreed : ChunkedOutput := window plain (by decide)

end AccountingRun

open AccountingRun in
theorem accountings_agree_on_plain_episode :
    AccountingsAgree 0 (progressOf (streamOf 0 [agreed]))
      (laneOf 0 (recordsOf floatArithmetic 1 2 [agreed]))
      (laneOf 0 (EpisodeBuffer.returned 1 [agreed.lanes])) [plain] := by
  have hwindow : ∀ output ∈ [agreed], output.IsWindow 1 2 :=
    forall_mem_singleton.mpr ⟨rfl, rfl, by decide⟩
  have hcut : Cut RolloutStep.done (streamOf 0 [agreed]) [plain] [] := by
    constructor
    · decide
    · intro run hrun
      rw [mem_singleton.mp hrun]
      exact isRun_pair (by decide) (by decide)
    · exact forall_mem_nil _
  have hagree := accountings_agree_iff floatArithmetic 0 1 2 [agreed] hwindow
    0 Nat.one_pos [plain] [] hcut (by decide)
  apply hagree.2.2.mpr
  intro episode hepisode
  rw [mem_singleton.mp hepisode]
  constructor
  · decide
  · decide
  · decide

/-- Two of the three episodes succeed.  The counters find one of them, the
records none, and the buffer marks all three. -/
theorem accountings_disagree :
    Cut RolloutStep.done (streamOf 0 [AccountingRun.disputed])
        AccountingRun.episodes [] ∧
      AccountingRun.episodes.countP succeeded = 2 ∧
      progressOf (streamOf 0 [AccountingRun.disputed]) =
        { doneEps := 3, succEps := 1 } ∧
      (laneOf 0 (recordsOf floatArithmetic 1 2
        [AccountingRun.disputed])).map (·.success) = [false, false, false] ∧
      (laneOf 0 (EpisodeBuffer.returned 1
        [AccountingRun.disputed.lanes])).map (markedSuccess 0) =
          [true, true, true] := by
  constructor
  · constructor
    · decide
    · have hpair := @AccountingRun.isRun_pair
      intro run hrun
      rw [AccountingRun.episodes, mem_cons, mem_cons, mem_singleton] at hrun
      rcases hrun with rfl | rfl | rfl
      · exact hpair (by decide) (by decide)
      · exact hpair (by decide) (by decide)
      · exact hpair (by decide) (by decide)
    · exact forall_mem_nil _
  constructor
  · decide
  constructor
  · decide
  constructor
  · decide +kernel
  · decide +kernel

end VerlVla
