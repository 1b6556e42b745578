import Mathlib.Algebra.Order.BigOperators.Group.Finset
import Mathlib.Tactic.IntervalCases
import VerlVla.ShardedStream
import VerlVla.TrajectoryRecords

/-!
# Evaluation quotas

Every case of the benchmark is wanted equally often, the first cases once more
if the number of episodes is no multiple of the benchmark.  Waves of rollouts
are run until that many records were accepted; a record of a case that has
met its quota is dropped.
-/

namespace VerlVla

/-! ## Records of a run without auto-reset -/

def firstChunk (lane : Episode ChunkInfo) : Option ChunkInfo :=
  lane.head?.map (·.data)

/-- One record for a lane, whether it ended or not. -/
def laneRecord (arithmetic : ReturnArithmetic) (chunkSteps : ℕ)
    (lane : Episode ChunkInfo) : TrajectoryRecord :=
  let substeps := lane.flatMap (·.substeps)
  let doneIdx := (substeps.findIdx? (·.done)).getD (substeps.length - 1)
  let segment := substeps.take (doneIdx + 1)
  { length := doneIdx + 1
    chunkLength := doneIdx / chunkSteps + 1
    success := segment.any (·.success)
    taskId := ((firstChunk lane).map (·.taskId)).getD 0
    score := lane[doneIdx / chunkSteps]?.bind fun chunk =>
      chunk.data.scores.map (·.getD (doneIdx % chunkSteps) 0)
    evalEpisodeId := (firstChunk lane).bind (·.evalEpisodeId)
    episodeReturn := arithmetic.sum (segment.map (·.reward)) }

def collectNonAutoResetTrajectoryRecords (arithmetic : ReturnArithmetic)
    (remaining : Option ℕ) (output : ChunkedOutput) :
    List TrajectoryRecord :=
  let records := output.lanes.map (laneRecord arithmetic output.chunkSteps)
  (remaining.map records.take).getD records

def collectRecords (arithmetic : ReturnArithmetic) (autoReset : Bool)
    (remaining : Option ℕ) (carry : CarryState) (output : ChunkedOutput) :
    Except RecordError (CarryState × List TrajectoryRecord) :=
  if autoReset then
    collectTrajectoryRecords arithmetic remaining carry output
  else if remaining = some 0 then pure (carry, [])
  else do
    require (0 < output.lanes.length * output.steps) .emptyReshape
    pure (carry,
      collectNonAutoResetTrajectoryRecords arithmetic remaining output)

/-! ## The evaluation -/

structure EvalBench where
  benchmarkSize : ℕ
  targetEpisodes : ℕ

inductive EvalFailure
  | outOfRange (evalEpisodeId : ℤ) (benchmarkSize : ℕ)
  | record (error : RecordError)
  deriving DecidableEq

structure EvalState where
  carry : CarryState
  accepted : ℕ → ℕ
  records : List TrajectoryRecord

def EvalState.initial : EvalState where
  carry := .empty
  accepted := fun _ => 0
  records := []

def ChunkedOutput.identified (output : ChunkedOutput) : Bool :=
  output.lanes.any fun lane =>
    lane.any fun chunk => chunk.data.evalEpisodeId.isSome

def TrajectoryRecord.caseId (record : TrajectoryRecord) : ℤ :=
  record.evalEpisodeId.getD (-1)

namespace EvalBench

variable (bench : EvalBench)

def targetCount (id : ℕ) : ℕ :=
  targetEvalEpisodeCount bench.benchmarkSize bench.targetEpisodes id

def acceptRecord (state : EvalState) (record : TrajectoryRecord) :
    Except EvalFailure EvalState := do
  require (0 ≤ record.caseId ∧ record.caseId < bench.benchmarkSize)
    (.outOfRange record.caseId bench.benchmarkSize)
  let id := record.caseId.toNat
  pure (if bench.targetCount id ≤ state.accepted id then state
    else { state with
      accepted := Function.update state.accepted id (state.accepted id + 1)
      records := state.records ++ [record] })

def acceptRecords (identified : Bool) (state : EvalState)
    (records : List TrajectoryRecord) : Except EvalFailure EvalState :=
  if identified then
    records.foldlM bench.acceptRecord state
  else
    pure { state with
      records := state.records ++ records.take
        (bench.targetEpisodes - state.records.length) }

/-- The state after a wave, and the records that it reported. -/
def evalWave (arithmetic : ReturnArithmetic) (autoReset : Bool)
    (output : ChunkedOutput) (state : EvalState) :
    Except EvalFailure (EvalState × List TrajectoryRecord) := do
  let collected ← (collectRecords arithmetic autoReset none state.carry
    output).mapError EvalFailure.record
  let next ← bench.acceptRecords output.identified
    { state with carry := collected.1 } collected.2
  pure (next, collected.2)

section Waves

variable (arithmetic : ReturnArithmetic) (autoReset : Bool)
  (waves : ℕ → ChunkedOutput)

/-- The loop of `eval` from its `step`-th wave on: the number of waves and the
final state, or nothing if the fuel is used up. -/
def evalLoop : ℕ → ℕ → EvalState →
    Except EvalFailure (Option (ℕ × EvalState))
  | 0, _, _ => pure none
  | fuel + 1, step, state =>
    if bench.targetEpisodes ≤ state.records.length then
      pure (some (step, state))
    else do
      let next ← bench.evalWave arithmetic autoReset (waves step) state
      evalLoop fuel (step + 1) next.1

/-- The state after some waves, and all records that they reported. -/
def runWaves : ℕ → Except EvalFailure (EvalState × List TrajectoryRecord)
  | 0 => pure (.initial, [])
  | step + 1 => do
    let before ← runWaves step
    let next ← bench.evalWave arithmetic autoReset (waves step) before.1
    pure (next.1, before.2 ++ next.2)

end Waves

/-! ## What is accepted -/

def ofCase (records : List TrajectoryRecord) (id : ℕ) :
    List TrajectoryRecord :=
  records.filter fun record => record.caseId = id

def Met (stream : List TrajectoryRecord) : Prop :=
  ∀ id < bench.benchmarkSize, bench.targetCount id ≤ (ofCase stream id).length

instance (stream : List TrajectoryRecord) : Decidable (bench.Met stream) :=
  inferInstanceAs (Decidable (∀ id < _, _))

/-- Of every case the first records of the stream, as many as its quota. -/
structure Admits (stream : List TrajectoryRecord) (state : EvalState) :
    Prop where
  known : ∀ record ∈ stream,
    0 ≤ record.caseId ∧ record.caseId < bench.benchmarkSize
  order : state.records.Sublist stream
  first : ∀ id, ofCase state.records id =
    (ofCase stream id).take (bench.targetCount id)
  counted : ∀ id, state.accepted id = (ofCase state.records id).length

section Admits

variable {bench} {stream : List TrajectoryRecord} {state next : EvalState}
  {record : TrajectoryRecord} {arithmetic : ReturnArithmetic}
  {autoReset : Bool} {waves : ℕ → ChunkedOutput}

theorem ofCase_concat (id : ℕ) : ofCase (stream ++ [record]) id =
    ofCase stream id ++ if record.caseId = id then [record] else [] := by
  by_cases hid : record.caseId = id <;> simp [ofCase, hid]

theorem Admits.acceptRecord (hadmits : bench.Admits stream state)
    (haccept : bench.acceptRecord state record = .ok next) :
    bench.Admits (stream ++ [record]) next := by
  rw [EvalBench.acceptRecord, require_bind_eq_ok] at haccept
  obtain ⟨hknown, haccept⟩ := haccept
  obtain ⟨case, hcase⟩ := Int.eq_ofNat_of_zero_le hknown.1
  have hfirst := hadmits.first case
  have hcounted := hadmits.counted case
  rw [hfirst, List.length_take] at hcounted
  have hall : ∀ other ∈ stream ++ [record],
      0 ≤ other.caseId ∧ other.caseId < bench.benchmarkSize := by
    simpa [or_imp, forall_and, hknown] using hadmits.known
  have hnext := Except.ok.inj haccept
  rw [hcase, Int.toNat_natCast] at hnext
  split_ifs at hnext with hfull
  · subst hnext
    constructor
    case known => exact hall
    case order => exact hadmits.order.trans (List.sublist_append_left _ _)
    case first =>
      intro id
      rw [hadmits.first, ofCase_concat, hcase]
      split_ifs with hid
      · rw [← Int.natCast_inj.mp hid, List.take_append_of_le_length (by omega)]
      · simp
    case counted => exact hadmits.counted
  · subst hnext
    constructor
    case known => exact hall
    case order => exact hadmits.order.append (List.Sublist.refl _)
    case first =>
      intro id
      rw [ofCase_concat, ofCase_concat, hadmits.first, hcase]
      split_ifs with hid
      · rw [← Int.natCast_inj.mp hid, List.take_of_length_le (by omega),
          List.take_of_length_le (by simp; omega)]
      · simp
    case counted =>
      intro id
      by_cases hid : id = case
      · simp [ofCase_concat, hcase, hid, hadmits.counted]
      · simp [ofCase_concat, hcase, hid, Ne.symm hid, hadmits.counted]

theorem Admits.foldlM {newRecords : List TrajectoryRecord}
    (hadmits : bench.Admits stream state)
    (haccept : newRecords.foldlM bench.acceptRecord state = .ok next) :
    bench.Admits (stream ++ newRecords) next := by
  induction newRecords generalizing stream state with
  | nil =>
    cases haccept
    simpa using hadmits
  | cons record newRecords ih =>
    rw [List.foldlM_cons, bind_eq_ok] at haccept
    obtain ⟨middle, hfirst, hrest⟩ := haccept
    simpa using ih (hadmits.acceptRecord hfirst) hrest

theorem Admits.runWaves {reached : EvalState × List TrajectoryRecord}
    (hidentified : ∀ step, (waves step).identified)
    (hruns : bench.runWaves arithmetic autoReset waves step = .ok reached) :
    bench.Admits reached.2 reached.1 := by
  induction step generalizing reached with
  | zero =>
    cases hruns
    constructor <;> simp [EvalState.initial, ofCase]
  | succ step ih =>
    obtain ⟨before, hbefore, hruns⟩ := bind_eq_ok.mp hruns
    obtain ⟨next, hwave, hruns⟩ := bind_eq_ok.mp hruns
    obtain ⟨collected, _, hwave⟩ := bind_eq_ok.mp hwave
    obtain ⟨accepted, haccept, hwave⟩ := bind_eq_ok.mp hwave
    rw [acceptRecords, if_pos (hidentified step)] at haccept
    cases hwave
    cases hruns
    obtain ⟨hknown, horder, hfirst, hcounted⟩ := ih hbefore
    have hcarried : bench.Admits before.2
        { before.1 with carry := collected.1 } :=
      ⟨hknown, horder, hfirst, hcounted⟩
    exact hcarried.foldlM haccept

theorem sum_targetEvalEpisodeCount (hsize : 0 < size) (episodes : ℕ) :
    ∑ id ∈ Finset.range size, targetEvalEpisodeCount size episodes id =
      episodes := by
  have hless := Nat.mod_lt episodes hsize
  have hextra : (Finset.range size).filter (· < episodes % size) =
      Finset.range (episodes % size) := by
    ext id
    simp only [Finset.mem_filter, Finset.mem_range]
    omega
  simp only [targetEvalEpisodeCount, Finset.sum_add_distrib,
    Finset.sum_const, Finset.card_range, smul_eq_mul, Finset.sum_boole,
    hextra, Nat.cast_id]
  exact Nat.div_add_mod _ _

theorem length_eq_sum_ofCase {records : List TrajectoryRecord}
    (hknown : ∀ record ∈ records,
      0 ≤ record.caseId ∧ record.caseId < bench.benchmarkSize) :
    records.length =
      ∑ id ∈ Finset.range bench.benchmarkSize, (ofCase records id).length := by
  induction records with
  | nil => simp [ofCase]
  | cons record records ih =>
    simp only [List.mem_cons, forall_eq_or_imp] at hknown
    obtain ⟨id, hid⟩ := Int.eq_ofNat_of_zero_le hknown.1.1
    have hmem : id ∈ Finset.range bench.benchmarkSize := by
      rw [Finset.mem_range]
      omega
    have hcons : ∀ other, (ofCase (record :: records) other).length =
        (ofCase records other).length + if id = other then 1 else 0 := by
      intro other
      by_cases hother : id = other <;> simp [ofCase, hid, hother]
    simp [hcons, Finset.sum_add_distrib, ih hknown.2, hmem]

/-- The loop has enough records exactly when every quota is met. -/
theorem Admits.enough_iff (hadmits : bench.Admits stream state)
    (hbench : 0 < bench.benchmarkSize) :
    bench.targetEpisodes ≤ state.records.length ↔ bench.Met stream := by
  have hlength := length_eq_sum_ofCase fun record hrecord =>
    hadmits.known record (hadmits.order.subset hrecord)
  have hcase : ∀ id, (ofCase state.records id).length =
      min (bench.targetCount id) (ofCase stream id).length := by
    intro id
    rw [hadmits.first, List.length_take]
  have hsum := sum_targetEvalEpisodeCount hbench bench.targetEpisodes
  rw [hlength, ← hsum]
  constructor
  · intro hle id hid
    by_contra hshort
    have hless : (∑ id ∈ Finset.range bench.benchmarkSize,
        (ofCase state.records id).length) <
        ∑ id ∈ Finset.range bench.benchmarkSize, bench.targetCount id := by
      apply Finset.sum_lt_sum
      · intro other _
        simp [hcase]
      · refine ⟨id, Finset.mem_range.mpr hid, ?_⟩
        rw [hcase]
        omega
    exact absurd hle (not_le.mpr hless)
  · intro hmet
    apply Finset.sum_le_sum
    intro id hid
    rw [hcase]
    exact le_min (le_refl _) (hmet id (Finset.mem_range.mp hid))

end Admits

/-! ## Evaluations -/

section Loop

variable {bench} {arithmetic : ReturnArithmetic} {autoReset : Bool}
  {waves : ℕ → ChunkedOutput}
  {reached : ℕ → EvalState × List TrajectoryRecord} {last : ℕ}

theorem evalLoop_eq
    (hruns : ∀ step ≤ last, bench.runWaves arithmetic autoReset waves step =
      .ok (reached step))
    (hmet : ∀ step ≤ last, bench.targetEpisodes ≤
      (reached step).1.records.length ↔ bench.Met (reached step).2)
    (hlast : step + fuel ≤ last) :
    bench.evalLoop arithmetic autoReset waves fuel step (reached step).1 =
      .ok (((List.range' step fuel).find? fun k =>
        bench.Met (reached k).2).map fun k => (k, (reached k).1)) := by
  induction fuel generalizing step with
  | zero => rfl
  | succ fuel ih =>
    rw [evalLoop, List.range'_succ, List.find?_cons]
    by_cases henough : bench.Met (reached step).2
    · rw [if_pos ((hmet step (by omega)).mpr henough)]
      simp [henough, pure, Except.pure]
    · have hnext := hruns (step + 1) (by omega)
      rw [EvalBench.runWaves, hruns step (by omega)] at hnext
      obtain ⟨_, hstep, hnext⟩ := bind_eq_ok.mp hnext
      cases hstep
      obtain ⟨next, hwave, hnext⟩ := bind_eq_ok.mp hnext
      have hstate := congrArg Prod.fst (Except.ok.inj hnext)
      have hrest := ih (by omega : step + 1 + fuel ≤ last)
      rw [← hstate] at hrest
      rw [if_neg (mt (hmet step (by omega)).mp henough), hwave]
      simpa [henough] using hrest

end Loop

/-- The evaluation ends with the first wave after which every quota is met,
and with as many records of every case as its quota. -/
structure EvalLaw (bench : EvalBench)
    (reached : ℕ → EvalState × List TrajectoryRecord) (last : ℕ)
    (ended : Except EvalFailure (Option (ℕ × EvalState))) : Prop where
  ends : ended = .ok (((List.range last).find? fun k =>
    bench.Met (reached k).2).map fun k => (k, (reached k).1))
  admits : ∀ k ≤ last, bench.Admits (reached k).2 (reached k).1
  total : ∀ k ≤ last, bench.Met (reached k).2 →
    (reached k).1.records.length = bench.targetEpisodes ∧
      ∀ id < bench.benchmarkSize,
        (ofCase (reached k).1.records id).length = bench.targetCount id

theorem eval_meets_quotas {bench : EvalBench}
    {reached : ℕ → EvalState × List TrajectoryRecord}
    (hbench : 0 < bench.benchmarkSize) (arithmetic : ReturnArithmetic)
    (autoReset : Bool) {waves : ℕ → ChunkedOutput}
    (hidentified : ∀ step, (waves step).identified)
    (hruns : ∀ step ≤ last, bench.runWaves arithmetic autoReset waves step =
      .ok (reached step)) :
    EvalLaw bench reached last
      (bench.evalLoop arithmetic autoReset waves last 0 .initial) := by
  have hadmits : ∀ k ≤ last, bench.Admits (reached k).2 (reached k).1 :=
    fun k hk => Admits.runWaves hidentified (hruns k hk)
  have hstart : (reached 0).1 = .initial :=
    congrArg Prod.fst (Except.ok.inj (hruns 0 (Nat.zero_le _))).symm
  constructor
  case ends =>
    rw [← hstart, List.range_eq_range']
    exact evalLoop_eq hruns (fun k hk => (hadmits k hk).enough_iff hbench)
      (Nat.zero_add last).le
  case admits => exact hadmits
  case total =>
    intro k hk hmet
    have hcase : ∀ id < bench.benchmarkSize,
        (ofCase (reached k).1.records id).length = bench.targetCount id := by
      intro id hid
      rw [(hadmits k hk).first, List.length_take]
      exact Nat.min_eq_left (hmet id hid)
    refine ⟨?_, hcase⟩
    rw [length_eq_sum_ofCase fun record hrecord =>
      (hadmits k hk).known record ((hadmits k hk).order.subset hrecord),
      ← sum_targetEvalEpisodeCount hbench bench.targetEpisodes]
    exact Finset.sum_congr rfl fun id hid => hcase id (Finset.mem_range.mp hid)

/-! ## Two cases, three episodes -/

def endedLane (id : ℤ) : Episode ChunkInfo :=
  [⟨[⟨0, true, false, true⟩], ⟨0, some id, none⟩⟩]

def bothCases : ChunkedOutput where
  steps := 1
  chunkSteps := 1
  lanes := [endedLane 1, endedLane 0]
  shaped := by simp [endedLane]

def afterBothCases (step : ℕ) : EvalState × List TrajectoryRecord :=
  (runWaves ⟨2, 3⟩ floatArithmetic false (fun _ => bothCases)
    step).toOption.getD (.initial, [])

theorem eval_meets_quotas_of_both_cases :
    evalLoop ⟨2, 3⟩ floatArithmetic false (fun _ => bothCases) 3 0 .initial =
      .ok (some (2, (afterBothCases 2).1)) := by
  have hruns : ∀ step ≤ 3, runWaves ⟨2, 3⟩ floatArithmetic false
      (fun _ => bothCases) step = .ok (afterBothCases step) := by
    intro step hstep
    interval_cases step <;> rfl
  have hbench : 0 < (⟨2, 3⟩ : EvalBench).benchmarkSize := by decide
  have hlaw := eval_meets_quotas hbench floatArithmetic false
    (fun _ => by decide) hruns
  rw [hlaw.ends]
  rfl

end EvalBench
end VerlVla
