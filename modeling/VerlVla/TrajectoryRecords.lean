import Mathlib.Data.Int.Log
import Mathlib.Tactic.Ring
import VerlVla.EpisodeBuffer
import VerlVla.ReplaySampling
import VerlVla.StreamCuts

/-!
# Trajectory records

With auto-reset a lane reports one record for every chunk that contains an end.
The length and the return of an open episode are carried from one rollout
window to the next, the return in single precision.  The records are the runs
of the lane's stream, and only their returns can depend on the windows.
-/

namespace VerlVla

open List hiding cons length nil sum

/-- Float operations on returns: the sum of a chunk, the sum of two returns,
and the conversion to the carried array. -/
structure ReturnArithmetic where
  sum : List ℚ → ℚ
  add : ℚ → ℚ → ℚ
  carry : ℚ → ℚ

/-- The nearest number with a significand of so many bits, ties to even.  The
range of the exponent is not limited. -/
def roundBits (bits : ℕ) (x : ℚ) : ℚ :=
  let unit : ℚ := 2 ^ (Int.log 2 |x| + 1 - bits)
  pyRound (x / unit) * unit

/-- Chunks are summed in single precision, returns in double precision, and
the carried array has single precision. -/
def floatArithmetic : ReturnArithmetic where
  sum := foldl (fun total reward => roundBits 24 (total + reward)) 0
  add := fun left right => roundBits 53 (left + right)
  carry := roundBits 24

/-! ## The records of a rollout -/

/-- What a chunk holds besides its feedback.  A rollout has the last two
columns for all of its chunks or for none. -/
structure ChunkInfo where
  taskId : ℤ
  evalEpisodeId : Option ℤ
  scores : Option (List ℚ)
  deriving DecidableEq

/-- A rollout of shape `[B, S, K]`. -/
structure ChunkedOutput where
  steps : ℕ
  chunkSteps : ℕ
  lanes : List (Episode ChunkInfo)
  shaped : ∀ lane ∈ lanes, lane.length = steps ∧
    ∀ chunk ∈ lane, chunk.substeps.length = chunkSteps

structure RecordFields where
  length : ℕ
  chunkLength : ℕ
  success : Bool
  taskId : ℤ
  score : Option ℚ
  evalEpisodeId : Option ℤ
  deriving DecidableEq

structure TrajectoryRecord extends RecordFields where
  episodeReturn : ℚ
  deriving DecidableEq

structure SegmentPrefix where
  length : ℕ
  total : ℚ
  deriving DecidableEq

def SegmentPrefix.zero : SegmentPrefix where
  length := 0
  total := 0

structure CarryState where
  length : Option (List ℕ)
  reward : Option (List ℚ)

def CarryState.empty : CarryState where
  length := none
  reward := none

inductive RecordError
  | emptyReshape
  | rewardMissing
  | laneMissing
  deriving DecidableEq

def chunkFields (chunkSteps prefixLength : ℕ) (chunk : RolloutStep ChunkInfo) :
    ℕ × List RecordFields :=
  match chunk.substeps.findIdx? (·.done) with
  | none => (prefixLength + chunkSteps, [])
  | some doneIdx =>
    let trajectoryLength := prefixLength + (doneIdx + 1)
    (0,
      [{ length := trajectoryLength
         chunkLength := (trajectoryLength + chunkSteps - 1) / chunkSteps
         success := (chunk.substeps.take (doneIdx + 1)).any (·.success)
         taskId := chunk.data.taskId
         score := chunk.data.scores.map (·.getD doneIdx 0)
         evalEpisodeId := chunk.data.evalEpisodeId }])

def chunkReturn (arithmetic : ReturnArithmetic) (prefixReturn : ℚ)
    (chunk : RolloutStep ChunkInfo) : ℚ × ℚ :=
  match chunk.substeps.findIdx? (·.done) with
  | none =>
    let total := arithmetic.add prefixReturn
      (arithmetic.sum (chunk.substeps.map (·.reward)))
    (total, total)
  | some doneIdx =>
    (0, arithmetic.add prefixReturn (arithmetic.sum
        ((chunk.substeps.take (doneIdx + 1)).map (·.reward))))

def collectChunk (arithmetic : ReturnArithmetic) (chunkSteps : ℕ)
    (segment : SegmentPrefix) (chunk : RolloutStep ChunkInfo) :
    SegmentPrefix × List TrajectoryRecord :=
  let fields := chunkFields chunkSteps segment.length chunk
  let returns := chunkReturn arithmetic segment.total chunk
  ({ length := fields.1, total := returns.1 },
    fields.2.map fun record => { record with episodeReturn := returns.2 })

def reached (remaining : Option ℕ) (records : List TrajectoryRecord) : Bool :=
  remaining.any (· ≤ records.length)

def collectLane (arithmetic : ReturnArithmetic) (chunkSteps : ℕ)
    (remaining : Option ℕ) (segment : SegmentPrefix)
    (records : List TrajectoryRecord) :
    Episode ChunkInfo → SegmentPrefix × List TrajectoryRecord
  | [] => (segment, records)
  | chunk :: chunks =>
    if reached remaining records then (segment, records)
    else
      let next := collectChunk arithmetic chunkSteps segment chunk
      collectLane arithmetic chunkSteps remaining next.1
        (records ++ next.2) chunks

def SegmentPrefix.carried (arithmetic : ReturnArithmetic)
    (segment : SegmentPrefix) : SegmentPrefix :=
  { segment with total := arithmetic.carry segment.total }

/-- The lanes in order.  A lane that is not read to its end keeps what it
carried before. -/
def collectLanes (arithmetic : ReturnArithmetic) (chunkSteps : ℕ)
    (remaining : Option ℕ) (records : List TrajectoryRecord) :
    List SegmentPrefix → List (Episode ChunkInfo) →
      List SegmentPrefix × List TrajectoryRecord
  | segment :: segments, lane :: lanes =>
    let next := if reached remaining records then (segment, records) else
        let read := collectLane arithmetic chunkSteps remaining segment
          records lane
        (if reached remaining read.2 then segment
          else read.1.carried arithmetic, read.2)
    let final := collectLanes arithmetic chunkSteps remaining next.2
      segments lanes
    (next.1 :: final.1, final.2)
  | segments, _ => (segments, records)

def CarryState.prefixes (carry : CarryState) (lanes : ℕ) :
    Except RecordError (List SegmentPrefix) :=
  match carry.length, carry.reward with
  | none, _ => pure (replicate lanes .zero)
  | some _, none => throw .rewardMissing
  | some lengths, some rewards =>
    pure (List.zipWith SegmentPrefix.mk lengths rewards)

def collectTrajectoryRecords (arithmetic : ReturnArithmetic)
    (remaining : Option ℕ) (carry : CarryState) (output : ChunkedOutput) :
    Except RecordError (CarryState × List TrajectoryRecord) :=
  if remaining = some 0 then pure (carry, [])
  else do
    require (0 < output.lanes.length * output.steps) .emptyReshape
    let prefixes ← carry.prefixes output.lanes.length
    require (output.lanes.length ≤ prefixes.length) .laneMissing
    let final := collectLanes arithmetic output.chunkSteps remaining []
      prefixes output.lanes
    pure ({ length := some (final.1.map (·.length))
            reward := some (final.1.map (·.total)) }, final.2)

def collectAll (arithmetic : ReturnArithmetic) (carry : CarryState) :
    List ChunkedOutput →
      Except RecordError (CarryState × List (List TrajectoryRecord))
  | [] => pure (carry, [])
  | output :: outputs => do
    let next ← collectTrajectoryRecords arithmetic none carry output
    let final ← collectAll arithmetic next.1 outputs
    pure (final.1, next.2 :: final.2)

/-! ## One lane as a transducer -/

def recordMachine (arithmetic : ReturnArithmetic) (chunkSteps : ℕ) :
    Transducer SegmentPrefix (RolloutStep ChunkInfo) TrajectoryRecord where
  start := .zero
  step := collectChunk arithmetic chunkSteps

def fieldsMachine (chunkSteps : ℕ) :
    Transducer ℕ (RolloutStep ChunkInfo) RecordFields where
  start := 0
  step := chunkFields chunkSteps

section Machine

variable (arithmetic : ReturnArithmetic) (chunkSteps : ℕ)

theorem collectLane_eq (segment : SegmentPrefix)
    (records : List TrajectoryRecord) (lane : Episode ChunkInfo) :
    collectLane arithmetic chunkSteps none segment records lane =
      (((recordMachine arithmetic chunkSteps).feed segment lane).1, records ++
          ((recordMachine arithmetic chunkSteps).feed segment lane).2) := by
  induction lane generalizing segment records with
  | nil => rw [Transducer.feed, append_nil]; rfl
  | cons chunk chunks ih =>
    have hnone : reached none records = false := rfl
    rw [collectLane, hnone, if_neg Bool.false_ne_true, ih, append_assoc]
    rfl

theorem collectLanes_eq (records : List TrajectoryRecord)
    (hlength : lanes.length = segments.length) :
    collectLanes arithmetic chunkSteps none records segments lanes =
      (((recordMachine arithmetic chunkSteps).feedLanes segments lanes).map
          fun lane => lane.1.carried arithmetic,
        records ++ (((recordMachine arithmetic chunkSteps).feedLanes segments
          lanes).map (·.2)).flatten) := by
  induction segments generalizing records lanes with
  | nil =>
    have hlanes := length_eq_zero_iff.mp hlength
    rw [hlanes, collectLanes]
    · simp [Transducer.feedLanes]
    · simp
  | cons segment segments ih =>
    cases lanes with
    | nil => cases hlength
    | cons lane lanes =>
      have hnone : ∀ records, reached none records = false := fun _ => rfl
      rw [collectLanes]
      simp only [hnone, Bool.false_eq_true, if_false]
      rw [ih _ (Nat.succ.inj hlength), collectLane_eq]
      simp [Transducer.feedLanes]

theorem recordMachine_views :
    (recordMachine arithmetic chunkSteps).Views (fieldsMachine chunkSteps)
      SegmentPrefix.length TrajectoryRecord.toRecordFields := by
  constructor
  · rfl
  · intro segment chunk
    simp [recordMachine, fieldsMachine, collectChunk, Function.comp_def]

end Machine

/-! ## The record of a run -/

def endIdx (chunk : RolloutStep ChunkInfo) : ℕ :=
  chunk.substeps.findIdx (·.done)

def unexecuted (chunk : RolloutStep ChunkInfo) : ℕ :=
  if chunk.done then chunk.substeps.length - (endIdx chunk + 1) else 0

def runFields (chunkSteps : ℕ) (before : Episode ChunkInfo)
    (last : RolloutStep ChunkInfo) : RecordFields where
  length := before.length * chunkSteps + (endIdx last + 1)
  chunkLength := before.length + 1
  success := (last.substeps.take (endIdx last + 1)).any (·.success)
  taskId := last.data.taskId
  score := last.data.scores.map (·.getD (endIdx last) 0)
  evalEpisodeId := last.data.evalEpisodeId

def RecordsRun (chunkSteps : ℕ) (run : Episode ChunkInfo)
    (record : RecordFields) : Prop :=
  ∃ before last, run = before ++ [last] ∧
    record = runFields chunkSteps before last

section Fields

variable {chunkSteps : ℕ} {chunk last : RolloutStep ChunkInfo}
  {before stream : Episode ChunkInfo}

theorem endIdx_lt (hended : chunk.done = true) :
    endIdx chunk < chunk.substeps.length := by
  rw [RolloutStep.done_eq_any] at hended
  exact findIdx_lt_length_of_exists (any_eq_true.mp hended)

theorem findIdx?_live (hlive : chunk.done = false) :
    chunk.substeps.findIdx? (·.done) = none := by
  rw [RolloutStep.done_eq_any, any_eq_false] at hlive
  rw [findIdx?_eq_none_iff]
  intro substep hsubstep
  exact Bool.eq_false_iff.mpr (hlive substep hsubstep)

theorem findIdx?_ended (hended : chunk.done = true) :
    chunk.substeps.findIdx? (·.done) = some (endIdx chunk) := by
  rw [findIdx?_eq_guard_findIdx_lt, Option.guard_eq_some_iff]
  exact ⟨rfl, decide_eq_true (endIdx_lt hended)⟩

theorem chunkFields_live (prefixLength : ℕ) (hlive : chunk.done = false) :
    chunkFields chunkSteps prefixLength chunk =
      (prefixLength + chunkSteps, []) := by
  rw [chunkFields, findIdx?_live hlive]

variable (chunkSteps) in
theorem fieldsMachine_fresh :
    (fieldsMachine chunkSteps).Fresh RolloutStep.done := by
  constructor
  · intro prefixLength chunk hlive
    exact congrArg Prod.snd (chunkFields_live prefixLength hlive)
  · intro prefixLength chunk hended
    show (chunkFields chunkSteps prefixLength chunk).1 = 0
    rw [chunkFields, findIdx?_ended hended]

theorem feedFields_live (prefixLength : ℕ)
    (hlive : ∀ chunk ∈ stream, chunk.done = false) :
    (fieldsMachine chunkSteps).feed prefixLength stream =
      (prefixLength + stream.length * chunkSteps, []) := by
  induction stream generalizing prefixLength with
  | nil => simp
  | cons chunk stream ih =>
    obtain ⟨hchunk, hlive⟩ := forall_mem_cons.mp hlive
    have hstep : (fieldsMachine chunkSteps).step prefixLength chunk =
        (prefixLength + chunkSteps, []) :=
      chunkFields_live prefixLength hchunk
    rw [Transducer.feed, hstep, ih _ hlive, length_cons, Nat.add_mul,
      Nat.one_mul, Nat.add_assoc, Nat.add_comm chunkSteps]
    rfl

theorem chunkLength_eq (chunks : ℕ) (hpos : 0 < rest)
    (hrest : rest ≤ chunkSteps) :
    (chunks * chunkSteps + rest + chunkSteps - 1) / chunkSteps =
      chunks + 1 := by
  have hsteps : 0 < chunkSteps := Nat.lt_of_lt_of_le hpos hrest
  have hsplit : chunks * chunkSteps + rest + chunkSteps - 1 =
      (rest - 1) + (chunks + 1) * chunkSteps := by
    rw [Nat.add_mul, Nat.one_mul]
    omega
  rw [hsplit, Nat.add_mul_div_right _ _ hsteps,
    Nat.div_eq_of_lt (by omega), Nat.zero_add]

theorem feedFields_run (hbefore : ∀ chunk ∈ before, chunk.done = false)
    (hlast : last.done = true) (hshape : last.substeps.length = chunkSteps) :
    (fieldsMachine chunkSteps).feed 0 (before ++ [last]) =
      (0, [runFields chunkSteps before last]) := by
  have hend := endIdx_lt hlast
  have hchunks := chunkLength_eq before.length (Nat.succ_pos (endIdx last))
    (hshape ▸ hend)
  have hstep : (fieldsMachine chunkSteps).step
      (0 + before.length * chunkSteps) last =
        (0, [runFields chunkSteps before last]) := by
    show chunkFields chunkSteps (0 + before.length * chunkSteps) last = _
    rw [chunkFields, findIdx?_ended hlast, Nat.zero_add]
    dsimp only
    rw [hchunks]
    rfl
  rw [Transducer.feed_append, feedFields_live 0 hbefore, Transducer.feed,
    hstep]
  rfl

theorem feedFields_stream {runs : List (Episode ChunkInfo)}
    {rest : Episode ChunkInfo} (hcut : Cut RolloutStep.done stream runs rest)
    (hshape : ∀ chunk ∈ stream, chunk.substeps.length = chunkSteps) :
    Forall₂ (RecordsRun chunkSteps) runs
      ((fieldsMachine chunkSteps).feed 0 stream).2 := by
  have hfeed := congrArg Prod.snd
    ((fieldsMachine_fresh chunkSteps).feed_cut hcut)
  have hshapes : ∀ run ∈ runs, ∀ chunk ∈ run,
      chunk.substeps.length = chunkSteps := by
    intro run hrun chunk hchunk
    apply hshape
    rw [hcut.joined]
    exact mem_append_left _ (mem_flatten.mpr ⟨run, hrun, hchunk⟩)
  have hclosed := hcut.closed
  have houtputs : Forall₂ (RecordsRun chunkSteps) runs
      (runs.map fun run => ((fieldsMachine chunkSteps).feed 0 run).2).flatten := by
    clear hfeed hcut hshape
    induction runs with
    | nil => exact Forall₂.nil
    | cons run runs ih =>
      obtain ⟨⟨before, last, hrun, hbefore, hlast⟩, hclosed⟩ :=
        forall_mem_cons.mp hclosed
      obtain ⟨hrunShape, hshapes⟩ := forall_mem_cons.mp hshapes
      have hlastShape := hrunShape last (by rw [hrun]; simp)
      have hfeed := feedFields_run hbefore hlast hlastShape
      rw [← hrun] at hfeed
      rw [map_cons, flatten_cons, hfeed]
      exact Forall₂.cons ⟨before, last, hrun, rfl⟩ (ih hshapes hclosed)
  exact hfeed ▸ houtputs

theorem feedFields_lengths (prefixLength : ℕ)
    (hshape : ∀ chunk ∈ stream, chunk.substeps.length = chunkSteps) :
    prefixLength + stream.length * chunkSteps =
      (((fieldsMachine chunkSteps).feed prefixLength stream).2.map
          (·.length)).sum +
        ((fieldsMachine chunkSteps).feed prefixLength stream).1 +
        (stream.map unexecuted).sum := by
  induction stream generalizing prefixLength with
  | nil => simp
  | cons chunk stream ih =>
    obtain ⟨hchunk, hshape⟩ := forall_mem_cons.mp hshape
    have hlater := ih ((fieldsMachine chunkSteps).step prefixLength chunk).1
      hshape
    have hstep : prefixLength + chunkSteps =
        (((fieldsMachine chunkSteps).step prefixLength chunk).2.map
            (·.length)).sum +
          ((fieldsMachine chunkSteps).step prefixLength chunk).1 +
          unexecuted chunk := by
      show prefixLength + chunkSteps =
        ((chunkFields chunkSteps prefixLength chunk).2.map (·.length)).sum +
          (chunkFields chunkSteps prefixLength chunk).1 + unexecuted chunk
      cases hdone : chunk.done with
      | false =>
        rw [chunkFields_live _ hdone, unexecuted, hdone]
        simp
      | true =>
        have hend := endIdx_lt hdone
        rw [chunkFields, findIdx?_ended hdone, unexecuted, hdone, hchunk]
        simp
        omega
    rw [Transducer.feed, map_append, sum_append, map_cons,
      sum_cons, length_cons, Nat.add_mul, Nat.one_mul]
    omega

end Fields

end VerlVla
