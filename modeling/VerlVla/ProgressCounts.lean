import VerlVla.RecordWindows
import VerlVla.WindowChopping

/-!
# Counting episodes while a rollout runs

The progress counters follow the feedback of every lane substep by substep.  An
episode is counted when `done` rises, and at most once in a chunk.  A `done`
that stays high over the end of a chunk is waited out, so the first substep of
the next episode is then not looked at.
-/

namespace VerlVla

open List hiding cons nil

open BaseEnv (Report)

/-! ## The counters -/

structure ProgressCounts where
  doneEps : ℕ
  succEps : ℕ
  deriving DecidableEq

def ProgressCounts.zero : ProgressCounts where
  doneEps := 0
  succEps := 0

/-- What is kept of a lane between the chunks. -/
structure LaneProgress where
  done : Bool
  success : Bool
  deriving DecidableEq

def LaneProgress.start : LaneProgress where
  done := false
  success := false

structure LaneCursor extends LaneProgress where
  completed : Bool

def countSubstep (state : ProgressCounts × LaneCursor) (report : Report) :
    ProgressCounts × LaneCursor :=
  let cursor := state.2
  let active := !cursor.done && !cursor.completed
  let carried := cursor.success || (active && report.success)
  let newlyDone := active && report.done
  let done := cursor.done || newlyDone
  let resumed := done && !report.done
  ({ doneEps := state.1.doneEps + newlyDone.toNat
     succEps := state.1.succEps + (newlyDone && carried).toNat },
    { done := done && !resumed
      success := carried && !newlyDone && !resumed
      completed := cursor.completed || newlyDone })

def countChunk (counts : ProgressCounts) (lane : LaneProgress)
    (chunk : List Report) : ProgressCounts × LaneProgress :=
  let final := chunk.foldl countSubstep
    (counts, { lane with completed := false })
  (final.1, final.2.toLaneProgress)

/-- The lanes do not read each other, so they are taken one after the other. -/
def updateProgressTrajectoryCounts (counts : ProgressCounts) :
    List LaneProgress → List (List Report) → ProgressCounts × List LaneProgress
  | lane :: lanes, chunk :: batch =>
    let next := countChunk counts lane chunk
    let final := updateProgressTrajectoryCounts next.1 lanes batch
    (final.1, next.2 :: final.2)
  | lanes, _ => (counts, lanes)

def countStream (state : ProgressCounts × LaneProgress)
    (stream : Episode ChunkInfo) : ProgressCounts × LaneProgress :=
  stream.foldl (fun state chunk => countChunk state.1 state.2 chunk.substeps)
    state

def progressOf (stream : Episode ChunkInfo) : ProgressCounts :=
  (countStream (.zero, .start) stream).1

def executedSubsteps (chunk : RolloutStep ChunkInfo) : List Report :=
  chunk.substeps.take (endIdx chunk + 1)

def executed (run : Episode ChunkInfo) : List Report :=
  (run.map executedSubsteps).flatten

def succeeded (run : Episode ChunkInfo) : Bool :=
  (executed run).any (·.success)

def heldDone (chunk : RolloutStep ChunkInfo) : Bool :=
  chunk.done && (chunk.substeps.drop (endIdx chunk + 1)).all (·.done)

def withHeld (held : Bool) :
    List (Episode ChunkInfo) → List (Bool × Episode ChunkInfo)
  | [] => []
  | run :: runs => (held, run) :: withHeld (run.getLast?.any heldDone) runs

def countedSuccess (episode : Bool × Episode ChunkInfo) : Bool :=
  ((executed episode.2).drop episode.1.toNat).any (·.success)

/-! ## One chunk -/

section Chunk

variable {counts : ProgressCounts} {chunk : RolloutStep ChunkInfo}
  {reports : List Report} {success : Bool}

theorem executedSubsteps_live (hlive : chunk.done = false) :
    executedSubsteps chunk = chunk.substeps := by
  have hnone : endIdx chunk = chunk.substeps.length := by
    rw [RolloutStep.done_eq_any, any_eq_false] at hlive
    rw [endIdx, findIdx_eq_length]
    intro report hreport
    exact Bool.eq_false_iff.mpr (hlive report hreport)
  exact take_of_length_le (by omega)

theorem foldl_live (hlive : ∀ report ∈ reports, report.done = false) :
    reports.foldl countSubstep
        (counts, { done := false, success := success, completed := false }) =
      (counts, { done := false
                 success := success || reports.any (·.success)
                 completed := false }) := by
  induction reports generalizing success with
  | nil => simp
  | cons report reports ih =>
    obtain ⟨hreport, hlive⟩ := forall_mem_cons.mp hlive
    have hstep : countSubstep
        (counts, { done := false, success := success, completed := false })
        report =
          (counts, { done := false
                     success := success || report.success
                     completed := false }) := by
      simp [countSubstep, hreport]
    rw [foldl_cons, hstep, ih hlive, any_cons, Bool.or_assoc]

theorem foldl_completed (done : Bool) :
    reports.foldl countSubstep
        (counts, { done := done, success := false, completed := true }) =
      (counts, { done := done && reports.all (·.done)
                 success := false
                 completed := true }) := by
  induction reports generalizing done with
  | nil => simp
  | cons report reports ih =>
    have hstep : countSubstep
        (counts, { done := done, success := false, completed := true })
        report =
          (counts, { done := done && report.done
                     success := false
                     completed := true }) := by
      cases done <;> cases hreport : report.done <;>
        simp [countSubstep, hreport]
    rw [foldl_cons, hstep, ih, all_cons, Bool.and_assoc]

theorem countChunk_live (hlive : chunk.done = false) :
    countChunk counts { done := false, success := success } chunk.substeps =
      (counts, { done := false
                 success := success ||
                   (executedSubsteps chunk).any (·.success) }) := by
  rw [executedSubsteps_live hlive, countChunk]
  rw [RolloutStep.done_eq_any, any_eq_false] at hlive
  rw [foldl_live fun report hreport =>
    Bool.eq_false_iff.mpr (hlive report hreport)]

theorem countChunk_held (hlive : chunk.done = false)
    (hnonempty : 0 < chunk.substeps.length) :
    countChunk counts { done := true, success := false } chunk.substeps =
      (counts, { done := false
                 success := ((executedSubsteps chunk).drop 1).any
                   (·.success) }) := by
  rw [executedSubsteps_live hlive, countChunk]
  rw [RolloutStep.done_eq_any, any_eq_false] at hlive
  cases hsubsteps : chunk.substeps with
  | nil =>
    simp [hsubsteps] at hnonempty
  | cons report reports =>
    rw [hsubsteps] at hlive
    obtain ⟨hreport, hreports⟩ := forall_mem_cons.mp hlive
    have hstep : countSubstep
        (counts, { done := true, success := false, completed := false })
        report =
          (counts, { done := false, success := false
                     completed := false }) := by
      simp [countSubstep, Bool.eq_false_iff.mpr hreport]
    rw [foldl_cons, hstep, foldl_live fun report hreport =>
      Bool.eq_false_iff.mpr (hreports report hreport)]
    rw [Bool.false_or, drop_one, tail_cons]

theorem countChunk_ended (hended : chunk.done = true) :
    countChunk counts { done := false, success := success } chunk.substeps =
      ({ doneEps := counts.doneEps + 1
         succEps := counts.succEps + (success ||
           (executedSubsteps chunk).any (·.success)).toNat },
        { done := heldDone chunk, success := false }) := by
  have hlt := endIdx_lt hended
  have hget : chunk.substeps[endIdx chunk].done = true :=
    findIdx_getElem (w := hlt)
  have hbefore : ∀ report ∈ chunk.substeps.take (endIdx chunk),
      report.done = false := by
    intro report hreport
    obtain ⟨index, hindex, rfl⟩ := mem_take_iff_getElem.mp hreport
    have hbound : index < endIdx chunk := by omega
    exact not_of_lt_findIdx hbound
  have hsplit : chunk.substeps = chunk.substeps.take (endIdx chunk) ++
      chunk.substeps[endIdx chunk] ::
        chunk.substeps.drop (endIdx chunk + 1) := by
    rw [← drop_eq_getElem_cons hlt, take_append_drop]
  have hexecuted : executedSubsteps chunk =
      chunk.substeps.take (endIdx chunk) ++
        [chunk.substeps[endIdx chunk]] := by
    rw [executedSubsteps, take_succ_eq_append_getElem hlt]
  have hstep : ∀ carried : Bool, countSubstep
      (counts, { done := false, success := carried, completed := false })
      chunk.substeps[endIdx chunk] =
        ({ doneEps := counts.doneEps + 1
           succEps := counts.succEps +
             (carried || chunk.substeps[endIdx chunk].success).toNat },
          { done := true, success := false, completed := true }) := by
    intro carried
    simp [countSubstep, hget]
  have hfold : chunk.substeps.foldl countSubstep
      (counts, { done := false, success := success, completed := false }) =
        ({ doneEps := counts.doneEps + 1
           succEps := counts.succEps + (success ||
             (executedSubsteps chunk).any (·.success)).toNat },
          { done := heldDone chunk, success := false
            completed := true }) := by
    rw [hexecuted, heldDone, hended]
    conv_lhs => rw [hsplit]
    rw [foldl_append, foldl_live hbefore, foldl_cons, hstep,
      foldl_completed, any_append, any_cons, any_nil,
      Bool.or_false, Bool.or_assoc, Bool.true_and]
  rw [countChunk, hfold]

end Chunk

/-! ## The chunks of a lane -/

def ProgressCounts.count (counts : ProgressCounts) (success : Bool) :
    ProgressCounts where
  doneEps := counts.doneEps + 1
  succEps := counts.succEps + success.toNat

section Stream

variable {counts : ProgressCounts} {lane : LaneProgress}
  {before stream rest : Episode ChunkInfo} {runs : List (Episode ChunkInfo)}
  {last : RolloutStep ChunkInfo} {held success : Bool} {chunkSteps : ℕ}

theorem executed_append (left right : Episode ChunkInfo) :
    executed (left ++ right) = executed left ++ executed right := by
  rw [executed, map_append, flatten_append]
  rfl

theorem executed_cons (chunk : RolloutStep ChunkInfo)
    (chunks : Episode ChunkInfo) :
    executed (chunk :: chunks) = executedSubsteps chunk ++ executed chunks :=
  rfl

theorem countStream_append (state : ProgressCounts × LaneProgress)
    (left right : Episode ChunkInfo) :
    countStream state (left ++ right) =
      countStream (countStream state left) right :=
  foldl_append

theorem countStream_carries (counts : ProgressCounts) (success : Bool)
    (hlive : ∀ chunk ∈ stream, chunk.done = false) :
    countStream (counts, { done := false, success := success }) stream =
      (counts, { done := false
                 success := success || (executed stream).any (·.success) }) := by
  induction stream generalizing success with
  | nil => simp [countStream, executed]
  | cons chunk stream ih =>
    obtain ⟨hchunk, hlive⟩ := forall_mem_cons.mp hlive
    have hlater := ih
      (success || (executedSubsteps chunk).any (·.success)) hlive
    rw [countStream, foldl_cons, countChunk_live hchunk]
    rw [countStream] at hlater
    rw [hlater, executed_cons, any_append, Bool.or_assoc]

theorem foldl_uncounted (state : ProgressCounts × LaneCursor)
    {reports : List Report}
    (hlive : ∀ report ∈ reports, report.done = false) :
    (reports.foldl countSubstep state).1 = state.1 := by
  induction reports generalizing state with
  | nil => rfl
  | cons report reports ih =>
    obtain ⟨hreport, hlive⟩ := forall_mem_cons.mp hlive
    rw [foldl_cons, ih _ hlive]
    simp [countSubstep, hreport]

theorem countStream_live (state : ProgressCounts × LaneProgress)
    (hlive : ∀ chunk ∈ stream, chunk.done = false) :
    (countStream state stream).1 = state.1 := by
  induction stream generalizing state with
  | nil => rfl
  | cons chunk stream ih =>
    obtain ⟨hchunk, hlive⟩ := forall_mem_cons.mp hlive
    rw [RolloutStep.done_eq_any, any_eq_false] at hchunk
    have hcounts : (countChunk state.1 state.2 chunk.substeps).1 = state.1 :=
      foldl_uncounted _ fun report hreport =>
        Bool.eq_false_iff.mpr (hchunk report hreport)
    have hlater := ih (countChunk state.1 state.2 chunk.substeps) hlive
    exact hlater.trans hcounts

/-- An episode of several chunks is counted once, with the success that it
shows where the counters look. -/
theorem countStream_run (hbefore : ∀ chunk ∈ before, chunk.done = false)
    (hlast : last.done = true) (hchunks : before ≠ [])
    (hnonempty : ∀ chunk ∈ before, 0 < chunk.substeps.length) :
    countStream (counts, { done := held, success := false })
        (before ++ [last]) =
      (counts.count (countedSuccess (held, before ++ [last])),
        { done := heldDone last, success := false }) := by
  cases before with
  | nil => exact absurd rfl hchunks
  | cons first more =>
    obtain ⟨hfirst, hmore⟩ := forall_mem_cons.mp hbefore
    have hsubsteps := hnonempty first mem_cons_self
    have hread : countStream (counts, { done := held, success := false })
        (first :: more) = (counts,
            { done := false
              success := ((executed (first :: more)).drop held.toNat).any
                (·.success) }) := by
      cases held with
      | false =>
        have hcarried := countStream_carries counts false hbefore
        simpa using hcarried
      | true =>
        have hcarried := countStream_carries counts
          (((executedSubsteps first).drop 1).any (·.success)) hmore
        have hlength : 1 ≤ (executedSubsteps first).length := by
          rw [executedSubsteps_live hfirst]
          exact hsubsteps
        rw [countStream] at hcarried
        rw [countStream, foldl_cons,
          countChunk_held hfirst hsubsteps, hcarried, executed_cons,
          Bool.toNat_true, drop_append_of_le_length hlength,
          any_append]
    have hlength : held.toNat ≤ (executed (first :: more)).length := by
      rw [executed_cons, executedSubsteps_live hfirst, length_append]
      have hbool := Bool.toNat_le held
      omega
    have hcounted : countedSuccess (held, first :: more ++ [last]) =
        (((executed (first :: more)).drop held.toNat).any (·.success) ||
          (executedSubsteps last).any (·.success)) := by
      rw [countedSuccess, executed_append,
        drop_append_of_le_length hlength, any_append]
      simp [executed]
    rw [countStream_append, hread, hcounted]
    exact countChunk_ended hlast

theorem countStream_cut (hcut : Cut RolloutStep.done stream runs rest)
    (hshape : ∀ chunk ∈ stream, chunk.substeps.length = chunkSteps)
    (hchunks : ∀ run ∈ runs, 2 ≤ run.length) :
    (countStream (counts, { done := held, success := false }) stream).1 =
      { doneEps := counts.doneEps + runs.length
        succEps := counts.succEps +
          (withHeld held runs).countP countedSuccess } := by
  induction runs generalizing counts held stream with
  | nil =>
    rw [hcut.joined, flatten_nil, nil_append]
    exact countStream_live _ hcut.live
  | cons run runs ih =>
    obtain ⟨⟨before, last, hrun, hbefore, hlast⟩, hclosed⟩ :=
      forall_mem_cons.mp hcut.closed
    obtain ⟨hlength, hchunks⟩ := forall_mem_cons.mp hchunks
    have hlater : Cut RolloutStep.done (runs.flatten ++ rest) runs rest :=
      ⟨rfl, hclosed, hcut.live⟩
    have hsplit : stream = run ++ (runs.flatten ++ rest) := by
      rw [hcut.joined, flatten_cons, append_assoc]
    rw [hsplit] at hshape
    obtain ⟨hshapeRun, hshapeLater⟩ := forall_mem_append.mp hshape
    have hpos : 0 < chunkSteps := by
      rw [← hshapeRun last (by rw [hrun]; simp)]
      exact Nat.lt_of_le_of_lt (Nat.zero_le _) (endIdx_lt hlast)
    have hnonempty : ∀ chunk ∈ before, 0 < chunk.substeps.length := by
      intro chunk hchunk
      rw [hshapeRun chunk (by rw [hrun]; exact mem_append_left _ hchunk)]
      exact hpos
    have hbeforeLength : before ≠ [] := by
      intro hnil
      rw [hrun, hnil] at hlength
      simp at hlength
    have hheld : run.getLast?.any heldDone = heldDone last := by
      rw [hrun, getLast?_concat]
      rfl
    rw [hsplit, countStream_append]
    conv_lhs => rw [hrun]
    rw [countStream_run hbefore hlast hbeforeLength hnonempty, ← hrun,
      ih hlater hshapeLater hchunks, withHeld, hheld, countP_cons,
      length_cons]
    cases hcounted : countedSuccess (held, run) with
    | false | true => simp [ProgressCounts.count]; omega

end Stream

/-! ## The lanes of a stage -/

def ProgressCounts.add (left right : ProgressCounts) : ProgressCounts where
  doneEps := left.doneEps + right.doneEps
  succEps := left.succEps + right.succEps

theorem countChunk_add (counts : ProgressCounts) (lane : LaneProgress)
    (chunk : List Report) :
    countChunk counts lane chunk = (counts.add (countChunk .zero lane chunk).1,
        (countChunk .zero lane chunk).2) := by
  have hfold : ∀ (cursor : LaneCursor) (earlier : ProgressCounts),
      chunk.foldl countSubstep (counts.add earlier, cursor) =
        (counts.add (chunk.foldl countSubstep (earlier, cursor)).1,
          (chunk.foldl countSubstep (earlier, cursor)).2) := by
    induction chunk with
    | nil => exact fun _ _ => rfl
    | cons report chunk ih =>
      intro cursor earlier
      have hstep : countSubstep (counts.add earlier, cursor) report =
          (counts.add (countSubstep (earlier, cursor) report).1,
            (countSubstep (earlier, cursor) report).2) := by
        simp [countSubstep, ProgressCounts.add, Nat.add_assoc]
      rw [foldl_cons, hstep, ih, foldl_cons]
  have hzero := hfold { lane with completed := false } .zero
  rw [countChunk, countChunk]
  have hcounts : counts.add .zero = counts := rfl
  rw [hcounts] at hzero
  rw [hzero]

theorem updateProgressTrajectoryCounts_eq (counts : ProgressCounts)
    (hlength : batch.length = lanes.length) :
    updateProgressTrajectoryCounts counts lanes batch =
      ((List.zipWith (countChunk .zero) lanes batch).foldl
          (fun total lane => total.add lane.1) counts,
        (List.zipWith (countChunk .zero) lanes batch).map (·.2)) := by
  induction lanes generalizing counts batch with
  | nil =>
    have hbatch := length_eq_zero_iff.mp hlength
    rw [hbatch, updateProgressTrajectoryCounts]
    · rfl
    · simp
  | cons lane lanes ih =>
    cases batch with
    | nil => cases hlength
    | cons chunk batch =>
      rw [updateProgressTrajectoryCounts, ih _ (Nat.succ.inj hlength),
        countChunk_add]
      rfl

end VerlVla
