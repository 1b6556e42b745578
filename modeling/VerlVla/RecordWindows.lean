import VerlVla.TrajectoryRecords

/-!
# Records across windows

The windows of a rollout stream are collected with one carried state.  How the
stream is cut shows in the returns only, and not even there if every return
carried so far is a single-precision number.
-/

namespace VerlVla

open List hiding cons length nil sum

structure ChunkedOutput.IsWindow (output : ChunkedOutput)
    (lanes chunkSteps : ℕ) : Prop where
  lanes : output.lanes.length = lanes
  chunkSteps : output.chunkSteps = chunkSteps
  steps : 0 < output.steps

def streamOf (lane : ℕ) (outputs : List ChunkedOutput) : Episode ChunkInfo :=
  laneOf lane (outputs.map (·.lanes))

def recordsOf (arithmetic : ReturnArithmetic) (lanes chunkSteps : ℕ)
    (outputs : List ChunkedOutput) : List (List (List TrajectoryRecord)) :=
  ((recordMachine arithmetic chunkSteps).feedLaneWindows
    (SegmentPrefix.carried arithmetic) (replicate lanes .zero)
    (outputs.map (·.lanes))).2

/-- The return of the open episode behind some chunks of a lane. -/
def partialReturn (arithmetic : ReturnArithmetic) (chunkSteps : ℕ)
    (stem : Episode ChunkInfo) : ℚ :=
  ((recordMachine arithmetic chunkSteps).feed .zero stem).1.total

/-- Every return that the lane can carry is kept by the conversion. -/
def CarriedExactly (arithmetic : ReturnArithmetic) (chunkSteps : ℕ)
    (stream : Episode ChunkInfo) : Prop :=
  ∀ stem, stem <+: stream →
    arithmetic.carry (partialReturn arithmetic chunkSteps stem) =
      partialReturn arithmetic chunkSteps stem

section Windows

variable {arithmetic : ReturnArithmetic} {lanes chunkSteps lane : ℕ}
  {outputs outputs' : List ChunkedOutput}

theorem prefixes_of_segments (segments : List SegmentPrefix) :
    CarryState.prefixes
        { length := some (segments.map (·.length))
          reward := some (segments.map (·.total)) } lanes =
      .ok segments := by
  have hzip : List.zipWith SegmentPrefix.mk (segments.map (·.length))
      (segments.map (·.total)) = segments := by
    rw [zipWith_map, zipWith_self]
    exact map_id segments
  exact congrArg Except.ok hzip

variable (arithmetic) in
theorem collectTrajectoryRecords_eq (hlanes : 0 < lanes)
    (houtput : output.IsWindow lanes chunkSteps)
    (hprefixes : carry.prefixes lanes = .ok segments)
    (hlength : segments.length = lanes) :
    ∃ carry', collectTrajectoryRecords arithmetic none carry output =
        .ok (carry', (((recordMachine arithmetic chunkSteps).feedLanes segments
          output.lanes).map (·.2)).flatten) ∧
      carry'.prefixes lanes =
        .ok (((recordMachine arithmetic chunkSteps).feedLanes segments
          output.lanes).map fun lane => lane.1.carried arithmetic) := by
  have hsize : 0 < output.lanes.length * output.steps := by
    rw [houtput.lanes]
    exact Nat.mul_pos hlanes houtput.steps
  have hfits : output.lanes.length = segments.length := by
    rw [houtput.lanes, hlength]
  have hread := collectLanes_eq arithmetic output.chunkSteps [] hfits
  rw [nil_append, houtput.chunkSteps] at hread
  refine ⟨_, ?_, prefixes_of_segments _⟩
  rw [collectTrajectoryRecords, if_neg (by simp), require_bind_eq_ok]
  constructor
  · exact hsize
  rw [bind_eq_ok]
  refine ⟨segments, by rw [houtput.lanes, hprefixes], ?_⟩
  rw [require_bind_eq_ok]
  constructor
  · exact hfits.le
  dsimp only
  rw [houtput.chunkSteps, hread]
  rfl

variable (arithmetic) in
theorem collectAll_eq (hlanes : 0 < lanes)
    (houtputs : ∀ output ∈ outputs, output.IsWindow lanes chunkSteps)
    (hprefixes : carry.prefixes lanes = .ok segments)
    (hlength : segments.length = lanes) :
    ∃ carry', collectAll arithmetic carry outputs =
        .ok (carry', ((recordMachine arithmetic chunkSteps).feedLaneWindows
          (SegmentPrefix.carried arithmetic) segments
          (outputs.map (·.lanes))).2.map List.flatten) ∧
      carry'.prefixes lanes =
        .ok ((recordMachine arithmetic chunkSteps).feedLaneWindows
          (SegmentPrefix.carried arithmetic) segments
          (outputs.map (·.lanes))).1 := by
  induction outputs generalizing carry segments with
  | nil => exact ⟨carry, rfl, hprefixes⟩
  | cons output outputs ih =>
    obtain ⟨houtput, houtputs⟩ := forall_mem_cons.mp houtputs
    obtain ⟨next, hnext, hnextPrefixes⟩ :=
      collectTrajectoryRecords_eq arithmetic hlanes houtput hprefixes hlength
    have hnextLength : (((recordMachine arithmetic chunkSteps).feedLanes
        segments output.lanes).map
          fun lane => lane.1.carried arithmetic).length = lanes := by
      rw [length_map, Transducer.feedLanes, length_zipWith,
        houtput.lanes, hlength, Nat.min_self]
    obtain ⟨final, hfinal, hfinalPrefixes⟩ :=
      ih houtputs hnextPrefixes hnextLength
    refine ⟨final, ?_, hfinalPrefixes⟩
    rw [collectAll, bind_eq_ok]
    refine ⟨_, hnext, ?_⟩
    rw [bind_eq_ok]
    exact ⟨_, hfinal, rfl⟩

variable (arithmetic) in
theorem lane_of_windows
    (houtputs : ∀ output ∈ outputs, output.IsWindow lanes chunkSteps)
    (hlane : lane < lanes) :
    ∃ segment, ((recordMachine arithmetic chunkSteps).feedLaneWindows
          (SegmentPrefix.carried arithmetic) (replicate lanes .zero)
          (outputs.map (·.lanes))).1[lane]? = some segment ∧
        segment.length =
          ((fieldsMachine chunkSteps).feed 0 (streamOf lane outputs)).1 ∧
        (laneOf lane (recordsOf arithmetic lanes chunkSteps outputs)).map
            (·.toRecordFields) =
          ((fieldsMachine chunkSteps).feed 0 (streamOf lane outputs)).2 ∧
        (CarriedExactly arithmetic chunkSteps (streamOf lane outputs) →
          laneOf lane (recordsOf arithmetic lanes chunkSteps outputs) =
            ((recordMachine arithmetic chunkSteps).feed .zero
              (streamOf lane outputs)).2) := by
  have hwidth : ∀ window ∈ outputs.map (·.lanes), window.length =
      (replicate lanes SegmentPrefix.zero).length := by
    intro window hwindow
    obtain ⟨output, houtput, rfl⟩ := mem_map.mp hwindow
    rw [length_replicate]
    exact (houtputs output houtput).lanes
  have hstate : (replicate lanes SegmentPrefix.zero)[lane]? = some .zero := by
    rw [getElem?_replicate, if_pos hlane]
  obtain ⟨hfinal, hrecords⟩ :=
    (recordMachine arithmetic chunkSteps).feedLaneWindows_lane
      (SegmentPrefix.carried arithmetic) hwidth hstate
  obtain ⟨hlength, hfields⟩ :=
    (recordMachine_views arithmetic chunkSteps).feedWindows
      (SegmentPrefix.carried arithmetic) (fun _ => rfl) .zero
      ((outputs.map (·.lanes)).map fun window => window.getD lane [])
  refine ⟨_, hfinal, hlength, ?_, ?_⟩
  · rw [recordsOf, hrecords]
    exact hfields
  · intro hexact
    have hstored : ∀ stem, stem <+: streamOf lane outputs →
        ((recordMachine arithmetic chunkSteps).feed .zero stem).1.carried
            arithmetic =
          ((recordMachine arithmetic chunkSteps).feed .zero stem).1 := by
      intro stem hstem
      have htotal := hexact stem hstem
      rw [partialReturn] at htotal
      rw [SegmentPrefix.carried, htotal]
    rw [recordsOf, hrecords]
    exact (Transducer.feedWindows_of_stored _ hstored).2

theorem streamOf_shape
    (houtputs : ∀ output ∈ outputs, output.IsWindow lanes chunkSteps) :
    ∀ chunk ∈ streamOf lane outputs, chunk.substeps.length = chunkSteps := by
  intro chunk hchunk
  obtain ⟨window, hwindow, hmem⟩ := mem_flatten.mp hchunk
  rw [map_map] at hwindow
  obtain ⟨output, houtput, rfl⟩ := mem_map.mp hwindow
  rw [Function.comp_apply] at hmem
  by_cases hlane : lane < output.lanes.length
  · rw [getD_eq_getElem _ _ hlane] at hmem
    have hshaped := output.shaped _ (getElem_mem hlane)
    rw [hshaped.2 chunk hmem]
    exact (houtputs output houtput).chunkSteps
  · rw [getD_eq_default _ _ (Nat.le_of_not_lt hlane)] at hmem
    cases hmem

end Windows

/-! ## The records of a stream -/

/-- Two ways to cut the same lanes into windows report the same episodes, one
record for each run.  The returns are the same if they are carried exactly. -/
theorem records_keep_windows (arithmetic : ReturnArithmetic)
    (lanes chunkSteps : ℕ) (outputs outputs' : List ChunkedOutput)
    (hlanes : 0 < lanes)
    (houtputs : ∀ output ∈ outputs, output.IsWindow lanes chunkSteps)
    (houtputs' : ∀ output ∈ outputs', output.IsWindow lanes chunkSteps)
    (hstreams : ∀ lane < lanes, streamOf lane outputs = streamOf lane outputs') :
    let records := recordsOf arithmetic lanes chunkSteps outputs
    let records' := recordsOf arithmetic lanes chunkSteps outputs'
    ∃ carry carry' segments, collectAll arithmetic .empty outputs =
        .ok (carry, records.map List.flatten) ∧
      collectAll arithmetic .empty outputs' =
        .ok (carry', records'.map List.flatten) ∧
      carry.prefixes lanes = .ok segments ∧
      ∀ lane < lanes, (laneOf lane records).map (·.toRecordFields) =
          (laneOf lane records').map (·.toRecordFields) ∧
        (∃ runs rest, Cut RolloutStep.done (streamOf lane outputs) runs rest ∧
            Forall₂ (RecordsRun chunkSteps) runs
              ((laneOf lane records).map (·.toRecordFields))) ∧
        (∃ segment, segments[lane]? = some segment ∧
          (streamOf lane outputs).length * chunkSteps =
            ((laneOf lane records).map (·.length)).sum + segment.length +
              ((streamOf lane outputs).map unexecuted).sum) ∧
        (CarriedExactly arithmetic chunkSteps (streamOf lane outputs) →
          laneOf lane records = laneOf lane records') := by
  have hempty : CarryState.empty.prefixes lanes =
      .ok (replicate lanes .zero) := rfl
  have hzeros : (replicate lanes SegmentPrefix.zero).length = lanes :=
    length_replicate
  obtain ⟨carry, hcollect, hprefixes⟩ :=
    collectAll_eq arithmetic hlanes houtputs hempty hzeros
  obtain ⟨carry', hcollect', _⟩ :=
    collectAll_eq arithmetic hlanes houtputs' hempty hzeros
  refine ⟨carry, carry', _, hcollect, hcollect', hprefixes, ?_⟩
  intro lane hlane
  obtain ⟨segment, hsegment, hlength, hfields, hexact⟩ :=
    lane_of_windows arithmetic houtputs hlane
  obtain ⟨_, _, _, hfields', hexact'⟩ :=
    lane_of_windows arithmetic houtputs' hlane
  have hshape : ∀ chunk ∈ streamOf lane outputs,
      chunk.substeps.length = chunkSteps :=
    streamOf_shape houtputs
  constructor
  · rw [hfields, hfields', hstreams lane hlane]
  constructor
  · obtain ⟨runs, rest, hcut⟩ :=
      Cut.existing RolloutStep.done (streamOf lane outputs)
    refine ⟨runs, rest, hcut, ?_⟩
    rw [hfields]
    exact feedFields_stream hcut hshape
  constructor
  · refine ⟨segment, hsegment, ?_⟩
    have hlengths := feedFields_lengths 0 hshape
    rw [← hfields, ← hlength, map_map, Nat.zero_add] at hlengths
    exact hlengths
  · intro hcarried
    have hcarried' := hcarried
    rw [hstreams lane hlane] at hcarried'
    rw [hexact hcarried, hexact' hcarried', hstreams lane hlane]

namespace RecordRun

def chunk (reward : ℚ) (terminated : Bool) : RolloutStep ChunkInfo where
  substeps :=
    [{ reward := reward
       terminated := terminated
       truncated := false
       success := terminated }]
  data := { taskId := 1, evalEpisodeId := none, scores := none }

def window (chunks : Episode ChunkInfo)
    (hshape : ∀ chunk ∈ chunks, chunk.substeps.length = 1) : ChunkedOutput where
  steps := chunks.length
  chunkSteps := 1
  lanes := [chunks]
  shaped := forall_mem_singleton.mpr ⟨rfl, hshape⟩

def whole : ChunkedOutput :=
  window [chunk 16777216 false, chunk 1 false, chunk 0 true] (by decide)

def early : ChunkedOutput :=
  window [chunk 16777216 false, chunk 1 false] (by decide)

def late : ChunkedOutput :=
  window [chunk 0 true] (by decide)

def record (episodeReturn : ℚ) : TrajectoryRecord where
  length := 3
  chunkLength := 3
  success := true
  taskId := 1
  score := none
  evalEpisodeId := none
  episodeReturn := episodeReturn

def exactArithmetic : ReturnArithmetic where
  sum := List.sum
  add := (· + ·)
  carry := id

end RecordRun

open RecordRun in
theorem records_keep_windows_exactly :
    laneOf 0 (recordsOf exactArithmetic 1 1 [whole]) =
      laneOf 0 (recordsOf exactArithmetic 1 1 [early, late]) := by
  have hwhole : ∀ output ∈ [whole], output.IsWindow 1 1 :=
    forall_mem_singleton.mpr ⟨rfl, rfl, by decide⟩
  have hparts : ∀ output ∈ [early, late], output.IsWindow 1 1 :=
    forall_mem_cons.mpr ⟨⟨rfl, rfl, by decide⟩,
      forall_mem_singleton.mpr ⟨rfl, rfl, by decide⟩⟩
  have hstreams : ∀ lane < 1,
      streamOf lane [whole] = streamOf lane [early, late] := by decide
  obtain ⟨_, _, _, _, _, _, hlanes⟩ := records_keep_windows exactArithmetic 1 1
    [whole] [early, late] Nat.one_pos hwhole hparts hstreams
  exact (hlanes 0 Nat.one_pos).2.2.2 fun _ _ => rfl

/-- The sum `16777217` has no single-precision number. -/
theorem returns_depend_on_windows :
    streamOf 0 [RecordRun.whole] =
        streamOf 0 [RecordRun.early, RecordRun.late] ∧
      (collectAll floatArithmetic .empty [RecordRun.whole]).toOption.map
          (·.2) = some [[RecordRun.record 16777217]] ∧
      (collectAll floatArithmetic .empty
          [RecordRun.early, RecordRun.late]).toOption.map (·.2) =
        some [[], [RecordRun.record 16777216]] := by
  constructor
  · decide
  constructor
  · decide +kernel
  · decide +kernel

end VerlVla
