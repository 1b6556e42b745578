import Mathlib.Data.List.Flatten
import VerlVla.EvalMetrics
import VerlVla.TransitionRun

/-!
# Attempts at evaluation items

A lane process takes the pieces of its work in order.  An item is tried until an
attempt leaves metrics; the missing items of a bundle are tried together, and
their metrics are split.  A process that raises or stops is started again, and
knows the earlier attempts only by the files they left.
-/

namespace VerlVla

open List hiding and

open Transition

/-! ## Lane processes -/

inductive EvalPhase
  | next (rest : List (List WorkItem))
  | attempting (item : WorkItem) (attempt : ℕ) (rest : List (List WorkItem))
  | evaluated (item : WorkItem) (attempt : ℕ) (rest : List (List WorkItem))
  | bundling (missing : List WorkItem) (attempt : ℕ)
      (rest : List (List WorkItem))
  | combined (missing : List WorkItem) (attempt : ℕ)
      (rest : List (List WorkItem))
  | splitting (missing : List WorkItem) (attempt : ℕ)
      (metrics : EvalMetrics) (items : List WorkItem)
      (rest : List (List WorkItem))
  | split (missing : List WorkItem) (attempt : ℕ) (metrics : EvalMetrics)
      (item : WorkItem) (items : List WorkItem)
      (rest : List (List WorkItem))

structure EvalWorld where
  files : EvalFiles
  lanes : ℕ → Option EvalPhase

inductive EvalLabel
  | start (lane : ℕ)
  | advance (lane : ℕ)
  | evaluate (lane : ℕ) (written : Option MetricsFile) (video : Bool)
  | crash (lane : ℕ)

inductive LaneError
  | metrics (error : MetricsError)
  | existingInvalid (error : MetricsError)
  | lane (error : EvalError)
  | itemFailed (itemId : String)
  | bundleFailed (itemIds : List String)
  deriving DecidableEq

/-- All attempts have ended without metrics. -/
def LaneError.isFailure : LaneError → Bool
  | .itemFailed _ => true
  | .bundleFailed _ => true
  | _ => false

inductive EvalOutput
  | started
  | skipped
  | taken
  | retried
  | evaluated
  | splits
  | wrote (itemId : String)
  | completed (itemId : String)
  | bundleCompleted
  | raised (error : LaneError)
  | finished
  | crashed
  deriving DecidableEq

def isComplete (files : EvalFiles) (itemId : String) : Bool :=
  (files.complete itemId).isSome

def writeMetrics (files : EvalFiles) (dir : AttemptDir)
    (metrics : EvalMetrics) : EvalFiles :=
  { files with
    metrics := Function.update files.metrics dir (some (.metrics metrics)) }

def writeMarker (files : EvalFiles) (item : WorkItem) (attempt : ℕ) :
    EvalFiles :=
  { files with
    complete := Function.update files.complete item.itemId
      (some ⟨item.itemId, attempt, .item item.itemId attempt⟩) }

def leave (files : EvalFiles) (dir : AttemptDir)
    (written : Option MetricsFile) (video : Bool) : EvalFiles :=
  { files with
    metrics := Function.update files.metrics dir
      (written.or (files.metrics dir))
    videos := fun other =>
      files.videos other || (decide (other = dir) && video) }

theorem leave_metrics_of_ne (hother : other ≠ dir)
    (written : Option MetricsFile) (video : Bool) :
    (leave files dir written video).metrics other = files.metrics other :=
  Function.update_of_ne hother _ _

theorem writeMetrics_of_ne (hother : other ≠ dir) (metrics : EvalMetrics) :
    (writeMetrics files dir metrics).metrics other = files.metrics other :=
  Function.update_of_ne hother _ _

/-- What a step of a process does: its output, the files, and the phase, if it
goes on. -/
abbrev Advanced := EvalOutput × EvalFiles × Option EvalPhase

section Steps

variable (run : EvalRun)

def attemptsPerItem : ℕ := run.manifest.spec.attemptsPerItem

def itemDir (item : WorkItem) (attempt : ℕ) : AttemptDir :=
  .item item.itemId attempt

/-- The next piece: what is missing of it is tried. -/
def takePiece (files : EvalFiles) (piece : List WorkItem)
    (rest : List (List WorkItem)) : Advanced :=
  match piece.mapM (readComplete run files) with
  | .error error => (.raised (.metrics error), files, none)
  | .ok _ =>
    match runCoalescedBundle run.manifest.spec.topology.numEnvs
        (isComplete files) piece with
    | .error error => (.raised (.lane error), files, none)
    | .ok [] => (.skipped, files, some (.next rest))
    | .ok ([item] :: _) => (.taken, files, some (.attempting item 1 rest))
    | .ok (missing :: _) =>
      (.taken, files, some (.bundling missing 1 rest))

def completeItem (files : EvalFiles) (item : WorkItem) (attempt : ℕ)
    (refuse : MetricsError → LaneError) (next : EvalPhase) : Advanced :=
  match validateMetrics run files (itemDir item attempt) item with
  | .error error => (.raised (refuse error), files, none)
  | .ok _ => (.completed item.itemId, writeMarker files item attempt,
      some next)

/-- A step of a process without its evaluator. -/
def advance (files : EvalFiles) : EvalPhase → Option Advanced
  | .next [] => some (.finished, files, none)
  | .next (piece :: rest) => some (takePiece run files piece rest)
  | .attempting item attempt rest =>
    if attemptsPerItem run < attempt then
      some (.raised (.itemFailed item.itemId), files, none)
    else
      match files.metrics (itemDir item attempt) with
      | none => none
      | some _ => some (completeItem run files item attempt
          .existingInvalid (.next rest))
  | .evaluated item attempt rest =>
    match files.metrics (itemDir item attempt) with
    | none =>
      some (.retried, files, some (.attempting item (attempt + 1) rest))
    | some _ =>
      some (completeItem run files item attempt .metrics (.next rest))
  | .bundling missing attempt _ =>
    if attemptsPerItem run < attempt then
      some (.raised (.bundleFailed (missing.map WorkItem.itemId)), files, none)
    else none
  | .combined missing attempt rest =>
    match files.metrics (bundleDir missing attempt) with
    | none =>
      some (.retried, files, some (.bundling missing (attempt + 1) rest))
    | some _ =>
      match readCombined files missing attempt with
      | .error error => some (.raised (.metrics error), files, none)
      | .ok metrics => some (.splits, files,
          some (.splitting missing attempt metrics missing rest))
  | .splitting _ _ _ [] rest =>
    some (.bundleCompleted, files, some (.next rest))
  | .splitting missing attempt metrics (item :: items) rest =>
    match splitMetrics run missing attempt metrics item with
    | .error error => some (.raised (.metrics error), files, none)
    | .ok part => some (.wrote item.itemId,
        writeMetrics files (itemDir item attempt) part,
        some (.split missing attempt metrics item items rest))
  | .split missing attempt metrics item items rest =>
    some (completeItem run files item attempt .metrics
      (.splitting missing attempt metrics items rest))

def evaluate (files : EvalFiles) (written : Option MetricsFile)
    (video : Bool) : EvalPhase → Option (EvalFiles × EvalPhase)
  | .attempting item attempt rest =>
    if attempt ≤ attemptsPerItem run ∧
        files.metrics (itemDir item attempt) = none then
      some (leave files (itemDir item attempt) written video,
        .evaluated item attempt rest)
    else none
  | .bundling missing attempt rest =>
    if attempt ≤ attemptsPerItem run then
      some (leave files (bundleDir missing attempt) written video,
        .combined missing attempt rest)
    else none
  | _ => none

def setLane (world : EvalWorld) (lane : ℕ) (files : EvalFiles)
    (phase : Option EvalPhase) : EvalWorld :=
  ⟨files, Function.update world.lanes lane phase⟩

@[simp] theorem setLane_self (world : EvalWorld) (lane : ℕ)
    (files : EvalFiles) (phase : Option EvalPhase) :
    (setLane world lane files phase).lanes lane = phase :=
  Function.update_self _ _ _

theorem setLane_of_ne (world : EvalWorld) (hother : other ≠ lane)
    (files : EvalFiles) (phase : Option EvalPhase) :
    (setLane world lane files phase).lanes other = world.lanes other :=
  Function.update_of_ne hother _ _

def evalLanes (work : ℕ → List (List WorkItem)) :
    Machine EvalWorld EvalLabel EvalOutput where
  step world
    | .start lane =>
      match world.lanes lane with
      | some _ => none
      | none => some (.started,
          setLane world lane world.files (some (.next (work lane))))
    | .advance lane =>
      match world.lanes lane with
      | none => none
      | some phase =>
        (advance run world.files phase).map fun advanced =>
          (advanced.1, setLane world lane advanced.2.1 advanced.2.2)
    | .evaluate lane written video =>
      match world.lanes lane with
      | none => none
      | some phase =>
        (evaluate run world.files written video phase).map fun ran =>
          (.evaluated, setLane world lane ran.1 (some ran.2))
    | .crash lane =>
      match world.lanes lane with
      | none => none
      | some _ => some (.crashed, setLane world lane world.files none)

end Steps

/-! ## Work of the lanes -/

/-- How the items of a run are shared among its lanes; a packed lane is one of
several plain ones on its device. -/
inductive LaneAssignment
  | plain (laneCount : ℕ)
  | coalesced (laneCount itemsPerEvaluator : ℕ)

def LaneAssignment.laneCount : LaneAssignment → ℕ
  | .plain laneCount => laneCount
  | .coalesced laneCount _ => laneCount

def LaneAssignment.bundles (manifest : RunManifest) :
    LaneAssignment → List (List WorkItem)
  | .plain _ => manifest.workItems.map fun item => [item]
  | .coalesced _ itemsPerEvaluator =>
    coalescedGroups manifest.workItems itemsPerEvaluator

def LaneAssignment.Accepted : LaneAssignment → Prop
  | .plain _ => True
  | .coalesced _ itemsPerEvaluator => 0 < itemsPerEvaluator

def LaneAssignment.work (assignment : LaneAssignment)
    (manifest : RunManifest) (lane : ℕ) : List (List WorkItem) :=
  laneShare (· % assignment.laneCount) lane (assignment.bundles manifest)

/-- Pieces of work that processes of different lanes take side by side. -/
structure LaneWorks (manifest : RunManifest)
    (work : ℕ → List (List WorkItem)) : Prop where
  bundled : ∀ lane, Bundled manifest (work lane)
  apart : ∀ left right, left ≠ right →
    ∀ item ∈ (work left).flatten, ∀ other ∈ (work right).flatten,
      item.itemId ≠ other.itemId

theorem LaneAssignment.bundled {manifest : RunManifest}
    (hloaded : LoadedManifest manifest) {assignment : LaneAssignment}
    (haccepted : assignment.Accepted) :
    Bundled manifest (assignment.bundles manifest) := by
  cases assignment with
  | coalesced laneCount itemsPerEvaluator =>
    exact bundled_coalescedGroups hloaded haccepted
  | plain laneCount =>
    have hflat : ((manifest.workItems.map fun item => [item]).flatten) =
        manifest.workItems := by
      rw [← flatMap_def]
      exact flatMap_singleton' _
    constructor
    · intro bundle hbundle item hitem
      obtain ⟨known, hknown, rfl⟩ := mem_map.mp hbundle
      rw [mem_singleton.mp hitem]
      exact hknown
    · intro bundle hbundle
      obtain ⟨known, hknown, rfl⟩ := mem_map.mp hbundle
      refine ⟨known.coalescingKey, fun item hitem => ?_⟩
      rw [mem_singleton.mp hitem]
    · simp only [LaneAssignment.bundles, hflat]
      exact hloaded.itemIds

theorem LaneAssignment.laneWorks (hloaded : LoadedManifest manifest)
    {assignment : LaneAssignment} (haccepted : assignment.Accepted) :
    LaneWorks manifest (assignment.work manifest) := by
  have hbundled := LaneAssignment.bundled hloaded haccepted
  constructor
  · intro lane
    have hsub := laneShare_sublist (· % assignment.laneCount) lane
      (assignment.bundles manifest)
    constructor
    · exact fun bundle hbundle =>
        hbundled.known bundle (hsub.subset hbundle)
    · exact fun bundle hbundle =>
        hbundled.key bundle (hsub.subset hbundle)
    · exact hbundled.itemIds.sublist (hsub.flatten.map _)
  · intro left right hne item hitem other hother hsame
    have hpair : [left, right].Nodup := by simp [hne]
    have hperm := perm_flatMap_laneShare (· % assignment.laneCount) hpair
      (assignment.bundles manifest)
    have hsub : (([left, right].flatMap fun lane => laneShare
        (· % assignment.laneCount) lane
          (assignment.bundles manifest)).flatten.map
        WorkItem.itemId).Nodup := by
      have hids := (hperm.flatten.map WorkItem.itemId).nodup_iff
      rw [hids]
      have hzip := (filter_sublist (p := fun entry : List WorkItem × ℕ =>
        decide (entry.2 % assignment.laneCount ∈ [left, right]))
        (l := (assignment.bundles manifest).zipIdx)).map Prod.fst
      rw [zipIdx_map_fst] at hzip
      exact hbundled.itemIds.sublist (hzip.flatten.map _)
    simp only [flatMap_cons, flatMap_nil, append_nil,
      flatten_append, map_append] at hsub
    have hdisjoint := disjoint_of_nodup_append hsub
    exact hdisjoint (mem_map_of_mem hitem) (hsame ▸ mem_map_of_mem hother)

end VerlVla
