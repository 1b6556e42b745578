import Mathlib
import VerlVla.EvalAttempts

/-!
# Completion of evaluation items

What a lane process holds in each phase is what is missing of the pieces it has
taken.  A marker is written for valid metrics only.  While no evaluator leaves
metrics that are not valid, and no process stops among the parts of a bundle, an
attempt that leaves metrics completes its items, whenever the lane is started.
-/

namespace VerlVla

open Transition

variable {run : EvalRun} {work : ℕ → List (List WorkItem)}

/-! ## Steps of a process -/

namespace EvalPhase

/-- The pieces a process has not taken yet. -/
def rest : EvalPhase → List (List WorkItem)
  | .next rest => rest
  | .attempting _ _ rest => rest
  | .evaluated _ _ rest => rest
  | .bundling _ _ rest => rest
  | .combined _ _ rest => rest
  | .splitting _ _ _ _ rest => rest
  | .split _ _ _ _ _ rest => rest

/-- The items it has taken and not completed. -/
def pending : EvalPhase → List WorkItem
  | .next _ => []
  | .attempting item _ _ => [item]
  | .evaluated item _ _ => [item]
  | .bundling missing _ _ => missing
  | .combined missing _ _ => missing
  | .splitting _ _ _ items _ => items
  | .split _ _ _ item items _ => item :: items

/-- Attempts are counted from one, and several items share a bundle. -/
def Numbered : EvalPhase → Prop
  | .attempting _ attempt _ => 1 ≤ attempt
  | .evaluated _ attempt _ => 1 ≤ attempt
  | .bundling missing attempt _ => 2 ≤ missing.length ∧ 1 ≤ attempt
  | .combined missing attempt _ => 2 ≤ missing.length ∧ 1 ≤ attempt
  | _ => True

def completing : EvalPhase → Option (WorkItem × ℕ × EvalPhase)
  | .attempting item attempt rest => some (item, attempt, .next rest)
  | .evaluated item attempt rest => some (item, attempt, .next rest)
  | .split missing attempt metrics item items rest =>
    some (item, attempt, .splitting missing attempt metrics items rest)
  | _ => none

end EvalPhase

/-- A process raises an error of its own. -/
def Refuses (run : EvalRun) (files : EvalFiles) : EvalPhase → Prop
  | .next (piece :: _) =>
    (∃ error, piece.mapM (readComplete run files) = .error error) ∨
      ∃ error, runCoalescedBundle run.manifest.spec.topology.numEnvs
        (isComplete files) piece = .error error
  | .attempting item attempt _ =>
    (files.metrics (itemDir item attempt)).isSome = true ∧
      ∃ error, validateMetrics run files (itemDir item attempt) item =
        .error error
  | .evaluated item attempt _ =>
    (files.metrics (itemDir item attempt)).isSome = true ∧
      ∃ error, validateMetrics run files (itemDir item attempt) item =
        .error error
  | .combined missing attempt _ =>
    (files.metrics (bundleDir missing attempt)).isSome = true ∧
      ∃ error, readCombined files missing attempt = .error error
  | .splitting missing attempt metrics (item :: _) _ =>
    ∃ error, splitMetrics run missing attempt metrics item = .error error
  | .split _ attempt _ item _ _ =>
    ∃ error, validateMetrics run files (itemDir item attempt) item =
      .error error
  | _ => False

inductive Advances (run : EvalRun) (files : EvalFiles) :
    EvalPhase → EvalOutput → EvalFiles → Option EvalPhase → Prop
  | finish : Advances run files (.next []) .finished files none
  | skip {piece rest} (hmissing : incomplete (isComplete files) piece = []) :
      Advances run files (.next (piece :: rest)) .skipped files
        (some (.next rest))
  | takeItem {piece rest item}
      (hmissing : incomplete (isComplete files) piece = [item]) :
      Advances run files (.next (piece :: rest)) .taken files
        (some (.attempting item 1 rest))
  | takeBundle {piece rest missing}
      (hmissing : incomplete (isComplete files) piece = missing)
      (hwide : 2 ≤ missing.length) :
      Advances run files (.next (piece :: rest)) .taken files
        (some (.bundling missing 1 rest))
  | refuse {phase error} (hrefuses : Refuses run files phase)
      (herror : error.isFailure = false) :
      Advances run files phase (.raised error) files none
  | complete {phase item attempt after metrics}
      (hphase : phase.completing = some (item, attempt, after))
      (hvalid : validateMetrics run files (itemDir item attempt) item =
        .ok metrics) :
      Advances run files phase (.completed item.itemId)
        (writeMarker files item attempt) (some after)
  | failItem {item attempt rest}
      (hspent : attemptsPerItem run < attempt) :
      Advances run files (.attempting item attempt rest)
        (.raised (.itemFailed item.itemId)) files none
  | failBundle {missing attempt rest}
      (hspent : attemptsPerItem run < attempt) :
      Advances run files (.bundling missing attempt rest)
        (.raised (.bundleFailed (missing.map WorkItem.itemId))) files none
  | retryItem {item attempt rest}
      (hnone : files.metrics (itemDir item attempt) = none) :
      Advances run files (.evaluated item attempt rest) .retried files
        (some (.attempting item (attempt + 1) rest))
  | retryBundle {missing attempt rest}
      (hnone : files.metrics (bundleDir missing attempt) = none) :
      Advances run files (.combined missing attempt rest) .retried files
        (some (.bundling missing (attempt + 1) rest))
  | splits {missing attempt rest metrics}
      (hread : readCombined files missing attempt = .ok metrics)
      (hsome : (files.metrics (bundleDir missing attempt)).isSome = true) :
      Advances run files (.combined missing attempt rest) .splits files
        (some (.splitting missing attempt metrics missing rest))
  | bundleDone {missing attempt metrics rest} :
      Advances run files (.splitting missing attempt metrics [] rest)
        .bundleCompleted files (some (.next rest))
  | write {missing attempt metrics item items rest part}
      (hpart : splitMetrics run missing attempt metrics item = .ok part) :
      Advances run files
        (.splitting missing attempt metrics (item :: items) rest)
        (.wrote item.itemId) (writeMetrics files (itemDir item attempt) part)
        (some (.split missing attempt metrics item items rest))

theorem runCoalescedBundle_cases
    (hruns : runCoalescedBundle numEnvs complete bundle = .ok runs) :
    (incomplete complete bundle = [] ∧ runs = []) ∨
      (∃ item, incomplete complete bundle = [item] ∧ runs = [[item]]) ∨
      ∃ missing, incomplete complete bundle = missing ∧
        2 ≤ missing.length ∧ runs = [missing] := by
  unfold runCoalescedBundle at hruns
  split at hruns
  · rename_i hmissing
    exact .inl ⟨hmissing, (Except.ok.inj hruns).symm⟩
  · rename_i item hmissing
    exact .inr (.inl ⟨item, hmissing, (Except.ok.inj hruns).symm⟩)
  · rename_i first second rest hmissing
    simp only [require_bind_eq_ok] at hruns
    refine .inr (.inr ⟨_, hmissing, ?_, (Except.ok.inj hruns.2.2).symm⟩)
    simp

variable {files : EvalFiles} {item : WorkItem} {output : EvalOutput}
  {written : Option MetricsFile} {video : Bool}
  {pieces : List (List WorkItem)} {items : List WorkItem} {world : EvalWorld}
  {label : EvalLabel}

theorem advances_completeItem
    (hphase : phase.completing = some (item, attempt, after))
    (hrefuse : ∀ error, (refuse error).isFailure = false)
    (hrefuses : (∃ error, validateMetrics run files (itemDir item attempt)
      item = .error error) → Refuses run files phase)
    (hstep : completeItem run files item attempt refuse after =
      (output, next, phase')) :
    Advances run files phase output next phase' := by
  unfold completeItem at hstep
  split at hstep
  · rename_i error hinvalid
    cases hstep
    exact .refuse (hrefuses ⟨error, hinvalid⟩) (hrefuse error)
  · rename_i metrics hvalid
    cases hstep
    exact .complete hphase hvalid

theorem advances_takePiece
    (hstep : takePiece run files piece rest = (output, next, phase)) :
    Advances run files (.next (piece :: rest)) output next phase := by
  unfold takePiece at hstep
  split at hstep
  · rename_i error hread
    cases hstep
    exact .refuse (.inl ⟨error, hread⟩) rfl
  · cases hruns : runCoalescedBundle run.manifest.spec.topology.numEnvs
        (isComplete files) piece with
    | error error =>
      rw [hruns] at hstep
      cases hstep
      exact .refuse (.inr ⟨error, hruns⟩) rfl
    | ok runs =>
      rw [hruns] at hstep
      rcases runCoalescedBundle_cases hruns with
        ⟨hmissing, rfl⟩ | ⟨item, hmissing, rfl⟩ |
          ⟨missing, hmissing, hwide, rfl⟩
      · cases hstep
        exact .skip hmissing
      · cases hstep
        exact .takeItem hmissing
      · cases missing with
        | nil => simp at hwide
        | cons first others =>
          cases others with
          | nil => simp at hwide
          | cons second others =>
            cases hstep
            exact .takeBundle hmissing hwide

theorem advances_of_advance
    (hstep : advance run files phase = some (output, next, phase')) :
    Advances run files phase output next phase' := by
  cases phase with
  | next rest =>
    cases rest with
    | nil =>
      simp only [advance] at hstep
      cases hstep
      exact .finish
    | cons piece rest =>
      exact advances_takePiece (Option.some.inj hstep)
  | attempting item attempt rest =>
    simp only [advance] at hstep
    split_ifs at hstep with hspent
    · cases hstep
      exact .failItem hspent
    · cases hfile : files.metrics (itemDir item attempt) with
      | none => simp [hfile] at hstep
      | some file =>
        simp only [hfile, Option.some.injEq] at hstep
        refine advances_completeItem rfl (fun _ => rfl) ?_ hstep
        exact fun hinvalid => ⟨by rw [hfile]; rfl, hinvalid⟩
  | evaluated item attempt rest =>
    cases hfile : files.metrics (itemDir item attempt) with
    | none =>
      simp only [advance, hfile] at hstep
      cases hstep
      exact .retryItem hfile
    | some file =>
      simp only [advance, hfile, Option.some.injEq] at hstep
      refine advances_completeItem rfl (fun _ => rfl) ?_ hstep
      exact fun hinvalid => ⟨by rw [hfile]; rfl, hinvalid⟩
  | bundling missing attempt rest =>
    simp only [advance] at hstep
    split_ifs at hstep with hspent
    cases hstep
    exact .failBundle hspent
  | combined missing attempt rest =>
    cases hfile : files.metrics (bundleDir missing attempt) with
    | none =>
      simp only [advance, hfile] at hstep
      cases hstep
      exact .retryBundle hfile
    | some file =>
      have hsome : (files.metrics (bundleDir missing attempt)).isSome =
          true := by
        rw [hfile]
        rfl
      cases hread : readCombined files missing attempt with
      | error error =>
        simp only [advance, hfile, hread] at hstep
        cases hstep
        exact .refuse ⟨hsome, error, hread⟩ rfl
      | ok metrics =>
        simp only [advance, hfile, hread] at hstep
        cases hstep
        exact .splits hread hsome
  | splitting missing attempt metrics items rest =>
    cases items with
    | nil =>
      simp only [advance] at hstep
      cases hstep
      exact .bundleDone
    | cons item items =>
      cases hpart : splitMetrics run missing attempt metrics item with
      | error error =>
        simp only [advance, hpart] at hstep
        cases hstep
        exact .refuse ⟨error, hpart⟩ rfl
      | ok part =>
        simp only [advance, hpart] at hstep
        cases hstep
        exact .write hpart
  | split missing attempt metrics item items rest =>
    exact advances_completeItem rfl (fun _ => rfl) id (Option.some.inj hstep)

inductive Evaluates (run : EvalRun) (files : EvalFiles)
    (written : Option MetricsFile) (video : Bool) :
    EvalPhase → EvalFiles → EvalPhase → Prop
  | item {item attempt rest} (hleft : attempt ≤ attemptsPerItem run)
      (hnone : files.metrics (itemDir item attempt) = none) :
      Evaluates run files written video (.attempting item attempt rest)
        (leave files (itemDir item attempt) written video)
        (.evaluated item attempt rest)
  | bundle {missing attempt rest} (hleft : attempt ≤ attemptsPerItem run) :
      Evaluates run files written video (.bundling missing attempt rest)
        (leave files (bundleDir missing attempt) written video)
        (.combined missing attempt rest)

theorem evaluates_of_evaluate
    (hstep : evaluate run files written video phase = some (next, phase')) :
    Evaluates run files written video phase next phase' := by
  cases phase with
  | attempting item attempt rest =>
    simp only [evaluate] at hstep
    split_ifs at hstep with hguard
    cases hstep
    exact .item hguard.1 hguard.2
  | bundling missing attempt rest =>
    simp only [evaluate] at hstep
    split_ifs at hstep with hleft
    cases hstep
    exact .bundle hleft
  | next _ | evaluated _ _ _ | combined _ _ _ | splitting _ _ _ _ _
  | split _ _ _ _ _ _ => simp [evaluate] at hstep

/-! ## What a process has taken -/

structure Placed (files : EvalFiles) (pieces : List (List WorkItem))
    (phase : EvalPhase) : Prop where
  numbered : phase.Numbered
  taken : ∃ taken, pieces = taken ++ phase.rest ∧
    incomplete (isComplete files) taken.flatten = phase.pending
  last : phase.pending ≠ [] → ∃ earlier piece,
    pieces = earlier ++ piece :: phase.rest ∧
      incomplete (isComplete files) earlier.flatten = []

theorem Placed.pending_mem (hplaced : Placed files pieces phase)
    (hitem : item ∈ phase.pending) :
    item ∈ pieces.flatten ∧ isComplete files item.itemId = false := by
  obtain ⟨taken, rfl, hpending⟩ := hplaced.taken
  rw [← hpending] at hitem
  obtain ⟨hmem, hmissing⟩ := List.mem_filter.mp hitem
  rw [List.flatten_append]
  refine ⟨List.mem_append_left _ hmem, ?_⟩
  simpa using hmissing

theorem incomplete_append (complete : String → Bool)
    (left right : List WorkItem) :
    incomplete complete (left ++ right) =
      incomplete complete left ++ incomplete complete right :=
  List.filter_append _ _

theorem incomplete_congr (hcomplete : ∀ item ∈ items,
      after.complete item.itemId = before.complete item.itemId) :
    incomplete (isComplete after) items =
      incomplete (isComplete before) items := by
  apply List.filter_congr
  intro item hitem
  unfold isComplete
  rw [hcomplete item hitem]

theorem incomplete_nil_mono (hnone : incomplete (isComplete before) items = [])
    (hcompleted : ∀ itemId, isComplete before itemId = true →
      isComplete after itemId = true) :
    incomplete (isComplete after) items = [] := by
  apply List.filter_eq_nil_iff.mpr
  intro item hitem
  have hbefore := List.filter_eq_nil_iff.mp hnone item hitem
  simp only [Bool.not_eq_true', Bool.not_eq_false] at hbefore ⊢
  exact hcompleted _ hbefore

theorem complete_of_incomplete_nil
    (hnone : incomplete (isComplete files) items = [])
    (hitem : item ∈ items) : isComplete files item.itemId = true := by
  have hbefore := List.filter_eq_nil_iff.mp hnone item hitem
  simpa using hbefore

theorem complete_writeMarker (files : EvalFiles) (item : WorkItem)
    (attempt : ℕ) (itemId : String) :
    isComplete (writeMarker files item attempt) itemId =
      (decide (itemId = item.itemId) || isComplete files itemId) := by
  unfold isComplete writeMarker
  by_cases hsame : itemId = item.itemId
  · subst hsame
    simp
  · simp [hsame]

theorem incomplete_writeMarker (hids : (items.map WorkItem.itemId).Nodup)
    (hmissing : incomplete (isComplete files) items = item :: pending) :
    incomplete (isComplete (writeMarker files item attempt)) items =
      pending := by
  have hsub := incomplete_sublist (isComplete files) items
  rw [hmissing] at hsub
  have hpending := hids.sublist (hsub.map WorkItem.itemId)
  rw [List.map_cons, List.nodup_cons] at hpending
  have hfilter : incomplete (isComplete (writeMarker files item attempt))
      items = (incomplete (isComplete files) items).filter
        fun other => other.itemId ≠ item.itemId := by
    unfold incomplete
    rw [List.filter_filter]
    apply List.filter_congr
    intro other _
    rw [complete_writeMarker]
    by_cases hsame : other.itemId = item.itemId
    · simp [hsame]
    · simp [hsame]
  rw [hfilter, hmissing, List.filter_cons_of_neg (by simp)]
  apply List.filter_eq_self.mpr
  intro other hother
  apply decide_eq_true
  intro hsame
  exact hpending.1 (hsame ▸ List.mem_map_of_mem hother)

/-- How the files change in a step of a process with these pieces. -/
structure FilesStep (pieces : List (List WorkItem))
    (before after : EvalFiles) : Prop where
  complete : ∀ itemId, (∀ item ∈ pieces.flatten, item.itemId ≠ itemId) →
    after.complete itemId = before.complete itemId
  metrics : ∀ (item : WorkItem) (attempt : ℕ),
    (∀ other ∈ pieces.flatten, other.itemId ≠ item.itemId) →
    after.metrics (itemDir item attempt) =
      before.metrics (itemDir item attempt)
  bundles : ∀ (missing : List WorkItem) (attempt : ℕ), (∃ item ∈ missing,
      ∀ other ∈ pieces.flatten, other.itemId ≠ item.itemId) →
    after.metrics (bundleDir missing attempt) =
      before.metrics (bundleDir missing attempt)
  kept : ∀ dir, (before.metrics dir).isSome = true →
    (after.metrics dir).isSome = true
  videos : ∀ dir, before.videos dir = true → after.videos dir = true
  completed : ∀ itemId, isComplete before itemId = true →
    isComplete after itemId = true

theorem FilesStep.refl (pieces : List (List WorkItem)) (files : EvalFiles) :
    FilesStep pieces files files :=
  ⟨fun _ _ => rfl, fun _ _ _ => rfl, fun _ _ _ => rfl, fun _ => id,
    fun _ => id, fun _ => id⟩

theorem filesStep_writeMarker (hitem : item ∈ pieces.flatten) (attempt : ℕ) :
    FilesStep pieces files (writeMarker files item attempt) := by
  constructor
  · intro itemId hother
    exact Function.update_of_ne (Ne.symm (hother item hitem)) _ _
  · exact fun _ _ _ => rfl
  · exact fun _ _ _ => rfl
  · exact fun _ => id
  · exact fun _ => id
  · intro itemId hcomplete
    rw [complete_writeMarker, hcomplete, Bool.or_true]

structure DirOf (pieces : List (List WorkItem)) (dir : AttemptDir) : Prop where
  item : ∀ (item : WorkItem) (attempt : ℕ), dir = itemDir item attempt →
    ∃ other ∈ pieces.flatten, other.itemId = item.itemId
  bundle : ∀ (missing : List WorkItem) (attempt : ℕ),
    dir = bundleDir missing attempt →
    ∀ item ∈ missing, ∃ other ∈ pieces.flatten, other.itemId = item.itemId

theorem dirOf_itemDir (hitem : item ∈ pieces.flatten) (attempt : ℕ) :
    DirOf pieces (itemDir item attempt) := by
  constructor
  · intro other otherAttempt hsame
    exact ⟨item, hitem, (AttemptDir.item.inj hsame).1⟩
  · exact nofun

theorem dirOf_bundleDir (hmissing : ∀ item ∈ missing,
      item ∈ pieces.flatten) (attempt : ℕ) :
    DirOf pieces (bundleDir missing attempt) := by
  constructor
  · exact nofun
  · intro others otherAttempt hsame item hitem
    have hids := (AttemptDir.bundle.inj hsame).1
    have hid : item.itemId ∈ missing.map WorkItem.itemId :=
      hids ▸ List.mem_map_of_mem hitem
    obtain ⟨other, hother, hsameId⟩ := List.mem_map.mp hid
    exact ⟨other, hmissing other hother, hsameId⟩

theorem filesStep_of_dir (hdir : DirOf pieces dir)
    (hcomplete : after.complete = before.complete)
    (hmetrics : ∀ other, other ≠ dir →
      after.metrics other = before.metrics other)
    (hkept : (before.metrics dir).isSome = true →
      (after.metrics dir).isSome = true)
    (hvideos : ∀ other, before.videos other = true →
      after.videos other = true) :
    FilesStep pieces before after := by
  constructor
  · exact fun itemId _ => congrFun hcomplete itemId
  · intro item attempt hother
    apply hmetrics
    intro hsame
    obtain ⟨other, hmem, hid⟩ := hdir.item item attempt hsame.symm
    exact hother other hmem hid
  · intro missing attempt hother
    apply hmetrics
    intro hsame
    obtain ⟨item, hitem, hapart⟩ := hother
    obtain ⟨other, hmem, hid⟩ :=
      hdir.bundle missing attempt hsame.symm item hitem
    exact hapart other hmem hid
  · intro other hsome
    by_cases hsame : other = dir
    · subst hsame
      exact hkept hsome
    · rw [hmetrics other hsame]
      exact hsome
  · exact hvideos
  · intro itemId hdone
    unfold isComplete at hdone ⊢
    rw [hcomplete]
    exact hdone

theorem filesStep_writeMetrics (hdir : DirOf pieces dir)
    (metrics : EvalMetrics) :
    FilesStep pieces files (writeMetrics files dir metrics) := by
  refine filesStep_of_dir hdir rfl ?_ ?_ ?_
  · exact fun other hother => writeMetrics_of_ne hother _
  · intro _
    simp [writeMetrics]
  · exact fun _ => id

theorem filesStep_leave (hdir : DirOf pieces dir)
    (written : Option MetricsFile) (video : Bool) :
    FilesStep pieces files (leave files dir written video) := by
  refine filesStep_of_dir hdir rfl ?_ ?_ ?_
  · exact fun other hother => leave_metrics_of_ne hother _ _
  · intro hsome
    simp only [leave, Function.update_self]
    cases written with
    | none => exact hsome
    | some file => rfl
  · intro other hvideo
    simp [leave, hvideo]

theorem Placed.frame (hplaced : Placed before pieces phase)
    (hstep : FilesStep others before after)
    (hapart : ∀ item ∈ others.flatten, ∀ other ∈ pieces.flatten,
      item.itemId ≠ other.itemId) : Placed after pieces phase := by
  obtain ⟨taken, rfl, hpending⟩ := hplaced.taken
  refine ⟨hplaced.numbered, ⟨taken, rfl, ?_⟩, fun hsome => ?_⟩
  · rw [← hpending]
    apply incomplete_congr
    intro item hitem
    apply hstep.complete
    intro other hother
    apply hapart other hother
    rw [List.flatten_append]
    exact List.mem_append_left _ hitem
  · obtain ⟨earlier, piece, hwork, hnone⟩ := hplaced.last hsome
    exact ⟨earlier, piece, hwork, incomplete_nil_mono hnone hstep.completed⟩

theorem Advances.filesStep
    (hadvances : Advances run files phase output next phase')
    (hplaced : Placed files pieces phase) : FilesStep pieces files next := by
  cases hadvances with
  | complete hphase hvalid =>
    apply filesStep_writeMarker
    apply (hplaced.pending_mem ?_).1
    cases phase with
    | attempting | evaluated | split =>
      cases hphase; exact List.mem_cons_self
    | next | bundling | combined | splitting => cases hphase
  | write hpart =>
    apply filesStep_writeMetrics
    exact dirOf_itemDir (hplaced.pending_mem List.mem_cons_self).1 _
  | finish | skip | takeItem | takeBundle | refuse | failItem | failBundle
  | retryItem | retryBundle | splits | bundleDone => exact .refl _ _

theorem Evaluates.filesStep
    (hevaluates : Evaluates run files written video phase next phase')
    (hplaced : Placed files pieces phase) : FilesStep pieces files next := by
  cases hevaluates with
  | item hleft hnone =>
    apply filesStep_leave
    exact dirOf_itemDir (hplaced.pending_mem List.mem_cons_self).1 _
  | bundle hleft =>
    apply filesStep_leave
    exact dirOf_bundleDir (fun item hitem => (hplaced.pending_mem hitem).1) _

theorem Advances.placed
    (hadvances : Advances run files phase output next (some after))
    (hids : (pieces.flatten.map WorkItem.itemId).Nodup)
    (hplaced : Placed files pieces phase) : Placed next pieces after := by
  obtain ⟨taken, hpieces, hpending⟩ := hplaced.taken
  have htaken : (taken.flatten.map WorkItem.itemId).Nodup := by
    rw [hpieces, List.flatten_append, List.map_append] at hids
    exact (List.nodup_append.mp hids).1
  have htake : ∀ {piece : List WorkItem} {rest : List (List WorkItem)},
      phase = .next (piece :: rest) →
      pieces = (taken ++ [piece]) ++ rest ∧
        incomplete (isComplete files) (taken ++ [piece]).flatten =
          incomplete (isComplete files) piece := by
    rintro piece rest rfl
    constructor
    · rw [List.append_assoc]
      exact hpieces
    · rw [List.flatten_append, List.flatten_singleton, incomplete_append,
        hpending]
      rfl
  have hcompleted := (hadvances.filesStep hplaced).completed
  have hlater : phase.pending ≠ [] → ∃ earlier piece,
      pieces = earlier ++ piece :: phase.rest ∧
        incomplete (isComplete next) earlier.flatten = [] := by
    intro hsome
    obtain ⟨earlier, piece, hwork, hnone⟩ := hplaced.last hsome
    exact ⟨earlier, piece, hwork, incomplete_nil_mono hnone hcompleted⟩
  cases hadvances with
  | skip hmissing =>
    obtain ⟨hsplit, hsame⟩ := htake rfl
    exact ⟨trivial, ⟨_, hsplit, hsame.trans hmissing⟩,
      fun hsome => absurd rfl hsome⟩
  | takeItem hmissing =>
    obtain ⟨hsplit, hsame⟩ := htake rfl
    exact ⟨le_rfl, ⟨_, hsplit, hsame.trans hmissing⟩,
      fun _ => ⟨taken, _, hpieces, hpending⟩⟩
  | takeBundle hmissing hwide =>
    obtain ⟨hsplit, hsame⟩ := htake rfl
    exact ⟨⟨hwide, le_rfl⟩, ⟨_, hsplit, hsame.trans hmissing⟩,
      fun _ => ⟨taken, _, hpieces, hpending⟩⟩
  | complete hphase hvalid =>
    cases phase with
    | attempting | evaluated =>
      cases hphase
      exact ⟨trivial, ⟨taken, hpieces, incomplete_writeMarker htaken hpending⟩,
        fun hsome => absurd rfl hsome⟩
    | split =>
      cases hphase
      exact ⟨trivial, ⟨taken, hpieces, incomplete_writeMarker htaken hpending⟩,
        fun _ => hlater (List.cons_ne_nil _ _)⟩
    | next | bundling | combined | splitting => cases hphase
  | retryItem hnone =>
    exact ⟨Nat.le_add_left _ _, ⟨taken, hpieces, hpending⟩, hplaced.last⟩
  | retryBundle hnone =>
    exact ⟨⟨hplaced.numbered.1, Nat.le_add_left _ _⟩,
      ⟨taken, hpieces, hpending⟩, hplaced.last⟩
  | splits hread hsome =>
    exact ⟨trivial, ⟨taken, hpieces, hpending⟩, hplaced.last⟩
  | bundleDone =>
    exact ⟨trivial, ⟨taken, hpieces, hpending⟩, fun hsome => absurd rfl hsome⟩
  | write hpart =>
    exact ⟨trivial, ⟨taken, hpieces, hpending⟩, hplaced.last⟩

theorem Evaluates.placed
    (hevaluates : Evaluates run files written video phase next phase')
    (hplaced : Placed files pieces phase) : Placed next pieces phase' := by
  obtain ⟨taken, hpieces, hpending⟩ := hplaced.taken
  cases hevaluates with
  | item hleft hnone | bundle hleft =>
    exact ⟨hplaced.numbered, ⟨taken, hpieces, hpending⟩, hplaced.last⟩

/-! ## Steps of the lanes -/

def EvalLabel.lane : EvalLabel → ℕ
  | .start lane => lane
  | .advance lane => lane
  | .evaluate lane _ _ => lane
  | .crash lane => lane

inductive EvalLaneStep (run : EvalRun) (work : ℕ → List (List WorkItem))
    (world : EvalWorld) :
    EvalLabel → EvalOutput → EvalFiles → Option EvalPhase → Prop
  | start {lane} (hidle : world.lanes lane = none) :
      EvalLaneStep run work world (.start lane) .started world.files
        (some (.next (work lane)))
  | advance {lane phase output files phase'}
      (hphase : world.lanes lane = some phase)
      (hadvances : Advances run world.files phase output files phase') :
      EvalLaneStep run work world (.advance lane) output files phase'
  | evaluate {lane written video phase files phase'}
      (hphase : world.lanes lane = some phase)
      (hevaluates : Evaluates run world.files written video phase files
        phase') :
      EvalLaneStep run work world (.evaluate lane written video) .evaluated files
        (some phase')
  | crash {lane phase} (hphase : world.lanes lane = some phase) :
      EvalLaneStep run work world (.crash lane) .crashed world.files none

theorem evalLaneStep_of_step
    (hstep : (evalLanes run work).step world label = some (output, next)) :
    ∃ files phase, next = setLane world label.lane files phase ∧
      EvalLaneStep run work world label output files phase := by
  cases label with
  | start lane =>
    cases hphase : world.lanes lane with
    | some phase => simp [evalLanes, hphase] at hstep
    | none =>
      simp only [evalLanes, hphase] at hstep
      cases hstep
      exact ⟨_, _, rfl, .start hphase⟩
  | advance lane =>
    cases hphase : world.lanes lane with
    | none => simp [evalLanes, hphase] at hstep
    | some phase =>
      simp only [evalLanes, hphase] at hstep
      obtain ⟨⟨found, files, after⟩, hadvance, hsame⟩ :=
        Option.map_eq_some_iff.mp hstep
      cases hsame
      exact ⟨files, after, rfl, .advance hphase (advances_of_advance hadvance)⟩
  | evaluate lane written video =>
    cases hphase : world.lanes lane with
    | none => simp [evalLanes, hphase] at hstep
    | some phase =>
      simp only [evalLanes, hphase] at hstep
      obtain ⟨⟨files, after⟩, hevaluate, hsame⟩ :=
        Option.map_eq_some_iff.mp hstep
      cases hsame
      exact ⟨files, some after, rfl,
        .evaluate hphase (evaluates_of_evaluate hevaluate)⟩
  | crash lane =>
    cases hphase : world.lanes lane with
    | none => simp [evalLanes, hphase] at hstep
    | some phase =>
      simp only [evalLanes, hphase] at hstep
      cases hstep
      exact ⟨_, _, rfl, .crash hphase⟩

/-- Markers read back, and every process is placed among its pieces. -/
structure LanesSound (run : EvalRun) (work : ℕ → List (List WorkItem))
    (world : EvalWorld) : Prop where
  reads : ∀ item ∈ run.manifest.workItems, Reads run world.files item
  placed : ∀ lane phase, world.lanes lane = some phase →
    Placed world.files (work lane) phase

theorem Reads.kept (hreads : Reads run before item)
    (hcomplete : after.complete item.itemId = before.complete item.itemId)
    (hmetrics : ∀ marker, before.complete item.itemId = some marker →
      after.metrics (itemDir item marker.attempt) =
        before.metrics (itemDir item marker.attempt))
    (hvideos : ∀ dir, before.videos dir = true → after.videos dir = true) :
    Reads run after item := by
  intro marker hmarker
  rw [hcomplete] at hmarker
  obtain ⟨hid, hdir, metrics, hvalid⟩ := hreads marker hmarker
  refine ⟨hid, hdir, metrics, validateMetrics_mono ?_ hvideos hvalid⟩
  rw [hdir]
  exact hmetrics marker hmarker

theorem eq_of_itemId (hloaded : LoadedManifest run.manifest)
    (hitem : item ∈ run.manifest.workItems)
    (hother : other ∈ run.manifest.workItems)
    (hid : item.itemId = other.itemId) : item = other :=
  List.inj_on_of_nodup_map hloaded.itemIds hitem hother hid

theorem LaneWorks.known (hworks : LaneWorks manifest work)
    (hitem : item ∈ (work lane).flatten) : item ∈ manifest.workItems := by
  obtain ⟨piece, hpiece, hmem⟩ := List.mem_flatten.mp hitem
  exact (hworks.bundled lane).known piece hpiece item hmem

theorem completing_pending {phase after : EvalPhase}
    (hphase : phase.completing = some (item, attempt, after)) :
    phase.pending = item :: after.pending ∧ phase.rest = after.rest := by
  cases phase with
  | attempting | evaluated | split => cases hphase; exact ⟨rfl, rfl⟩
  | next | bundling | combined | splitting => cases hphase

theorem Advances.reads {phase : EvalPhase}
    (hadvances : Advances run files phase output next phase')
    (hloaded : LoadedManifest run.manifest)
    (hknown : ∀ item ∈ pieces.flatten, item ∈ run.manifest.workItems)
    (hplaced : Placed files pieces phase)
    (hreads : ∀ item ∈ run.manifest.workItems, Reads run files item) :
    ∀ item ∈ run.manifest.workItems, Reads run next item := by
  have hmono := (hadvances.filesStep hplaced).videos
  cases hadvances with
  | @complete phase item attempt after metrics hphase hvalid =>
    intro other hother
    have hpending : item ∈ phase.pending := by
      rw [(completing_pending hphase).1]
      exact List.mem_cons_self
    have hitem := hknown item (hplaced.pending_mem hpending).1
    by_cases hsame : other.itemId = item.itemId
    · obtain rfl := eq_of_itemId hloaded hother hitem hsame
      intro marker hmarker
      simp only [writeMarker, Function.update_self,
        Option.some.injEq] at hmarker
      subst hmarker
      exact ⟨rfl, rfl, metrics, validateMetrics_mono rfl hmono hvalid⟩
    · exact (hreads other hother).kept
        (Function.update_of_ne hsame _ _) (fun _ _ => rfl) hmono
  | @write missing attempt metrics item items rest part hpart =>
    intro other hother
    have hmissing := (hplaced.pending_mem List.mem_cons_self).2
    refine (hreads other hother).kept rfl ?_ hmono
    intro marker hmarker
    apply writeMetrics_of_ne
    intro hsame
    have hid := (AttemptDir.item.inj hsame).1
    unfold isComplete at hmissing
    rw [← hid, hmarker] at hmissing
    cases hmissing
  | finish | skip | takeItem | takeBundle | refuse | failItem | failBundle
  | retryItem | retryBundle | splits | bundleDone => exact hreads

theorem itemDir_ne_bundleDir (item : WorkItem) (attempt : ℕ)
    (missing : List WorkItem) (bundleAttempt : ℕ) :
    itemDir item attempt ≠ bundleDir missing bundleAttempt := by
  exact nofun

theorem Evaluates.reads
    (hevaluates : Evaluates run files written video phase next phase')
    (hplaced : Placed files pieces phase) (hreads : Reads run files item) :
    Reads run next item := by
  have hmono := (hevaluates.filesStep hplaced).videos
  cases hevaluates with
  | item hleft hnone =>
    refine hreads.kept rfl ?_ hmono
    intro marker hmarker
    apply leave_metrics_of_ne
    intro hsame
    obtain ⟨-, hdir, metrics, hvalid⟩ := hreads marker hmarker
    have hfile := (validateMetrics_eq_ok.mp hvalid).1
    rw [hdir] at hfile
    have hthere : files.metrics (itemDir item marker.attempt) =
        some (.metrics metrics) := hfile
    rw [hsame, hnone] at hthere
    cases hthere
  | @bundle missing attempt rest hleft =>
    refine hreads.kept rfl (fun marker _ => ?_) hmono
    exact leave_metrics_of_ne
      (itemDir_ne_bundleDir item marker.attempt missing attempt) _ _

theorem EvalLaneStep.filesStep
    (hstep : EvalLaneStep run work world label output files phase)
    (hsound : LanesSound run work world) :
    FilesStep (work label.lane) world.files files := by
  cases hstep with
  | start hidle => exact .refl _ _
  | advance hphase hadvances =>
    exact hadvances.filesStep (hsound.placed _ _ hphase)
  | evaluate hphase hevaluates =>
    exact hevaluates.filesStep (hsound.placed _ _ hphase)
  | crash hphase => exact .refl _ _

theorem EvalLaneStep.placed
    (hstep : EvalLaneStep run work world label output files (some phase))
    (hworks : LaneWorks run.manifest work) (hsound : LanesSound run work world) :
    Placed files (work label.lane) phase := by
  cases hstep with
  | start hidle =>
    exact ⟨trivial, ⟨[], rfl, rfl⟩, fun hsome => absurd rfl hsome⟩
  | advance hphase hadvances =>
    exact hadvances.placed (hworks.bundled _).itemIds
      (hsound.placed _ _ hphase)
  | evaluate hphase hevaluates =>
    exact hevaluates.placed (hsound.placed _ _ hphase)

theorem EvalLaneStep.reads
    (hstep : EvalLaneStep run work world label output files phase)
    (hloaded : LoadedManifest run.manifest)
    (hworks : LaneWorks run.manifest work) (hsound : LanesSound run work world) :
    ∀ item ∈ run.manifest.workItems, Reads run files item := by
  cases hstep with
  | start hidle => exact hsound.reads
  | advance hphase hadvances =>
    exact hadvances.reads hloaded (fun _ => hworks.known)
      (hsound.placed _ _ hphase) hsound.reads
  | evaluate hphase hevaluates =>
    exact fun item hitem => hevaluates.reads (hsound.placed _ _ hphase)
      (hsound.reads item hitem)
  | crash hphase => exact hsound.reads

theorem LanesSound.step (hsound : LanesSound run work world)
    (hloaded : LoadedManifest run.manifest)
    (hworks : LaneWorks run.manifest work)
    (hstep : (evalLanes run work).step world label = some (output, next)) :
    LanesSound run work next := by
  obtain ⟨files, phase, rfl, hlane⟩ := evalLaneStep_of_step hstep
  have hfiles := hlane.filesStep hsound
  constructor
  · exact hlane.reads hloaded hworks hsound
  · intro lane after hafter
    by_cases hsame : lane = label.lane
    · subst hsame
      rw [setLane_self] at hafter
      subst hafter
      exact hlane.placed hworks hsound
    · rw [setLane_of_ne _ hsame] at hafter
      exact (hsound.placed lane after hafter).frame hfiles
        (hworks.apart _ _ (Ne.symm hsame))

/-! ## Valid metrics -/

def ItemValid (run : EvalRun) (files : EvalFiles) (item : WorkItem)
    (attempt : ℕ) : Prop :=
  (files.metrics (itemDir item attempt)).isSome = true → ∃ metrics,
      validateMetrics run files (itemDir item attempt) item = .ok metrics

def PartsValid (run : EvalRun) (videos : AttemptDir → Bool)
    (missing : List WorkItem) (attempt : ℕ) (metrics : EvalMetrics)
    (items : List WorkItem) : Prop :=
  ∀ item ∈ items, ∃ part,
    splitMetrics run missing attempt metrics item = .ok part ∧
      checkMetrics run videos (itemDir item attempt) item part = .ok ()

/-- The metrics of an attempt at a bundle, if there are any, are valid for
each of its items. -/
def BundleValid (run : EvalRun) (files : EvalFiles)
    (missing : List WorkItem) (attempt : ℕ) : Prop :=
  (files.metrics (bundleDir missing attempt)).isSome = true →
    ∃ metrics, readCombined files missing attempt = .ok metrics ∧
      PartsValid run files.videos missing attempt metrics missing

def SafeOutcome (run : EvalRun) (files : EvalFiles)
    (written : Option MetricsFile) (video : Bool) :
    Option EvalPhase → Prop
  | some (.attempting item attempt _) =>
    ItemValid run (leave files (itemDir item attempt) written video) item
      attempt
  | some (.bundling missing attempt _) =>
    BundleValid run (leave files (bundleDir missing attempt) written video)
      missing attempt
  | _ => True

/-- A process that stops here is not among the parts of a bundle. -/
def SafeStop : Option EvalPhase → Prop
  | some (.splitting _ _ _ _ _) => False
  | some (.split _ _ _ _ _ _) => False
  | _ => True

/-- No evaluator leaves metrics that are not valid, and no process stops among
the parts of a bundle. -/
def SafeEvalStep (run : EvalRun) (world : EvalWorld) : EvalLabel → Prop
  | .evaluate lane written video =>
    SafeOutcome run world.files written video (world.lanes lane)
  | .crash lane => SafeStop (world.lanes lane)
  | _ => True

instance existsOkDecidable {ε α : Type} (result : Except ε α)
    (property : α → Prop) [DecidablePred property] :
    Decidable (∃ value, result = .ok value ∧ property value) :=
  match result with
  | .ok value =>
    if hholds : property value then isTrue ⟨value, rfl, hholds⟩
    else isFalse fun ⟨_, hsame, hother⟩ =>
      hholds (Except.ok.inj hsame ▸ hother)
  | .error _ => isFalse nofun

instance (run : EvalRun) (files : EvalFiles) (item : WorkItem)
    (attempt : ℕ) : Decidable (ItemValid run files item attempt) :=
  decidable_of_iff ((files.metrics (itemDir item attempt)).isSome = true →
      ∃ metrics, validateMetrics run files (itemDir item attempt) item =
        .ok metrics ∧ True) (by simp only [and_true]; rfl)

instance (run : EvalRun) (videos : AttemptDir → Bool)
    (missing : List WorkItem) (attempt : ℕ) (metrics : EvalMetrics)
    (items : List WorkItem) :
    Decidable (PartsValid run videos missing attempt metrics items) :=
  inferInstanceAs (Decidable (∀ item ∈ items, ∃ part,
    splitMetrics run missing attempt metrics item = .ok part ∧
      checkMetrics run videos (itemDir item attempt) item part = .ok ()))

instance (run : EvalRun) (files : EvalFiles) (missing : List WorkItem)
    (attempt : ℕ) : Decidable (BundleValid run files missing attempt) :=
  inferInstanceAs (Decidable (_ → ∃ metrics,
    readCombined files missing attempt = .ok metrics ∧
      PartsValid run files.videos missing attempt metrics missing))

instance (run : EvalRun) (files : EvalFiles)
    (written : Option MetricsFile) (video : Bool) :
    (phase : Option EvalPhase) →
      Decidable (SafeOutcome run files written video phase)
  | some (.attempting item attempt _) =>
    inferInstanceAs (Decidable (ItemValid _ _ item attempt))
  | some (.bundling missing attempt _) =>
    inferInstanceAs (Decidable (BundleValid _ _ missing attempt))
  | none => isTrue trivial
  | some (.next _) => isTrue trivial
  | some (.evaluated _ _ _) => isTrue trivial
  | some (.combined _ _ _) => isTrue trivial
  | some (.splitting _ _ _ _ _) => isTrue trivial
  | some (.split _ _ _ _ _ _) => isTrue trivial

instance : (phase : Option EvalPhase) → Decidable (SafeStop phase)
  | some (.splitting _ _ _ _ _) => isFalse id
  | some (.split _ _ _ _ _ _) => isFalse id
  | none => isTrue trivial
  | some (.next _) => isTrue trivial
  | some (.attempting _ _ _) => isTrue trivial
  | some (.evaluated _ _ _) => isTrue trivial
  | some (.bundling _ _ _) => isTrue trivial
  | some (.combined _ _ _) => isTrue trivial

instance (run : EvalRun) (world : EvalWorld) :
    (label : EvalLabel) → Decidable (SafeEvalStep run world label)
  | .evaluate lane written video => inferInstanceAs (Decidable
      (SafeOutcome run world.files written video (world.lanes lane)))
  | .crash lane =>
    inferInstanceAs (Decidable (SafeStop (world.lanes lane)))
  | .start _ => isTrue trivial
  | .advance _ => isTrue trivial

def PhaseValid (run : EvalRun) (files : EvalFiles) : EvalPhase → Prop
  | .combined missing attempt _ => BundleValid run files missing attempt
  | .splitting missing attempt metrics items _ =>
    PartsValid run files.videos missing attempt metrics items
  | .split missing attempt metrics item items _ =>
    (files.metrics (itemDir item attempt)).isSome = true ∧
      PartsValid run files.videos missing attempt metrics items
  | _ => True

structure LanesValid (run : EvalRun) (world : EvalWorld) : Prop where
  items : ∀ item ∈ run.manifest.workItems, ∀ attempt,
    ItemValid run world.files item attempt
  phases : ∀ lane phase, world.lanes lane = some phase →
    PhaseValid run world.files phase

section Valid

variable {before after : EvalFiles}

theorem ItemValid.kept (hvalid : ItemValid run before item attempt)
    (hmetrics : after.metrics (itemDir item attempt) =
      before.metrics (itemDir item attempt))
    (hvideos : ∀ dir, before.videos dir = true → after.videos dir = true) :
    ItemValid run after item attempt := by
  intro hsome
  rw [hmetrics] at hsome
  obtain ⟨metrics, hok⟩ := hvalid hsome
  exact ⟨metrics, validateMetrics_mono hmetrics hvideos hok⟩

theorem PartsValid.mono
    (hparts : PartsValid run before.videos missing attempt metrics items)
    (hvideos : ∀ dir, before.videos dir = true → after.videos dir = true) :
    PartsValid run after.videos missing attempt metrics items := by
  intro item hitem
  obtain ⟨part, hpart, hcheck⟩ := hparts item hitem
  exact ⟨part, hpart, checkMetrics_mono hvideos hcheck⟩

theorem BundleValid.kept (hvalid : BundleValid run before missing attempt)
    (hmetrics : after.metrics (bundleDir missing attempt) =
      before.metrics (bundleDir missing attempt))
    (hvideos : ∀ dir, before.videos dir = true → after.videos dir = true) :
    BundleValid run after missing attempt := by
  intro hsome
  rw [hmetrics] at hsome
  obtain ⟨metrics, hread, hparts⟩ := hvalid hsome
  exact ⟨metrics, readCombined_mono hmetrics hvideos hread,
    hparts.mono hvideos⟩

theorem PhaseValid.frame (hvalid : PhaseValid run before phase)
    (hplaced : Placed before pieces phase)
    (hstep : FilesStep others before after)
    (hapart : ∀ item ∈ others.flatten, ∀ other ∈ pieces.flatten,
      item.itemId ≠ other.itemId) : PhaseValid run after phase := by
  cases phase with
  | next | attempting | evaluated | bundling => trivial
  | combined missing attempt rest =>
    have hwide : 2 ≤ missing.length := hplaced.numbered.1
    have hfirst : missing[0] ∈ missing := List.getElem_mem (by omega)
    apply hvalid.kept _ hstep.videos
    apply hstep.bundles
    refine ⟨missing[0], hfirst, fun other hother => ?_⟩
    exact hapart other hother _ (hplaced.pending_mem hfirst).1
  | splitting missing attempt metrics items rest =>
    exact hvalid.mono hstep.videos
  | split missing attempt metrics item items rest =>
    exact ⟨hstep.kept _ hvalid.1, hvalid.2.mono hstep.videos⟩

theorem readComplete_items {piece : List WorkItem}
    (hreads : ∀ item ∈ piece, Reads run files item) (error : MetricsError) :
    piece.mapM (readComplete run files) ≠ .error error := by
  intro hfailed
  obtain ⟨item, hitem, herror⟩ := mapM_eq_error hfailed
  obtain ⟨existing, hok, -⟩ := (hreads item hitem).readComplete
  simp [hok] at herror

theorem not_refuses {phase : EvalPhase} {pieces : List (List WorkItem)}
    (hloaded : LoadedManifest run.manifest)
    (hbundled : Bundled run.manifest pieces)
    (hplaced : Placed files pieces phase)
    (hreads : ∀ item ∈ run.manifest.workItems, Reads run files item)
    (hitems : ∀ item ∈ run.manifest.workItems, ∀ attempt,
      ItemValid run files item attempt) (hvalid : PhaseValid run files phase) :
    ¬ Refuses run files phase := by
  have hknown : ∀ item ∈ pieces.flatten, item ∈ run.manifest.workItems := by
    intro item hitem
    obtain ⟨piece, hpiece, hmem⟩ := List.mem_flatten.mp hitem
    exact hbundled.known piece hpiece item hmem
  have hpending : ∀ item ∈ phase.pending, ∀ attempt,
      ItemValid run files item attempt := fun item hitem attempt =>
    hitems item (hknown item (hplaced.pending_mem hitem).1) attempt
  intro hrefuses
  cases phase with
  | next rest =>
    cases rest with
    | nil => exact hrefuses
    | cons piece rest =>
      obtain ⟨taken, rfl, -⟩ := hplaced.taken
      have hpiece : piece ∈ taken ++ (EvalPhase.next (piece :: rest)).rest :=
        List.mem_append_right _ List.mem_cons_self
      have hall := hbundled.known piece hpiece
      cases hrefuses with
      | inl hread =>
        obtain ⟨error, hread⟩ := hread
        exact readComplete_items
          (fun item hitem => hreads item (hall item hitem)) error hread
      | inr hruns =>
        obtain ⟨error, hruns⟩ := hruns
        obtain ⟨key, hkey⟩ := hbundled.key piece hpiece
        obtain ⟨runs, hok, -⟩ := runCoalescedBundle_ok
          (fun item hitem => hloaded.items item (hall item hitem)) hkey
          (hbundled.itemIds.sublist
            ((List.sublist_flatten_of_mem hpiece).map _))
          (isComplete files)
        simp [hok] at hruns
  | attempting item attempt rest | evaluated item attempt rest =>
    obtain ⟨hsome, error, hinvalid⟩ := hrefuses
    obtain ⟨metrics, hok⟩ := hpending item List.mem_cons_self attempt hsome
    simp [hok] at hinvalid
  | bundling missing attempt rest => exact hrefuses
  | combined missing attempt rest =>
    obtain ⟨hsome, error, hinvalid⟩ := hrefuses
    obtain ⟨metrics, hok, -⟩ := hvalid hsome
    simp [hok] at hinvalid
  | splitting missing attempt metrics items rest =>
    cases items with
    | nil => exact hrefuses
    | cons item items =>
      obtain ⟨error, hinvalid⟩ := hrefuses
      obtain ⟨part, hok, -⟩ := hvalid item List.mem_cons_self
      simp [hok] at hinvalid
  | split missing attempt metrics item items rest =>
    obtain ⟨error, hinvalid⟩ := hrefuses
    obtain ⟨part, hok⟩ := hpending item List.mem_cons_self attempt hvalid.1
    simp [hok] at hinvalid

end Valid

theorem Advances.phaseValid
    (hadvances : Advances run files phase output next (some phase'))
    (hvalid : PhaseValid run files phase) : PhaseValid run next phase' := by
  cases hadvances with
  | skip | takeItem | takeBundle => trivial
  | @complete phase item attempt after metrics hphase hok =>
    cases phase with
    | attempting | evaluated => cases hphase; trivial
    | split => cases hphase; exact hvalid.2
    | next | bundling | combined | splitting => cases hphase
  | retryItem | retryBundle => trivial
  | splits hread hsome =>
    obtain ⟨metrics, hok, hparts⟩ := hvalid hsome
    rw [hread] at hok
    cases hok
    exact hparts
  | bundleDone => trivial
  | write hpart =>
    refine ⟨?_, fun item hitem =>
      hvalid item (List.mem_cons_of_mem _ hitem)⟩
    simp [writeMetrics]

theorem Advances.itemsValid
    (hadvances : Advances run files phase output next phase')
    (hloaded : LoadedManifest run.manifest)
    (hknown : ∀ item ∈ pieces.flatten, item ∈ run.manifest.workItems)
    (hplaced : Placed files pieces phase) (hvalid : PhaseValid run files phase)
    (hitems : ∀ item ∈ run.manifest.workItems, ∀ attempt,
      ItemValid run files item attempt) :
    ∀ item ∈ run.manifest.workItems, ∀ attempt,
      ItemValid run next item attempt := by
  have hmono := (hadvances.filesStep hplaced).videos
  cases hadvances with
  | @write missing attempt metrics item items rest part hpart =>
    intro other hother otherAttempt
    have hitem := hknown item (hplaced.pending_mem List.mem_cons_self).1
    by_cases hdir : itemDir other otherAttempt = itemDir item attempt
    · obtain ⟨hid, rfl⟩ := AttemptDir.item.inj hdir
      obtain rfl := eq_of_itemId hloaded hother hitem hid
      intro _
      obtain ⟨found, hfound, hcheck⟩ := hvalid other List.mem_cons_self
      rw [hpart] at hfound
      cases hfound
      refine ⟨part, validateMetrics_eq_ok.mpr ⟨?_, hcheck⟩⟩
      exact Function.update_self _ _ _
    · exact (hitems other hother otherAttempt).kept
        (writeMetrics_of_ne hdir _) hmono
  | complete =>
    exact fun item hitem attempt =>
      (hitems item hitem attempt).kept rfl hmono
  | finish | skip | takeItem | takeBundle | refuse | failItem | failBundle
  | retryItem | retryBundle | splits | bundleDone => exact hitems

theorem Evaluates.itemsValid (hphase : world.lanes lane = some phase)
    (hevaluates : Evaluates run world.files written video phase next phase')
    (hloaded : LoadedManifest run.manifest)
    (hknown : ∀ item ∈ pieces.flatten, item ∈ run.manifest.workItems)
    (hplaced : Placed world.files pieces phase)
    (hsafe : SafeEvalStep run world (.evaluate lane written video))
    (hitems : ∀ item ∈ run.manifest.workItems, ∀ attempt,
      ItemValid run world.files item attempt) :
    ∀ item ∈ run.manifest.workItems, ∀ attempt,
      ItemValid run next item attempt := by
  have hmono := (hevaluates.filesStep hplaced).videos
  simp only [SafeEvalStep, hphase] at hsafe
  cases hevaluates with
  | @item item attempt rest hleft hnone =>
    intro other hother otherAttempt
    have hitem := hknown item (hplaced.pending_mem List.mem_cons_self).1
    by_cases hdir : itemDir other otherAttempt = itemDir item attempt
    · obtain ⟨hid, rfl⟩ := AttemptDir.item.inj hdir
      obtain rfl := eq_of_itemId hloaded hother hitem hid
      exact hsafe
    · exact (hitems other hother otherAttempt).kept
        (leave_metrics_of_ne hdir _ _) hmono
  | @bundle missing attempt rest hleft =>
    intro other hother otherAttempt
    exact (hitems other hother otherAttempt).kept (leave_metrics_of_ne
        (itemDir_ne_bundleDir other otherAttempt missing attempt) _ _) hmono

theorem EvalLaneStep.phaseValid
    (hstep : EvalLaneStep run work world label output files (some phase))
    (hsafe : SafeEvalStep run world label) (hvalid : LanesValid run world) :
    PhaseValid run files phase := by
  cases hstep with
  | start hidle => trivial
  | advance hphase hadvances =>
    exact hadvances.phaseValid (hvalid.phases _ _ hphase)
  | evaluate hphase hevaluates =>
    simp only [SafeEvalStep, hphase] at hsafe
    cases hevaluates with
    | item hleft hnone => trivial
    | bundle hleft => exact hsafe

theorem EvalLaneStep.itemsValid
    (hstep : EvalLaneStep run work world label output files phase)
    (hloaded : LoadedManifest run.manifest)
    (hworks : LaneWorks run.manifest work) (hsound : LanesSound run work world)
    (hsafe : SafeEvalStep run world label) (hvalid : LanesValid run world) :
    ∀ item ∈ run.manifest.workItems, ∀ attempt,
      ItemValid run files item attempt := by
  cases hstep with
  | start hidle => exact hvalid.items
  | advance hphase hadvances =>
    exact hadvances.itemsValid hloaded (fun _ => hworks.known)
      (hsound.placed _ _ hphase) (hvalid.phases _ _ hphase) hvalid.items
  | evaluate hphase hevaluates =>
    exact hevaluates.itemsValid hphase hloaded (fun _ => hworks.known)
      (hsound.placed _ _ hphase) hsafe hvalid.items
  | crash hphase => exact hvalid.items

theorem LanesValid.step (hvalid : LanesValid run world)
    (hloaded : LoadedManifest run.manifest)
    (hworks : LaneWorks run.manifest work) (hsound : LanesSound run work world)
    (hsafe : SafeEvalStep run world label)
    (hstep : (evalLanes run work).step world label = some (output, next)) :
    LanesValid run next := by
  obtain ⟨files, phase, rfl, hlane⟩ := evalLaneStep_of_step hstep
  have hfiles := hlane.filesStep hsound
  constructor
  · exact hlane.itemsValid hloaded hworks hsound hsafe hvalid
  · intro lane after hafter
    by_cases hsame : lane = label.lane
    · subst hsame
      rw [setLane_self] at hafter
      subst hafter
      exact hlane.phaseValid hsafe hvalid
    · rw [setLane_of_ne _ hsame] at hafter
      exact (hvalid.phases lane after hafter).frame
        (hsound.placed lane after hafter) hfiles
        (hworks.apart _ _ (Ne.symm hsame))

theorem failure_of_raised (hloaded : LoadedManifest run.manifest)
    (hworks : LaneWorks run.manifest work) (hsound : LanesSound run work world)
    (hvalid : LanesValid run world)
    (hstep : (evalLanes run work).step world label =
      some (.raised error, next)) : error.isFailure = true := by
  obtain ⟨files, phase, rfl, hlane⟩ := evalLaneStep_of_step hstep
  cases hlane with
  | @advance lane before output files phase hphase hadvances =>
    cases hadvances with
    | refuse hrefuses herror =>
      exact absurd hrefuses (not_refuses hloaded (hworks.bundled lane)
        (hsound.placed lane _ hphase) hsound.reads hvalid.items
        (hvalid.phases lane _ hphase))
    | failItem hspent | failBundle hspent => rfl

/-! ## Attempts that leave metrics -/

/-- Where an attempt at the missing items of a piece leaves its metrics. -/
def attemptDir (missing : List WorkItem) (attempt : ℕ) : AttemptDir :=
  match missing with
  | [item] => itemDir item attempt
  | _ => bundleDir missing attempt

theorem attemptDir_wide {missing : List WorkItem}
    (hwide : 2 ≤ missing.length) (attempt : ℕ) :
    attemptDir missing attempt = bundleDir missing attempt := by
  unfold attemptDir
  split
  · simp at hwide
  · rfl

/-- A piece of the work of a lane, whose missing items have an attempt that
left metrics. -/
structure DuePiece where
  lane : ℕ
  before : List (List WorkItem)
  piece : List WorkItem
  after : List (List WorkItem)
  missing : List WorkItem
  attempt : ℕ

namespace DuePiece

/-- The items that are due are still missing, and their metrics are there. -/
structure Held (due : DuePiece) (files : EvalFiles) : Prop where
  missing : incomplete (isComplete files) due.piece = due.missing
  metrics : (files.metrics (attemptDir due.missing due.attempt)).isSome = true

/-- Where the process is: it has not passed the attempt, or it completes the
items one by one. -/
def PhaseDue (due : DuePiece) (files : EvalFiles) : Option EvalPhase → Prop
  | none => due.Held files
  | some (.next rest) => due.Held files ∧ ∃ earlier,
      rest = earlier ++ due.piece :: due.after ∧
        incomplete (isComplete files) earlier.flatten = []
  | some (.attempting _ attempt rest) =>
    due.Held files ∧ attempt ≤ due.attempt ∧ rest = due.after
  | some (.evaluated _ attempt rest) =>
    due.Held files ∧ attempt ≤ due.attempt ∧ rest = due.after
  | some (.bundling _ attempt rest) =>
    due.Held files ∧ attempt ≤ due.attempt ∧ rest = due.after
  | some (.combined _ attempt rest) =>
    due.Held files ∧ attempt ≤ due.attempt ∧ rest = due.after
  | some (.splitting _ _ _ _ rest) => rest = due.after
  | some (.split _ _ _ _ _ rest) => rest = due.after

structure Due (run : EvalRun) (work : ℕ → List (List WorkItem))
    (due : DuePiece) (world : EvalWorld) : Prop where
  work : work due.lane = due.before ++ due.piece :: due.after
  earlier : incomplete (isComplete world.files) due.before.flatten = []
  several : due.missing ≠ []
  known : ∀ item ∈ due.missing, item ∈ due.piece
  first : 1 ≤ due.attempt
  left : due.attempt ≤ attemptsPerItem run
  phase : due.PhaseDue world.files (world.lanes due.lane)

def Done (due : DuePiece) (world : EvalWorld) : Prop :=
  ∀ item ∈ due.missing, isComplete world.files item.itemId = true

end DuePiece

/-! ## The work that is left -/

def pieceWork (run : EvalRun) (piece : List WorkItem) : ℕ :=
  2 * attemptsPerItem run + 2 * piece.length + 3

def restWork (run : EvalRun) (rest : List (List WorkItem)) : ℕ :=
  (rest.map (pieceWork run)).sum + 1

/-- How many steps a process may still take. -/
def phaseWork (run : EvalRun) : EvalPhase → ℕ
  | .next rest => restWork run rest
  | .attempting _ attempt rest =>
    2 * (attemptsPerItem run + 1 - attempt) + 1 + restWork run rest
  | .evaluated _ attempt rest =>
    2 * (attemptsPerItem run - attempt) + 2 + restWork run rest
  | .bundling missing attempt rest =>
    2 * (attemptsPerItem run + 1 - attempt) + 2 * missing.length + 2 +
      restWork run rest
  | .combined missing attempt rest =>
    2 * (attemptsPerItem run - attempt) + 2 * missing.length + 3 +
      restWork run rest
  | .splitting _ _ _ items rest => 2 * items.length + 1 + restWork run rest
  | .split _ _ _ _ items rest => 2 * items.length + 2 + restWork run rest

theorem restWork_cons (piece : List WorkItem) (rest : List (List WorkItem)) :
    restWork run (piece :: rest) = pieceWork run piece +
      restWork run rest := by
  unfold restWork
  rw [List.map_cons, List.sum_cons]
  omega

theorem Advances.work_lt
    (hadvances : Advances run files phase output next (some after)) :
    phaseWork run after < phaseWork run phase := by
  cases hadvances with
  | skip hmissing | takeItem hmissing =>
    simp only [phaseWork, restWork_cons, pieceWork]
    omega
  | @takeBundle piece rest missing hmissing hwide =>
    have hlength := (incomplete_sublist (isComplete files) piece).length_le
    rw [hmissing] at hlength
    simp only [phaseWork, restWork_cons, pieceWork]
    omega
  | complete hphase hvalid =>
    cases phase with
    | attempting | evaluated | split =>
      cases hphase; simp only [phaseWork]; omega
    | next | bundling | combined | splitting => cases hphase
  | retryItem hnone | retryBundle hnone | splits hread hsome | bundleDone =>
    simp only [phaseWork]
    omega
  | write hpart =>
    simp only [phaseWork, List.length_cons]
    omega

theorem Evaluates.work_lt
    (hevaluates : Evaluates run files written video phase next after) :
    phaseWork run after < phaseWork run phase := by
  cases hevaluates with
  | item hleft hnone | bundle hleft =>
    simp only [phaseWork]
    omega

/-- How many steps a lane may take until its process has ended by itself. -/
def remainingWork (run : EvalRun) (work : ℕ → List (List WorkItem))
    (world : EvalWorld) (lane : ℕ) : ℕ :=
  match world.lanes lane with
  | none => restWork run (work lane) + 1
  | some phase => phaseWork run phase

/-! ## Items that are due -/

namespace DuePiece

variable {due : DuePiece}

theorem pending_eq {files : EvalFiles} {pieces : List (List WorkItem)}
    {phase : EvalPhase}
    (hwork : pieces = due.before ++ due.piece :: due.after)
    (hearlier : incomplete (isComplete files) due.before.flatten = [])
    (hplaced : Placed files pieces phase) (hrest : phase.rest = due.after) :
    phase.pending = incomplete (isComplete files) due.piece := by
  obtain ⟨taken, hpieces, hpending⟩ := hplaced.taken
  have hsame : taken ++ due.after =
      (due.before ++ [due.piece]) ++ due.after := by
    rw [← hrest, ← hpieces, hwork, List.append_assoc, hrest]
    rfl
  have htaken := List.append_cancel_right hsame
  rw [← hpending, htaken, List.flatten_append, List.flatten_singleton,
    incomplete_append, hearlier, List.nil_append]

theorem Held.kept {before after : EvalFiles} (hheld : due.Held before)
    (hcomplete : ∀ item ∈ due.piece,
      after.complete item.itemId = before.complete item.itemId)
    (hmetrics : ∀ dir, (before.metrics dir).isSome = true →
      (after.metrics dir).isSome = true) : due.Held after :=
  ⟨(incomplete_congr hcomplete).trans hheld.missing, hmetrics _ hheld.metrics⟩

theorem PhaseDue.kept {before after : EvalFiles}
    (hphase : due.PhaseDue before phase) (hcomplete : ∀ item ∈ due.piece,
      after.complete item.itemId = before.complete item.itemId)
    (hcompleted : ∀ itemId, isComplete before itemId = true →
      isComplete after itemId = true)
    (hmetrics : ∀ dir, (before.metrics dir).isSome = true →
      (after.metrics dir).isSome = true) : due.PhaseDue after phase := by
  cases phase with
  | none => exact Held.kept hphase hcomplete hmetrics
  | some phase =>
    cases phase with
    | next rest =>
      obtain ⟨hheld, earlier, hrest, hnone⟩ := hphase
      exact ⟨hheld.kept hcomplete hmetrics, earlier, hrest,
        incomplete_nil_mono hnone hcompleted⟩
    | attempting | evaluated | bundling | combined =>
      exact ⟨hphase.1.kept hcomplete hmetrics, hphase.2⟩
    | splitting | split => exact hphase

theorem takes {piece : List WorkItem}
    (hphase : due.PhaseDue files (some (.next (piece :: rest)))) :
    (piece = due.piece ∧ rest = due.after) ∨
      (incomplete (isComplete files) piece = [] ∧
        due.PhaseDue files (some (.next rest))) := by
  obtain ⟨hheld, earlier, hrest, hnone⟩ := hphase
  cases earlier with
  | nil =>
    obtain ⟨hpiece, hafter⟩ := List.cons.inj hrest
    exact .inl ⟨hpiece, hafter⟩
  | cons first earlier =>
    obtain ⟨rfl, hafter⟩ := List.cons.inj hrest
    rw [List.flatten_cons, incomplete_append, List.append_eq_nil_iff] at hnone
    exact .inr ⟨hnone.1, hheld, earlier, hafter, hnone.2⟩

theorem Due.done_of_piece (hdue : due.Due run work world)
    (hnone : incomplete (isComplete files) due.piece = []) :
    ∀ item ∈ due.missing, isComplete files item.itemId = true :=
  fun item hitem => complete_of_incomplete_nil hnone (hdue.known item hitem)

theorem Due.advance {world : EvalWorld} {phase : EvalPhase}
    {output : EvalOutput} {files : EvalFiles} {phase' : Option EvalPhase}
    (hdue : due.Due run work world)
    (hplaced : Placed world.files (work due.lane) phase)
    (hids : ((work due.lane).flatten.map WorkItem.itemId).Nodup)
    (hrefuses : ¬ Refuses run world.files phase)
    (hphase : world.lanes due.lane = some phase)
    (hadvances : Advances run world.files phase output files phase') :
    (∀ item ∈ due.missing, isComplete files item.itemId = true) ∨
      due.PhaseDue files phase' ∧ phase'.isSome = true := by
  have hphaseDue := hdue.phase
  rw [hphase] at hphaseDue
  have hpending : phase.rest = due.after →
      phase.pending = incomplete (isComplete world.files) due.piece :=
    pending_eq hdue.work hdue.earlier hplaced
  cases hadvances with
  | finish =>
    obtain ⟨-, earlier, hrest, -⟩ := hphaseDue
    simp at hrest
  | skip hmissing =>
    cases takes hphaseDue with
    | inl hpiece =>
      rw [hpiece.1, hphaseDue.1.missing] at hmissing
      exact absurd hmissing hdue.several
    | inr hlater => exact .inr ⟨hlater.2, rfl⟩
  | takeItem hmissing =>
    cases takes hphaseDue with
    | inl hpiece => exact .inr ⟨⟨hphaseDue.1, hdue.first, hpiece.2⟩, rfl⟩
    | inr hlater =>
      rw [hlater.1] at hmissing
      cases hmissing
  | @takeBundle piece rest missing hmissing hwide =>
    cases takes hphaseDue with
    | inl hpiece => exact .inr ⟨⟨hphaseDue.1, hdue.first, hpiece.2⟩, rfl⟩
    | inr hlater =>
      rw [hlater.1] at hmissing
      subst hmissing
      simp at hwide
  | refuse hraised => exact absurd hraised hrefuses
  | @complete phase item attempt after metrics hcompleting hvalid =>
    obtain ⟨hfirst, hrestSame⟩ := completing_pending hcompleting
    have hmarked : phase.rest = due.after →
        incomplete (isComplete (writeMarker world.files item attempt))
          due.piece = after.pending := by
      intro hrest
      have hpiece : due.piece ∈ work due.lane := by
        rw [hdue.work]
        exact List.mem_append_right _ List.mem_cons_self
      apply incomplete_writeMarker (hids.sublist
        ((List.sublist_flatten_of_mem hpiece).map _))
      rw [← hpending hrest, hfirst]
    cases phase with
    | attempting | evaluated =>
      cases hcompleting
      exact .inl (hdue.done_of_piece (hmarked hphaseDue.2.2))
    | split =>
      cases hcompleting
      exact .inr ⟨hphaseDue, rfl⟩
    | next | bundling | combined | splitting => cases hcompleting
  | failItem hspent | failBundle hspent =>
    have hattempt := hphaseDue.2.1
    have hleft := hdue.left
    omega
  | @retryItem item attempt rest hnone =>
    obtain ⟨hheld, hattempt, hrest⟩ := hphaseDue
    have hmissing : due.missing = [item] :=
      hheld.missing.symm.trans (hpending hrest).symm
    have hlater : attempt ≠ due.attempt := by
      rintro rfl
      have hthere := hheld.metrics
      rw [hmissing] at hthere
      simp only [attemptDir, hnone] at hthere
      cases hthere
    exact .inr ⟨⟨hheld, by omega, hrest⟩, rfl⟩
  | @retryBundle missing attempt rest hnone =>
    obtain ⟨hheld, hattempt, hrest⟩ := hphaseDue
    have hmissing : due.missing = missing :=
      hheld.missing.symm.trans (hpending hrest).symm
    have hlater : attempt ≠ due.attempt := by
      rintro rfl
      have hthere := hheld.metrics
      rw [hmissing, attemptDir_wide hplaced.numbered.1, hnone] at hthere
      cases hthere
    exact .inr ⟨⟨hheld, by omega, hrest⟩, rfl⟩
  | splits hread hsome => exact .inr ⟨hphaseDue.2.2, rfl⟩
  | bundleDone =>
    exact .inl (hdue.done_of_piece (hpending hphaseDue).symm)
  | write hpart => exact .inr ⟨hphaseDue, rfl⟩

theorem Due.step (hdue : due.Due run work world)
    (hloaded : LoadedManifest run.manifest)
    (hworks : LaneWorks run.manifest work) (hsound : LanesSound run work world)
    (hvalid : LanesValid run world) (hsafe : SafeEvalStep run world label)
    (hstep : (evalLanes run work).step world label = some (output, next)) :
    due.Done next ∨ due.Due run work next ∧ (label ≠ .crash due.lane →
      remainingWork run work next due.lane +
          (if label.lane = due.lane then 1 else 0) ≤
        remainingWork run work world due.lane) := by
  obtain ⟨files, phase, rfl, hlane⟩ := evalLaneStep_of_step hstep
  have hfiles := hlane.filesStep hsound
  have hdueNext : due.PhaseDue files
      ((setLane world label.lane files phase).lanes due.lane) →
      due.Due run work (setLane world label.lane files phase) := by
    intro hphase
    exact ⟨hdue.work, incomplete_nil_mono hdue.earlier hfiles.completed,
      hdue.several, hdue.known, hdue.first, hdue.left, hphase⟩
  by_cases hsame : label.lane = due.lane
  · simp only [if_pos hsame]
    have hlanes : (setLane world label.lane files phase).lanes due.lane =
        phase := by
      rw [← hsame]
      exact setLane_self _ _ _ _
    rw [hlanes] at hdueNext
    cases hlane with
    | @start lane hidle =>
      obtain rfl : lane = due.lane := hsame
      have hphase := hdue.phase
      rw [hidle] at hphase
      refine .inr ⟨hdueNext ⟨hphase, due.before, hdue.work,
        hdue.earlier⟩, fun _ => ?_⟩
      unfold remainingWork
      rw [hlanes, hidle]
      rfl
    | @advance lane before output files phase' hphase hadvances =>
      obtain rfl : lane = due.lane := hsame
      have hplaced := hsound.placed due.lane before hphase
      have hrefuses := not_refuses hloaded (hworks.bundled due.lane)
        hplaced hsound.reads hvalid.items
        (hvalid.phases due.lane before hphase)
      cases hdue.advance hplaced (hworks.bundled due.lane).itemIds hrefuses
        hphase hadvances with
      | inl hdone => exact .inl hdone
      | inr hgoes =>
        refine .inr ⟨hdueNext hgoes.1, fun _ => ?_⟩
        cases phase with
        | none => exact absurd hgoes.2 Bool.false_ne_true
        | some after =>
          have hless := hadvances.work_lt
          unfold remainingWork
          rw [hlanes, hphase]
          exact hless
    | @evaluate lane written video before files after hphase hevaluates =>
      obtain rfl : lane = due.lane := hsame
      have hphaseDue := hdue.phase
      rw [hphase] at hphaseDue
      have hless := hevaluates.work_lt
      refine .inr ⟨hdueNext ?_, fun _ => ?_⟩
      · cases hevaluates with
        | item hleft hnone | bundle hleft =>
          exact ⟨hphaseDue.1.kept (fun _ _ => rfl) hfiles.kept, hphaseDue.2⟩
      · unfold remainingWork
        rw [hlanes, hphase]
        exact hless
    | @crash lane before hphase =>
      obtain rfl : lane = due.lane := hsame
      have hphaseDue := hdue.phase
      rw [hphase] at hphaseDue
      simp only [SafeEvalStep, hphase] at hsafe
      refine .inr ⟨hdueNext ?_, fun hother => absurd rfl hother⟩
      cases before with
      | next | attempting | evaluated | bundling | combined =>
        exact hphaseDue.1
      | splitting | split => exact hsafe.elim
  · simp only [if_neg hsame]
    have hlanes : (setLane world label.lane files phase).lanes due.lane =
        world.lanes due.lane := setLane_of_ne _ (Ne.symm hsame) _ _
    rw [hlanes] at hdueNext
    refine .inr ⟨hdueNext (hdue.phase.kept ?_ hfiles.completed hfiles.kept),
      fun _ => ?_⟩
    · intro item hitem
      apply hfiles.complete
      intro other hother
      apply hworks.apart _ _ hsame other hother
      rw [hdue.work, List.flatten_append, List.flatten_cons]
      exact List.mem_append_right _ (List.mem_append_left _ hitem)
    · unfold remainingWork
      rw [hlanes]
      rfl

end DuePiece

/-! ## Runs -/

/-- No attempt has been made, and no process runs. -/
structure FreshEval (world : EvalWorld) : Prop where
  metrics : ∀ dir, world.files.metrics dir = none
  complete : ∀ itemId, world.files.complete itemId = none
  lanes : ∀ lane, world.lanes lane = none

theorem FreshEval.sound (hfresh : FreshEval world) :
    LanesSound run work world := by
  constructor
  · intro item _ marker hmarker
    rw [hfresh.complete] at hmarker
    cases hmarker
  · intro lane phase hphase
    rw [hfresh.lanes] at hphase
    cases hphase

theorem FreshEval.valid (hfresh : FreshEval world) : LanesValid run world := by
  constructor
  · intro item _ attempt hsome
    rw [hfresh.metrics] at hsome
    cases hsome
  · intro lane phase hphase
    rw [hfresh.lanes] at hphase
    cases hphase

/-- The state of a run that meets the condition at every step. -/
structure LanesGood (run : EvalRun) (work : ℕ → List (List WorkItem))
    (world : EvalWorld) : Prop where
  sound : LanesSound run work world
  valid : LanesValid run world

theorem LanesGood.step (hloaded : LoadedManifest run.manifest)
    (hworks : LaneWorks run.manifest work) (hgood : LanesGood run work world)
    (hsafe : SafeEvalStep run world label)
    (hstep : (evalLanes run work).step world label = some (output, next)) :
    LanesGood run work next :=
  ⟨hgood.sound.step hloaded hworks hstep,
    hgood.valid.step hloaded hworks hgood.sound hsafe hstep⟩

abbrev EvalEvents := List (Event EvalWorld EvalLabel EvalOutput)

/-- The items of the attempt a process is about to make. -/
def EvalPhase.attempt : EvalPhase → Option (List WorkItem × ℕ)
  | .attempting item attempt _ => some ([item], attempt)
  | .bundling missing attempt _ => some (missing, attempt)
  | _ => none

def LeavesMetrics (event : Event EvalWorld EvalLabel EvalOutput) (lane : ℕ)
    (item : WorkItem) : Prop :=
  (∃ written video, event.label = .evaluate lane written video) ∧
    ∃ phase missing attempt, event.before.lanes lane = some phase ∧
      phase.attempt = some (missing, attempt) ∧ item ∈ missing ∧
      (event.after.files.metrics (attemptDir missing attempt)).isSome = true

theorem due_of_leavesMetrics (hleaves : LeavesMetrics event lane item)
    (hsound : LanesSound run work event.before)
    (hstep : (evalLanes run work).step event.before event.label =
      some (event.output, event.after)) :
    ∃ due : DuePiece, due.lane = lane ∧ item ∈ due.missing ∧
      due.Due run work event.after := by
  obtain ⟨world, label, output, next⟩ := event
  obtain ⟨⟨written, video, hlabel⟩, before, missing, attempt, hbefore,
    hattempt, hitem, hmetrics⟩ := hleaves
  simp only at hlabel hbefore hmetrics hsound hstep ⊢
  subst hlabel
  obtain ⟨files, phase, rfl, hlane⟩ := evalLaneStep_of_step hstep
  cases hlane with
  | @evaluate _ _ _ found files after hphase hevaluates =>
    rw [hbefore] at hphase
    cases hphase
    have hplaced := hsound.placed lane before hbefore
    have hmissing : before.pending = missing := by
      cases hevaluates with
      | item | bundle => cases hattempt; rfl
    have hnonempty : missing ≠ [] := List.ne_nil_of_mem hitem
    obtain ⟨earlier, piece, hwork, hnone⟩ :=
      hplaced.last (hmissing ▸ hnonempty)
    let due : DuePiece := ⟨lane, earlier, piece, before.rest, missing, attempt⟩
    have hpending : missing = incomplete (isComplete world.files) piece := by
      rw [← hmissing]
      exact @DuePiece.pending_eq due world.files (work lane) before hwork
        hnone hplaced rfl
    have hcomplete : files.complete = world.files.complete := by
      cases hevaluates with
      | item | bundle => rfl
    have hsame : isComplete files = isComplete world.files := by
      unfold isComplete
      rw [hcomplete]
    have hheld : due.Held files :=
      ⟨by rw [hsame]; exact hpending.symm, hmetrics⟩
    have hlanes : (setLane world lane files (some after)).lanes lane =
        some after := setLane_self _ _ _ _
    have hgoes : 1 ≤ attempt ∧ attempt ≤ attemptsPerItem run ∧
        due.PhaseDue files (some after) := by
      have hnumbered := hplaced.numbered
      cases hevaluates with
      | item hleft =>
        cases hattempt
        exact ⟨hnumbered, hleft, hheld, le_rfl, rfl⟩
      | bundle hleft =>
        cases hattempt
        exact ⟨hnumbered.2, hleft, hheld, le_rfl, rfl⟩
    refine ⟨due, rfl, hitem, hwork, ?_, hnonempty, ?_, hgoes.1, hgoes.2.1, ?_⟩
    · change incomplete (isComplete files) earlier.flatten = []
      rw [hsame]
      exact hnone
    · intro other hother
      have hmem : other ∈ incomplete (isComplete world.files) piece :=
        hpending ▸ hother
      exact (incomplete_sublist _ piece).subset hmem
    · have hphase := hgoes.2.2
      rw [← hlanes] at hphase
      exact hphase

/-- A step of a lane itself. -/
def EvalLabel.isOf (lane : ℕ) (label : EvalLabel) : Bool := label.lane = lane

theorem DuePiece.Due.along {due : DuePiece} {events : EvalEvents}
    (hloaded : LoadedManifest run.manifest)
    (hworks : LaneWorks run.manifest work)
    (hrun : Run (evalLanes run work) world events final)
    (hsafe : ∀ event ∈ events, SafeEvalStep run event.before event.label)
    (hgood : LanesGood run work world)
    (hdue : due.Done world ∨ due.Due run work world) :
    due.Done final ∨ due.Due run work final ∧
      ((∀ event ∈ events, event.label ≠ .crash due.lane) →
        remainingWork run work final due.lane +
            events.countP (fun event => event.label.isOf due.lane) ≤
          remainingWork run work world due.lane) := by
  induction hrun with
  | nil =>
    cases hdue with
    | inl hdone => exact .inl hdone
    | inr hdue => exact .inr ⟨hdue, fun _ => le_rfl⟩
  | @snoc state next prior label output hrun hstep ih =>
    have hearlier : ∀ event ∈ prior,
        SafeEvalStep run event.before event.label :=
      fun event hevent => hsafe event (List.mem_append_left _ hevent)
    have hlast : SafeEvalStep run state label :=
      hsafe _ (List.mem_append_right _ (List.mem_singleton_self _))
    have hstate : LanesGood run work state :=
      hrun.guarded_invariant (SafeEvalStep run) (LanesGood run work)
        (fun _ _ _ _ hgood hlabel hnext =>
          hgood.step hloaded hworks hlabel hnext) hearlier hgood
    cases ih hearlier with
    | inl hdone =>
      obtain ⟨files, phase, rfl, hlane⟩ := evalLaneStep_of_step hstep
      exact .inl fun item hitem =>
        (hlane.filesStep hstate.sound).completed _ (hdone item hitem)
    | inr hprior =>
      cases hprior.1.step hloaded hworks hstate.sound hstate.valid hlast
        hstep with
      | inl hdone => exact .inl hdone
      | inr hnext =>
        refine .inr ⟨hnext.1, fun hcrash => ?_⟩
        have hless := hprior.2 fun event hevent =>
          hcrash event (List.mem_append_left _ hevent)
        have hone := hnext.2 (hcrash ⟨state, label, output, next⟩
          (List.mem_append_right _ (List.mem_singleton_self _)))
        rw [List.countP_append, List.countP_singleton]
        simp only [EvalLabel.isOf, decide_eq_true_eq] at hless ⊢
        omega

def MarkersRead (run : EvalRun) (world : EvalWorld) : Prop :=
  ∀ item ∈ run.manifest.workItems, ∀ marker,
    world.files.complete item.itemId = some marker → ∃ metrics,
        readComplete run world.files item = .ok (some (marker, metrics))

theorem LanesSound.markersRead
    (hsound : LanesSound run work world) : MarkersRead run world := by
  intro item hitem marker hmarker
  obtain ⟨hid, -, metrics, hvalid⟩ := hsound.reads item hitem marker hmarker
  refine ⟨metrics, ?_⟩
  unfold readComplete
  simp only [hmarker, require_of hid, hvalid]
  rfl

/-- An item for which an attempt leaves metrics is complete after any later
part of the run in which its lane is not stopped and takes the steps that it has
left. -/
def CompletesItems (run : EvalRun) (work : ℕ → List (List WorkItem))
    (events : EvalEvents) (final : EvalWorld) : Prop :=
  ∀ left event middle first rest lane item,
    events = left ++ event :: (middle ++ first :: rest) →
    LeavesMetrics event lane item →
    (∀ later ∈ first :: rest, later.label ≠ .crash lane) →
    remainingWork run work first.before lane ≤
      (first :: rest).countP (fun later => later.label.isOf lane) →
    isComplete final.files item.itemId = true

theorem phaseWork_pos (phase : EvalPhase) : 0 < phaseWork run phase := by
  cases phase with
  | next => simp only [phaseWork, restWork]; omega
  | attempting | evaluated | bundling | combined | splitting | split =>
    simp only [phaseWork]; omega

theorem remainingWork_pos (world : EvalWorld) (lane : ℕ) :
    0 < remainingWork run work world lane := by
  unfold remainingWork
  cases world.lanes lane with
  | none => exact Nat.succ_pos _
  | some phase => exact phaseWork_pos phase

theorem completesItems {final : EvalWorld} {events : EvalEvents}
    (hloaded : LoadedManifest run.manifest)
    (hworks : LaneWorks run.manifest work)
    (hgood : LanesGood run work world)
    (hrun : Run (evalLanes run work) world events final)
    (hsafe : ∀ event ∈ events, SafeEvalStep run event.before event.label) :
    CompletesItems run work events final := by
  intro left event middle first rest lane item hevents hleaves hcrash hsteps
  subst hevents
  obtain ⟨hleft, hstep, hright⟩ := hrun.at_event
  obtain ⟨state, hmiddle, hlast⟩ := hright.split
  have hfirst : first.before = state :=
    ((@Run.at_event _ _ _ _ _ _ [] rest first hlast).1.nil_inv)
  have hkept : ∀ state label output next, LanesGood run work state →
      SafeEvalStep run state label →
      (evalLanes run work).step state label = some (output, next) →
      LanesGood run work next :=
    fun _ _ _ _ hgood hlabel hnext => hgood.step hloaded hworks hlabel hnext
  have hbefore : LanesGood run work event.before :=
    hleft.guarded_invariant (SafeEvalStep run) (LanesGood run work) hkept
      (fun other hother => hsafe other (List.mem_append_left _ hother)) hgood
  have hafter : LanesGood run work event.after := hbefore.step hloaded hworks
      (hsafe event (List.mem_append_right _ List.mem_cons_self)) hstep
  have hmiddleSafe : ∀ other ∈ middle,
      SafeEvalStep run other.before other.label := fun other hother =>
    hsafe other (List.mem_append_right _ (List.mem_cons_of_mem _
      (List.mem_append_left _ hother)))
  have hlastSafe : ∀ other ∈ first :: rest,
      SafeEvalStep run other.before other.label := fun other hother =>
    hsafe other (List.mem_append_right _ (List.mem_cons_of_mem _
      (List.mem_append_right _ hother)))
  have hstate : LanesGood run work state :=
    hmiddle.guarded_invariant (SafeEvalStep run) (LanesGood run work) hkept
      hmiddleSafe hafter
  obtain ⟨due, rfl, hitem, hdue⟩ :=
    due_of_leavesMetrics hleaves hbefore.sound hstep
  have hreached : due.Done state ∨ due.Due run work state := by
    cases DuePiece.Due.along hloaded hworks hmiddle hmiddleSafe hafter
      (.inr hdue) with
    | inl hdone => exact .inl hdone
    | inr hstill => exact .inr hstill.1
  cases DuePiece.Due.along hloaded hworks hlast hlastSafe hstate hreached with
  | inl hdone => exact hdone item hitem
  | inr hstill =>
    have hless := hstill.2 hcrash
    have hpositive : 0 < remainingWork run work final due.lane :=
      remainingWork_pos final due.lane
    rw [hfirst] at hsteps
    omega

/-- A marker is written for valid metrics only, and reads back in every state.
While evaluators leave valid metrics or none, and no process stops among the
parts of a bundle, a process fails only when all attempts ended without metrics,
and an attempt that leaves metrics completes its items. -/
theorem items_complete {loaded : RunManifest} {assignment : LaneAssignment}
    {world final : EvalWorld} {events : EvalEvents}
    (hload : loadRunManifest run.manifest = .ok loaded)
    (haccepted : assignment.Accepted) (hfresh : FreshEval world)
    (hrun : Run (evalLanes run (assignment.work run.manifest)) world events
      final) :
    MarkersRead run final ∧
      ((∀ event ∈ events, SafeEvalStep run event.before event.label) →
        (∀ event ∈ events, ∀ error, event.output = .raised error →
          error.isFailure = true) ∧
        CompletesItems run (assignment.work run.manifest) events final) := by
  have hloaded := (loadedManifest hload).2
  have hworks := LaneAssignment.laneWorks hloaded haccepted
  have hgood : LanesGood run (assignment.work run.manifest) world :=
    ⟨hfresh.sound, hfresh.valid⟩
  constructor
  · apply LanesSound.markersRead
    exact hrun.invariant (LanesSound run (assignment.work run.manifest))
      (fun _ _ _ _ hstate hnext => hstate.step hloaded hworks hnext)
      hgood.sound
  · intro hsafe
    refine ⟨fun event hevent error herror => ?_,
      completesItems hloaded hworks hgood hrun hsafe⟩
    have hbefore := hrun.guarded_invariant_before (SafeEvalStep run)
      (LanesGood run (assignment.work run.manifest))
      (fun _ _ _ _ hgood hlabel hnext =>
        hgood.step hloaded hworks hlabel hnext) hsafe hgood hevent
    have hstep := hrun.step_of_mem hevent
    rw [herror] at hstep
    exact failure_of_raised hloaded hworks hbefore.sound hbefore.valid hstep

def layoutsRun : EvalRun := ⟨twoLayoutsManifest, id⟩

/-- One process takes both layouts, each twice. -/
def oneEvalLane : LaneAssignment := .plain 1

def freshEval : EvalWorld :=
  ⟨⟨fun _ => none, fun _ => false, fun _ => none⟩, fun _ => none⟩

theorem freshEval_fresh : FreshEval freshEval :=
  ⟨fun _ => rfl, fun _ => rfl, fun _ => rfl⟩

def layoutMetrics (done : Bool) : EvalMetrics where
  taskName := some "stack"
  cases := some [⟨1, 5, done⟩]
  numCases := some 1
  robodojoEvalSeed := some 0
  numEnvs := some 1
  policyMicrobatchSize := some 1
  maxPolicyCalls := some 4
  actionChunkSize := some 24
  processScoreReduction := some "terminal"
  inMemoryRlCheckpoint := none
  allCasesDone := done
  sharedVideoRoot := none

def firstAttempt (done : Bool) : List EvalLabel := [.start 0, .advance 0,
    .evaluate 0 (some (.metrics (layoutMetrics done))) true, .advance 0]

theorem items_complete_first_attempt :
    ∃ events final, Run (evalLanes layoutsRun
        (oneEvalLane.work twoLayoutsManifest)) freshEval events final ∧
      events.map Event.label = firstAttempt true ∧
      MarkersRead layoutsRun final ∧
      CompletesItems layoutsRun (oneEvalLane.work twoLayoutsManifest) events
        final := by
  have hchecked : ((evalLanes layoutsRun
      (oneEvalLane.work twoLayoutsManifest)).exec freshEval
        (firstAttempt true)).map (fun ran => ran.1.all fun event =>
          decide (SafeEvalStep layoutsRun event.before event.label)) =
      some true := by rfl
  obtain ⟨⟨events, final⟩, hexec, hsafe⟩ := Option.map_eq_some_iff.mp hchecked
  have hrun := Machine.run_of_exec hexec
  have hload : loadRunManifest layoutsRun.manifest =
      .ok twoLayoutsManifest := by rfl
  obtain ⟨hmarkers, hcompletes⟩ := @items_complete layoutsRun _ oneEvalLane
    _ _ _ hload trivial freshEval_fresh hrun
  refine ⟨events, final, hrun, Machine.labels_of_exec hexec, hmarkers,
    (hcompletes fun event hevent => ?_).2⟩
  exact of_decide_eq_true (List.all_eq_true.mp hsafe event hevent)

def firstLayout : WorkItem :=
  ⟨"base__stack__s00__l001__r00", "base", "stack", 0, 0, 1, [5], 0⟩

abbrev oneLaneWork : ℕ → List (List WorkItem) :=
  oneEvalLane.work twoLayoutsManifest

def incompleteFiles : EvalFiles :=
  leave freshEval.files (itemDir firstLayout 1)
    (some (.metrics (layoutMetrics false))) true

theorem oneLaneWork_other (hlane : lane ≠ 0) : oneLaneWork lane = [] := by
  have hnone : ∀ entry : List WorkItem × ℕ, ¬ entry.2 % 1 = lane := by
    intro entry hsame
    rw [Nat.mod_one] at hsame
    exact hlane hsame.symm
  unfold oneLaneWork LaneAssignment.work laneShare
  rw [List.map_eq_nil_iff]
  apply List.filter_eq_nil_iff.mpr
  intro entry _
  rw [decide_eq_true_eq]
  exact hnone entry

/-- Lanes without work only start and end. -/
def IdleOthers (world : EvalWorld) : Prop := ∀ lane, lane ≠ 0 →
    world.lanes lane = none ∨ world.lanes lane = some (.next [])

theorem IdleOthers.step (hidle : IdleOthers world)
    (hstep : (evalLanes layoutsRun oneLaneWork).step world label =
      some (output, next)) :
    IdleOthers next ∧ (label.lane ≠ 0 →
      next.files = world.files ∧ output ≠ .evaluated) := by
  obtain ⟨files, phase, rfl, hlane⟩ := evalLaneStep_of_step hstep
  have hown : label.lane ≠ 0 →
      (phase = none ∨ phase = some (.next [])) ∧ files = world.files ∧
        output ≠ .evaluated := by
    intro hother
    cases hlane with
    | @start lane hnone =>
      refine ⟨.inr ?_, rfl, EvalOutput.noConfusion⟩
      have hwork : oneLaneWork lane = [] := oneLaneWork_other hother
      rw [hwork]
    | @advance lane _ _ _ _ hphase hadvances =>
      cases hidle lane hother with
      | inl hnone =>
        simp [hnone] at hphase
      | inr hnext =>
        rw [hnext] at hphase
        cases hphase
        cases hadvances with
        | finish => exact ⟨.inl rfl, rfl, EvalOutput.noConfusion⟩
        | refuse hrefuses => exact hrefuses.elim
        | complete hcompleting => cases hcompleting
    | @evaluate lane _ _ _ _ _ hphase hevaluates =>
      cases hidle lane hother with
      | inl hnone =>
        simp [hnone] at hphase
      | inr hnext =>
        rw [hnext] at hphase
        cases hphase
        cases hevaluates
    | crash hphase => exact ⟨.inl rfl, rfl, EvalOutput.noConfusion⟩
  constructor
  · intro lane hne
    by_cases hsame : lane = label.lane
    · subst hsame
      rw [setLane_self]
      exact (hown hne).1
    · rw [setLane_of_ne _ hsame]
      exact hidle lane hne
  · exact fun hother => (hown hother).2

/-- The lane raises at its first item, however often it is started. -/
structure Blocked (world : EvalWorld) : Prop where
  files : world.files = incompleteFiles
  lane : world.lanes 0 = none ∨ world.lanes 0 = some (.next (oneLaneWork 0)) ∨
    world.lanes 0 = some (.attempting firstLayout 1 (oneLaneWork 0).tail)
  others : IdleOthers world

theorem Blocked.step (hblocked : Blocked world)
    (hstep : (evalLanes layoutsRun oneLaneWork).step world label =
      some (output, next)) : Blocked next ∧ output ≠ .evaluated := by
  obtain ⟨hothers, hother⟩ := hblocked.others.step hstep
  by_cases hlane : label.lane = 0
  · have hfiles := hblocked.files
    cases label with
    | start lane =>
      obtain rfl : lane = 0 := hlane
      cases hphase : world.lanes 0 with
      | some phase => simp [evalLanes, hphase] at hstep
      | none =>
        simp only [evalLanes, hphase] at hstep
        cases hstep
        exact ⟨⟨hfiles, .inr (.inl (setLane_self _ _ _ _)),
          hothers⟩, EvalOutput.noConfusion⟩
    | advance lane =>
      obtain rfl : lane = 0 := hlane
      rcases hblocked.lane with hphase | hphase | hphase
      · simp [evalLanes, hphase] at hstep
      · have htaken : advance layoutsRun incompleteFiles
            (.next (oneLaneWork 0)) = some (.taken, incompleteFiles,
              some (.attempting firstLayout 1 (oneLaneWork 0).tail)) := by
          rfl
        simp only [evalLanes, hphase, hfiles, htaken, Option.map_some] at hstep
        cases hstep
        exact ⟨⟨rfl, .inr (.inr (setLane_self _ _ _ _)), hothers⟩,
          EvalOutput.noConfusion⟩
      · have hraised : advance layoutsRun incompleteFiles
            (.attempting firstLayout 1 (oneLaneWork 0).tail) =
              some (.raised (.existingInvalid .incompleteTrajectories),
                incompleteFiles, none) := by rfl
        simp only [evalLanes, hphase, hfiles, hraised, Option.map_some] at hstep
        cases hstep
        exact ⟨⟨rfl, .inl (setLane_self _ _ _ _), hothers⟩,
          EvalOutput.noConfusion⟩
    | evaluate lane written video =>
      obtain rfl : lane = 0 := hlane
      rcases hblocked.lane with hphase | hphase | hphase
      · simp [evalLanes, hphase] at hstep
      · simp [evalLanes, hphase, evaluate] at hstep
      · have hthere : incompleteFiles.metrics (itemDir firstLayout 1) =
            some (.metrics (layoutMetrics false)) :=
          rfl
        simp [evalLanes, hphase, evaluate, hfiles, hthere] at hstep
    | crash lane =>
      obtain rfl : lane = 0 := hlane
      cases hphase : world.lanes 0 with
      | none => simp [evalLanes, hphase] at hstep
      | some phase =>
        simp only [evalLanes, hphase] at hstep
        cases hstep
        exact ⟨⟨hfiles, .inl (setLane_self _ _ _ _), hothers⟩,
          EvalOutput.noConfusion⟩
  · obtain ⟨hfiles, houtput⟩ := hother hlane
    refine ⟨⟨hfiles.trans hblocked.files, ?_, hothers⟩, houtput⟩
    obtain ⟨files, phase, rfl, -⟩ := evalLaneStep_of_step hstep
    rw [setLane_of_ne _ (Ne.symm hlane)]
    exact hblocked.lane

/-- One incomplete attempt: no item is ever completed or tried again. -/
theorem incomplete_attempt_blocks_lane :
    ∃ events world, Run (evalLanes layoutsRun oneLaneWork) freshEval events
        world ∧ events.map Event.label = firstAttempt false ∧
      ∀ later final, Run (evalLanes layoutsRun oneLaneWork) world later final →
          (∀ item ∈ twoLayoutsManifest.workItems,
            isComplete final.files item.itemId = false) ∧
          ∀ event ∈ later, event.output ≠ .evaluated := by
  have hruns : ((evalLanes layoutsRun oneLaneWork).exec freshEval
      (firstAttempt false)).map (fun ran => (ran.2.files,
        (ran.2.lanes 0).isNone)) = some (incompleteFiles, true) := by rfl
  obtain ⟨⟨events, world⟩, hexec, hworld⟩ := Option.map_eq_some_iff.mp hruns
  obtain ⟨hfiles, hnone⟩ := Prod.mk.inj hworld
  have hrun := Machine.run_of_exec hexec
  have hidle : IdleOthers world :=
    hrun.invariant IdleOthers (fun _ _ _ _ hstate hnext =>
      (hstate.step hnext).1) fun _ _ => .inl rfl
  have hblocked : Blocked world :=
    ⟨hfiles, .inl (Option.isNone_iff_eq_none.mp hnone), hidle⟩
  refine ⟨events, world, hrun, Machine.labels_of_exec hexec, ?_⟩
  intro later final hlater
  have hkept : ∀ state label output next, Blocked state →
      (evalLanes layoutsRun oneLaneWork).step state label =
        some (output, next) → Blocked next :=
    fun _ _ _ _ hstate hnext => (hstate.step hnext).1
  constructor
  · intro item _
    rw [(hlater.invariant Blocked hkept hblocked).files]
    rfl
  · intro event hevent
    obtain ⟨left, right, rfl⟩ := List.append_of_mem hevent
    obtain ⟨hbefore, hstep, -⟩ := hlater.at_event
    exact ((hbefore.invariant Blocked hkept hblocked).step hstep).2

end VerlVla
