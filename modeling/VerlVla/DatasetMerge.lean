import Mathlib
import VerlVla.TransitionLog

/-!
# Merging datasets on disk

Input datasets are merged into one output directory.  A complete output is an
input of an append, which aggregates into a temporary directory beside it,
removes the output and moves the temporary directory in its place.  The process
can be interrupted between any two operations on files.
-/

namespace VerlVla

open Transition

/-- The files whose presence makes a directory count as a dataset. -/
inductive MetaFile
  | info
  | tasks
  | stats
  deriving DecidableEq

def requiredMetaFiles : Finset MetaFile := {.info, .tasks, .stats}

/-- A directory: its marker files and the episodes that can be read from it.
Episodes are numbered in the order in which they were recorded. -/
structure DatasetDir where
  metaFiles : Finset MetaFile
  episodes : List ℕ
  deriving DecidableEq

namespace DatasetDir

def isComplete (dir : DatasetDir) : Bool := requiredMetaFiles ⊆ dir.metaFiles

def whole (episodes : List ℕ) : DatasetDir where
  metaFiles := requiredMetaFiles
  episodes := episodes

/-- What a recursive removal leaves before it is done: fewer of the files. -/
def Shrinks (dir rest : DatasetDir) : Prop :=
  rest ≠ dir ∧ rest.metaFiles ⊆ dir.metaFiles ∧
    rest.episodes.Sublist dir.episodes

instance (dir rest : DatasetDir) : Decidable (dir.Shrinks rest) :=
  inferInstanceAs (Decidable (_ ∧ _))

end DatasetDir

/-- The output directory and the temporary directory beside it. -/
structure MergeTarget (Path : Type) where
  output : Path
  appendTmp : Path
  distinct : appendTmp ≠ output

structure MergeCall (Path : Type) where
  roots : List Path
  repoIds : Option (List String)
  overwrite : Bool
  append : Bool
  cleanupRoots : Bool

inductive MergeError
  | noRoots
  | repoIdsLength
  | fileExists
  | aggregate
  deriving DecidableEq

/-- Where the merge is: removing what is in the way, aggregating, with the
aggregate beside the output, with the output partly removed, with the output
removed, and removing the inputs. -/
inductive MergePhase (Path : Type)
  | idle
  | clearing (call : MergeCall Path) (target : Path) (sources : List Path)
  | aggregating (call : MergeCall Path) (target : Path) (sources : List Path)
  | merged (call : MergeCall Path)
  | replacing (call : MergeCall Path)
  | moving (call : MergeCall Path)
  | cleaning (roots : List Path)

structure MergeStore (Path : Type) where
  dirs : Path → Option DatasetDir
  recorded : ℕ
  phase : MergePhase Path

inductive MergeLabel (Path : Type)
  | record (path : Path) (count : ℕ)
  | call (call : MergeCall Path)
  | unlink (rest : DatasetDir)
  | removed
  | write (dir : DatasetDir)
  | aggregated
  | move
  | finish
  | raise
  | interrupt

/-- A call begins with what it finds in the output and in its roots. -/
inductive MergeEvent
  | began (output inputs : List ℕ)
  | raised (error : MergeError)
  | interrupted
  | returned (output : List ℕ)
  deriving DecidableEq

namespace MergeStore

variable {Path : Type} [DecidableEq Path] (target : MergeTarget Path)
  (state : MergeStore Path)

def put (path : Path) (dir : Option DatasetDir) : MergeStore Path :=
  { state with dirs := Function.update state.dirs path dir }

def episodesAt (path : Path) : List ℕ :=
  ((state.dirs path).map DatasetDir.episodes).getD []

def isCompleteAt (path : Path) : Bool :=
  ((state.dirs path).map DatasetDir.isComplete).getD false

def gathered (sources : List Path) : List ℕ := sources.flatMap state.episodesAt

def afterAggregate (call : MergeCall Path) (path : Path) : MergePhase Path :=
  if path = target.output then
    .cleaning (if call.cleanupRoots then call.roots else [])
  else .merged call

/-- The checks and the choice of the directory to aggregate into. -/
def beginMerge (call : MergeCall Path) : List MergeEvent × MergeStore Path :=
  let began := MergeEvent.began (state.episodesAt target.output)
    (state.gathered call.roots)
  let complete := state.isCompleteAt target.output
  if call.roots = [] then ([began, .raised .noRoots], state)
  else if (call.repoIds.map List.length).getD call.roots.length ≠
      call.roots.length then
    ([began, .raised .repoIdsLength], state)
  else if (state.dirs target.output).isSome && !call.append &&
      !call.overwrite then
    ([began, .raised .fileExists], state)
  else if (state.dirs target.output).isSome && !(call.append && complete) then
    ([began], { state with phase := .clearing call target.output call.roots })
  else if call.append && complete then
    ([began], { state with
        phase := .clearing call target.appendTmp
          (target.output :: call.roots) })
  else
    ([began],
      { state with phase := .aggregating call target.output call.roots })

/-- The directory to remove, the phase while it is removed and the phase after
its removal. -/
def removal : Option (Path × MergePhase Path × MergePhase Path) :=
  match state.phase with
  | .clearing call path sources =>
    some (path, .clearing call path sources, .aggregating call path sources)
  | .merged call => some (target.output, .replacing call, .moving call)
  | .replacing call => some (target.output, .replacing call, .moving call)
  | .cleaning (root :: roots) =>
    some (root, .cleaning (root :: roots), .cleaning roots)
  | _ => none

/-- The output is not removed with the inputs. -/
def spared (path : Path) : Bool := match state.phase with
  | .cleaning _ => path = target.output
  | _ => false

def step : MergeLabel Path → Option (List MergeEvent × MergeStore Path)
  | .record path count =>
    match state.phase with
    | .idle =>
      if path ≠ target.output ∧ path ≠ target.appendTmp then
        some ([], { state.put path (some (.whole
            (List.range' state.recorded count))) with
          recorded := state.recorded + count })
      else none
    | _ => none
  | .call call =>
    match state.phase with
    | .idle => some (state.beginMerge target call)
    | _ => none
  | .unlink rest =>
    match state.removal target with
    | some (path, during, _) =>
      match state.dirs path with
      | some dir =>
        if dir.Shrinks rest ∧ state.spared target path = false then
          some ([], { state.put path (some rest) with phase := during })
        else none
      | none => none
    | none => none
  | .removed =>
    match state.removal target with
    | some (path, _, phase) =>
      let emptied := if state.spared target path then state
        else state.put path none
      some ([], { emptied with phase := phase })
    | none => none
  | .write dir =>
    match state.phase with
    | .aggregating _ path sources =>
      if path ∉ sources ∧ dir.episodes.Sublist (state.gathered sources) then
        some ([], state.put path (some dir))
      else none
    | _ => none
  | .aggregated =>
    match state.phase with
    | .aggregating call path sources =>
      if path ∉ sources ∧ sources.all state.isCompleteAt then
        some ([], { state.put path
            (some (.whole (state.gathered sources))) with
          phase := afterAggregate target call path })
      else none
    | _ => none
  | .move =>
    match state.phase with
    | .moving call =>
      some ([], { (state.put target.output
          (state.dirs target.appendTmp)).put target.appendTmp none with
        phase := .cleaning
          (if call.cleanupRoots then call.roots else []) })
    | _ => none
  | .finish =>
    match state.phase with
    | .cleaning [] =>
      some ([.returned (state.episodesAt target.output)],
        { state with phase := .idle })
    | _ => none
  | .raise =>
    match state.phase with
    | .aggregating _ _ _ =>
      some ([.raised .aggregate], { state with phase := .idle })
    | _ => none
  | .interrupt =>
    match state.phase with
    | .idle => none
    | _ => some ([.interrupted], { state with phase := .idle })

end MergeStore

def mergeMachine {Path : Type} [DecidableEq Path] (target : MergeTarget Path) :
    Machine (MergeStore Path) (MergeLabel Path) (List MergeEvent) where
  step state label := state.step target label

end VerlVla
