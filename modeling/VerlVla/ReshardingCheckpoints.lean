import Mathlib
import VerlVla.Checks

/-!
# Checkpoints of sharded runs

A run of several ranks saves a shard for each rank, named by the number of
ranks, and exports the full state for runs of other sizes.  Both lie in one
directory, and the number of ranks of the last save decides which one a load
reads.
-/

namespace VerlVla

/-- Full tensors laid over ranks and gathered again. -/
structure Sharding (F A : Type) where
  distribute : (world : ℕ) → F → Fin world → A
  gather : (world : ℕ) → (Fin world → A) → F
  gather_distribute : ∀ world full, 0 < world →
    gather world (distribute world full) = full

structure ExtraState (S R : Type) where
  scheduler : S
  rng : R

structure RankStates (A B S R : Type) (world : ℕ) where
  model : Fin world → A
  optimizer : Fin world → B
  extra : Fin world → ExtraState S R

structure PortableMetadata where
  format : String
  formatVersion : ℕ
  sourceWorldSize : ℕ
  modelFile : String
  optimizerFile : String

structure CheckpointFiles (M O A B S R : Type) where
  model : ℕ → ℕ → Option A
  optimizer : ℕ → ℕ → Option B
  extra : ℕ → ℕ → Option (ExtraState S R)
  fsdpConfig : Option ℕ
  portableModel : Option M
  portableOptimizer : Option O
  portableMetadata : Option PortableMetadata

inductive ReshardError
  | portableIncomplete
  | missingPortableExtra
  | missingShard
  deriving DecidableEq

/-- The state of a run, gathered, as it is when a checkpoint is written. -/
structure TrainingSnapshot (M O S R : Type) where
  model : M
  optimizer : O
  scheduler : S
  rng : ℕ → R

section Manager

variable {M O A B S R : Type}

structure TrainingSnapshot.SameState
    (left right : TrainingSnapshot M O S R) : Prop where
  model : left.model = right.model
  optimizer : left.optimizer = right.optimizer
  scheduler : left.scheduler = right.scheduler

namespace CheckpointFiles

def empty : CheckpointFiles M O A B S R :=
  ⟨fun _ _ => none, fun _ _ => none, fun _ _ => none, none, none, none, none⟩

def writeRanks {V : Type} (world : ℕ) (values : Fin world → V)
    (files : ℕ → ℕ → Option V) : ℕ → ℕ → Option V :=
  fun size rank =>
    if h : size = world ∧ rank < world then some (values ⟨rank, h.2⟩)
    else files size rank

variable (models : Sharding M A) (optimizers : Sharding O B)

/-- Every rank of a run holds its shard of the snapshot. -/
def ranksOf (world : ℕ) (snapshot : TrainingSnapshot M O S R) :
    RankStates A B S R world where
  model := models.distribute world snapshot.model
  optimizer := optimizers.distribute world snapshot.optimizer
  extra rank := ⟨snapshot.scheduler, snapshot.rng rank⟩

def saveCheckpoint (world : ℕ) (ranks : RankStates A B S R world)
    (files : CheckpointFiles M O A B S R) : CheckpointFiles M O A B S R :=
  { files with
    model := writeRanks world ranks.model files.model
    optimizer := writeRanks world ranks.optimizer files.optimizer
    extra := writeRanks world ranks.extra files.extra
    fsdpConfig := some world }

def exportPortableCheckpoint (world : ℕ) (ranks : RankStates A B S R world)
    (files : CheckpointFiles M O A B S R) : CheckpointFiles M O A B S R :=
  { files with
    portableModel := some (models.gather world ranks.model)
    portableOptimizer := some (optimizers.gather world ranks.optimizer)
    portableMetadata := some {
      format := "torch.distributed.checkpoint.full_state_dict"
      formatVersion := 1
      sourceWorldSize := world
      modelFile := "portable_full_model.pt"
      optimizerFile := "portable_full_optimizer.pt" } }

/-- The full state, laid over the ranks, with the extra state of the one rank
of a run of its own. -/
def loadPortableCheckpoint (world : ℕ)
    (files : CheckpointFiles M O A B S R) :
    Except ReshardError (RankStates A B S R world) :=
  match files.portableModel, files.portableOptimizer with
  | some model, some optimizer =>
    match files.extra 1 0 with
    | none => .error .missingPortableExtra
    | some extra => .ok {
        model := models.distribute world model
        optimizer := optimizers.distribute world optimizer
        extra := fun _ => extra }
  | _, _ => .error .portableIncomplete

def loadShards (world : ℕ) (files : CheckpointFiles M O A B S R) :
    Except ReshardError (RankStates A B S R world) :=
  if h : ∀ rank : Fin world, (files.model world rank).isSome ∧
      (files.optimizer world rank).isSome ∧
      (files.extra world rank).isSome
  then .ok {
    model := fun rank => (files.model world rank).get (h rank).1
    optimizer := fun rank => (files.optimizer world rank).get (h rank).2.1
    extra := fun rank => (files.extra world rank).get (h rank).2.2 }
  else .error .missingShard

def loadCheckpoint (world : ℕ) (files : CheckpointFiles M O A B S R) :
    Except ReshardError (RankStates A B S R world) :=
  match files.fsdpConfig with
  | some saved =>
    if saved ≠ world then
      loadPortableCheckpoint models optimizers world files
    else loadShards world files
  | none => loadShards world files

end CheckpointFiles

/-- A call into the directory, by a run of some size in its state. -/
inductive ManagerCall (M O S R : Type)
  | save (world : ℕ) (positive : 0 < world)
      (snapshot : TrainingSnapshot M O S R)
  | exportPortable (world : ℕ) (positive : 0 < world)
      (snapshot : TrainingSnapshot M O S R)

namespace ManagerCall

variable (models : Sharding M A) (optimizers : Sharding O B)

def apply (files : CheckpointFiles M O A B S R) :
    ManagerCall M O S R → CheckpointFiles M O A B S R
  | .save world _ snapshot =>
    files.saveCheckpoint world
      (CheckpointFiles.ranksOf models optimizers world snapshot)
  | .exportPortable world _ snapshot =>
    files.exportPortableCheckpoint models optimizers world
      (CheckpointFiles.ranksOf models optimizers world snapshot)

def files (calls : List (ManagerCall M O S R)) : CheckpointFiles M O A B S R :=
  calls.foldl (apply models optimizers) .empty

def saved : ManagerCall M O S R → Option (ℕ × TrainingSnapshot M O S R)
  | .save world _ snapshot => some (world, snapshot)
  | .exportPortable _ _ _ => none

def exported : ManagerCall M O S R → Option (TrainingSnapshot M O S R)
  | .save _ _ _ => none
  | .exportPortable _ _ snapshot => some snapshot

/-- A save by a run of one rank. -/
def savedAlone : ManagerCall M O S R → Option (TrainingSnapshot M O S R)
  | .save 1 _ snapshot => some snapshot
  | _ => none

end ManagerCall

def lastOf {T : Type} (kind : ManagerCall M O S R → Option T)
    (calls : List (ManagerCall M O S R)) : Option T :=
  (calls.filterMap kind).getLast?

def exportsSinceSave (calls : List (ManagerCall M O S R)) :
    List (TrainingSnapshot M O S R) :=
  calls.foldl (fun exports call =>
    match call with
    | .save _ _ _ => []
    | .exportPortable _ _ snapshot => exports ++ [snapshot]) []

theorem lastOf_snoc {T : Type} (kind : ManagerCall M O S R → Option T)
    (calls : List (ManagerCall M O S R)) (call : ManagerCall M O S R) :
    lastOf kind (calls ++ [call]) = (kind call).or (lastOf kind calls) := by
  unfold lastOf
  rw [List.filterMap_append]
  cases hkind : kind call with
  | none | some value => simp [hkind]

/-! ## What the files hold -/

variable {models : Sharding M A} {optimizers : Sharding O B}

def RankFiles (files : CheckpointFiles M O A B S R) (world : ℕ)
    (ranks : RankStates A B S R world) : Prop :=
  ∀ rank : Fin world, files.model world rank = some (ranks.model rank) ∧
    files.optimizer world rank = some (ranks.optimizer rank) ∧
    files.extra world rank = some (ranks.extra rank)

structure HoldsLast (models : Sharding M A) (optimizers : Sharding O B)
    (calls : List (ManagerCall M O S R))
    (files : CheckpointFiles M O A B S R) : Prop where
  config : files.fsdpConfig = (lastOf ManagerCall.saved calls).map Prod.fst
  ranks : ∀ world snapshot,
    lastOf ManagerCall.saved calls = some (world, snapshot) →
    RankFiles files world
      (CheckpointFiles.ranksOf models optimizers world snapshot)
  unsaved : lastOf ManagerCall.saved calls = none →
    ∀ world rank, files.model world rank = none
  portableModel : files.portableModel =
    (lastOf ManagerCall.exported calls).map TrainingSnapshot.model
  portableOptimizer : files.portableOptimizer =
    (lastOf ManagerCall.exported calls).map TrainingSnapshot.optimizer
  alone : files.extra 1 0 = (lastOf ManagerCall.savedAlone calls).map
    fun snapshot => ⟨snapshot.scheduler, snapshot.rng 0⟩

variable {world : ℕ} {files : CheckpointFiles M O A B S R}
  {calls : List (ManagerCall M O S R)} {snapshot : TrainingSnapshot M O S R}

theorem writeRanks_self {V : Type} (values : Fin world → V)
    (files : ℕ → ℕ → Option V) (rank : Fin world) :
    CheckpointFiles.writeRanks world values files world rank =
      some (values rank) :=
  dif_pos ⟨rfl, rank.isLt⟩

theorem writeRanks_of_ne {V : Type} (hne : size ≠ world)
    (values : Fin world → V) (files : ℕ → ℕ → Option V) (rank : ℕ) :
    CheckpointFiles.writeRanks world values files size rank =
      files size rank :=
  dif_neg fun h => hne h.1

variable (models optimizers) in
theorem holdsLast_files (calls : List (ManagerCall M O S R)) :
    HoldsLast models optimizers calls
      (ManagerCall.files models optimizers calls) := by
  induction calls using List.reverseRecOn with
  | nil =>
    exact ⟨rfl, nofun, fun _ _ _ => rfl, rfl, rfl, rfl⟩
  | append_singleton calls call ih =>
    have hfiles : ManagerCall.files models optimizers (calls ++ [call]) =
        ManagerCall.apply models optimizers
          (ManagerCall.files models optimizers calls) call :=
      List.foldl_concat ..
    rw [hfiles]
    generalize ManagerCall.files models optimizers calls = files at ih
    cases call with
    | save world positive snapshot =>
      constructor
      · rw [lastOf_snoc]
        rfl
      · intro size other hlast rank
        rw [lastOf_snoc] at hlast
        cases hlast
        exact ⟨writeRanks_self _ _ _, writeRanks_self _ _ _,
          writeRanks_self _ _ _⟩
      · intro hlast
        rw [lastOf_snoc] at hlast
        cases hlast
      · rw [lastOf_snoc]
        exact ih.portableModel
      · rw [lastOf_snoc]
        exact ih.portableOptimizer
      · rw [lastOf_snoc]
        by_cases halone : world = 1
        · subst halone
          exact writeRanks_self (fun rank : Fin 1 =>
            ⟨snapshot.scheduler, snapshot.rng rank⟩) files.extra 0
        · have hkind : ManagerCall.savedAlone
              (.save world positive snapshot) = none := by
            unfold ManagerCall.savedAlone
            split
            · simp_all
            · rfl
          rw [hkind]
          exact (writeRanks_of_ne (Ne.symm halone) _ _ 0).trans ih.alone
    | exportPortable world positive snapshot =>
      constructor
      · rw [lastOf_snoc]
        exact ih.config
      · rw [lastOf_snoc]
        exact ih.ranks
      · rw [lastOf_snoc]
        exact ih.unsaved
      · rw [lastOf_snoc]
        exact congrArg some
          (models.gather_distribute world snapshot.model positive)
      · rw [lastOf_snoc]
        exact congrArg some
          (optimizers.gather_distribute world snapshot.optimizer positive)
      · rw [lastOf_snoc]
        exact ih.alone

/-! ## Loads -/

structure Restores (models : Sharding M A) (optimizers : Sharding O B)
    {world : ℕ} (snapshot : TrainingSnapshot M O S R)
    (ranks : RankStates A B S R world) : Prop where
  model : models.gather world ranks.model = snapshot.model
  optimizer : optimizers.gather world ranks.optimizer = snapshot.optimizer
  scheduler : ∀ rank, (ranks.extra rank).scheduler = snapshot.scheduler

theorem restores_ranksOf (hpositive : 0 < world)
    (snapshot : TrainingSnapshot M O S R) :
    Restores models optimizers snapshot
      (CheckpointFiles.ranksOf models optimizers world snapshot) :=
  ⟨models.gather_distribute world _ hpositive,
    optimizers.gather_distribute world _ hpositive, fun _ => rfl⟩

theorem loadShards_of_rankFiles (hfiles : RankFiles files world ranks) :
    files.loadShards world = .ok ranks := by
  have hall : ∀ rank : Fin world, (files.model world rank).isSome ∧
      (files.optimizer world rank).isSome ∧
      (files.extra world rank).isSome := by
    intro rank
    obtain ⟨hmodel, hoptimizer, hextra⟩ := hfiles rank
    rw [hmodel, hoptimizer, hextra]
    exact ⟨rfl, rfl, rfl⟩
  rw [CheckpointFiles.loadShards, dif_pos hall]
  congr 1
  cases ranks
  simp only [RankStates.mk.injEq]
  refine ⟨funext fun rank => ?_, funext fun rank => ?_, funext fun rank => ?_⟩
  · exact Option.get_of_eq_some _ (hfiles rank).1
  · exact Option.get_of_eq_some _ (hfiles rank).2.1
  · exact Option.get_of_eq_some _ (hfiles rank).2.2

theorem loadShards_unsaved (hpositive : 0 < world)
    (hfiles : ∀ rank, files.model world rank = none) :
    files.loadShards world = .error .missingShard := by
  apply dif_neg
  intro hall
  have hmodel := (hall ⟨0, hpositive⟩).1
  simp [hfiles] at hmodel

theorem loadPortable_eq
    (hfiles : HoldsLast models optimizers calls files) (world : ℕ) :
    files.loadPortableCheckpoint models optimizers world =
      match lastOf ManagerCall.exported calls,
        lastOf ManagerCall.savedAlone calls with
      | some exported, some alone => .ok {
          model := models.distribute world exported.model
          optimizer := optimizers.distribute world exported.optimizer
          extra := fun _ => ⟨alone.scheduler, alone.rng 0⟩ }
      | some _, none => .error .missingPortableExtra
      | none, _ => .error .portableIncomplete := by
  unfold CheckpointFiles.loadPortableCheckpoint
  rw [hfiles.portableModel, hfiles.portableOptimizer, hfiles.alone]
  cases lastOf ManagerCall.exported calls with
  | none => rfl
  | some exported =>
    cases lastOf ManagerCall.savedAlone calls with
    | none | some alone => rfl

theorem exported_of_mem_exportsSinceSave
    (hexported : snapshot ∈ exportsSinceSave calls) :
    ∃ exported, lastOf ManagerCall.exported calls = some exported := by
  induction calls using List.reverseRecOn with
  | nil => cases hexported
  | append_singleton calls call ih =>
    unfold exportsSinceSave at hexported
    rw [List.foldl_concat] at hexported
    cases call with
    | save world positive saved => cases hexported
    | exportPortable world positive exported =>
      refine ⟨exported, ?_⟩
      rw [lastOf_snoc]
      rfl

variable (models optimizers)

def LoadsLast (calls : List (ManagerCall M O S R)) (world : ℕ) : Prop :=
  ∀ ranks : RankStates A B S R world,
    (ManagerCall.files models optimizers calls).loadCheckpoint models
      optimizers world = .ok ranks →
    ∃ size snapshot, lastOf ManagerCall.saved calls = some (size, snapshot) ∧
      Restores models optimizers snapshot ranks

/-- With the state of the last save exported since, a load at another size
does not raise. -/
def LoadsElsewhere (calls : List (ManagerCall M O S R)) (world : ℕ) : Prop :=
  ∀ size snapshot exported,
    lastOf ManagerCall.saved calls = some (size, snapshot) →
    exported ∈ exportsSinceSave calls → exported.SameState snapshot →
    world ≠ size →
    ∃ ranks, (ManagerCall.files models optimizers calls).loadCheckpoint models
      optimizers world = .ok ranks

variable {models optimizers}

/-- The portable state, with the scheduler a run of one rank has left, is the
one of the last save, and such a run has saved where that state is exported. -/
def PortableCurrent (calls : List (ManagerCall M O S R)) : Prop :=
  ∀ size snapshot, lastOf ManagerCall.saved calls = some (size, snapshot) →
    (∀ exported alone, lastOf ManagerCall.exported calls = some exported →
      lastOf ManagerCall.savedAlone calls = some alone →
      exported.model = snapshot.model ∧
        exported.optimizer = snapshot.optimizer ∧
        alone.scheduler = snapshot.scheduler) ∧
    (∀ exported ∈ exportsSinceSave calls, exported.SameState snapshot →
      ∃ alone, lastOf ManagerCall.savedAlone calls = some alone)

theorem loadCheckpoint_elsewhere
    (hlast : lastOf ManagerCall.saved calls = some (size, snapshot))
    (hne : world ≠ size) :
    (ManagerCall.files models optimizers calls).loadCheckpoint models
        optimizers world =
      (ManagerCall.files models optimizers calls).loadPortableCheckpoint models
        optimizers world := by
  have hconfig := (holdsLast_files models optimizers calls).config
  rw [hlast] at hconfig
  unfold CheckpointFiles.loadCheckpoint
  rw [hconfig]
  exact if_pos hne.symm

variable (models optimizers) in
theorem loadCheckpoint_same
    (hlast : lastOf ManagerCall.saved calls = some (world, snapshot)) :
    (ManagerCall.files models optimizers calls).loadCheckpoint models
        optimizers world =
      .ok (CheckpointFiles.ranksOf models optimizers world snapshot) := by
  have hholds := holdsLast_files models optimizers calls
  have hconfig := hholds.config
  rw [hlast] at hconfig
  unfold CheckpointFiles.loadCheckpoint
  rw [hconfig]
  exact (if_neg (not_not_intro rfl)).trans
    (loadShards_of_rankFiles (hholds.ranks world snapshot hlast))

/-- Loads of all sizes give the last save back exactly where the portable state
is the one of that save. -/
theorem checkpoints_reshard_iff (models : Sharding M A)
    (optimizers : Sharding O B) (calls : List (ManagerCall M O S R)) :
    (∀ world, 0 < world → LoadsLast models optimizers calls world ∧
        LoadsElsewhere models optimizers calls world) ↔
      PortableCurrent calls := by
  have hholds := holdsLast_files models optimizers calls
  constructor
  · intro hloads size snapshot hlast
    have hne : size + 1 ≠ size := Nat.succ_ne_self size
    obtain ⟨hlasts, helsewhere⟩ := hloads (size + 1) (Nat.succ_pos size)
    have hportable := loadPortable_eq hholds (size + 1)
    rw [← loadCheckpoint_elsewhere hlast hne] at hportable
    constructor
    · intro exported alone hexported halone
      rw [hexported, halone] at hportable
      obtain ⟨other, found, hfound, hrestores⟩ := hlasts _ hportable
      obtain ⟨-, rfl⟩ := Prod.mk.inj (Option.some.inj (hlast.symm.trans hfound))
      refine ⟨?_, ?_, ?_⟩
      · rw [← hrestores.model, models.gather_distribute _ _ (Nat.succ_pos size)]
      · rw [← hrestores.optimizer,
          optimizers.gather_distribute _ _ (Nat.succ_pos size)]
      · exact hrestores.scheduler 0
    · intro recent hrecent hstate
      obtain ⟨ranks, hranks⟩ :=
        helsewhere size snapshot recent hlast hrecent hstate hne
      obtain ⟨exported, hexported⟩ := exported_of_mem_exportsSinceSave hrecent
      cases halone : lastOf ManagerCall.savedAlone calls with
      | some alone => exact ⟨alone, rfl⟩
      | none =>
          rw [hexported, halone, hranks] at hportable
          cases hportable
  · intro hcurrent world hpositive
    cases hlast : lastOf ManagerCall.saved calls with
    | none =>
        have hconfig := hholds.config
        rw [hlast] at hconfig
        constructor
        · intro ranks hranks
          unfold CheckpointFiles.loadCheckpoint at hranks
          rw [hconfig] at hranks
          rw [show (Option.map Prod.fst (none :
            Option (ℕ × TrainingSnapshot M O S R))) = none from rfl] at hranks
          rw [loadShards_unsaved hpositive (hholds.unsaved hlast world)]
            at hranks
          cases hranks
        · intro size snapshot exported hother
          simp [hlast] at hother
    | some last =>
        obtain ⟨size, snapshot⟩ := last
        obtain ⟨hsame, halone⟩ := hcurrent size snapshot hlast
        by_cases hworld : world = size
        · subst hworld
          have hload := loadCheckpoint_same models optimizers hlast
          constructor
          · intro ranks hranks
            rw [hload] at hranks
            cases hranks
            exact ⟨world, snapshot, hlast, restores_ranksOf hpositive snapshot⟩
          · intro other found exported hfound hrecent hstate hne
            obtain ⟨rfl, -⟩ :=
              Prod.mk.inj (Option.some.inj (hlast.symm.trans hfound))
            exact absurd rfl hne
        · have hportable := loadPortable_eq hholds world
          rw [← loadCheckpoint_elsewhere hlast hworld] at hportable
          constructor
          · intro ranks hranks
            rw [hportable] at hranks
            cases hexported : lastOf ManagerCall.exported calls with
            | none =>
                simp [hexported] at hranks
            | some exported =>
                cases hleft : lastOf ManagerCall.savedAlone calls with
                | none =>
                    rw [hexported, hleft] at hranks
                    cases hranks
                | some alone =>
                    rw [hexported, hleft] at hranks
                    cases hranks
                    obtain ⟨hmodel, hoptimizer, hscheduler⟩ :=
                      hsame exported alone hexported hleft
                    refine ⟨size, snapshot, hlast, ?_, ?_, fun _ => hscheduler⟩
                    · rw [models.gather_distribute _ _ hpositive, hmodel]
                    · rw [optimizers.gather_distribute _ _ hpositive,
                        hoptimizer]
          · intro other found recent hfound hrecent hstate hne
            obtain ⟨rfl, rfl⟩ :=
              Prod.mk.inj (Option.some.inj (hlast.symm.trans hfound))
            obtain ⟨alone, hleft⟩ := halone recent hrecent hstate
            obtain ⟨exported, hexported⟩ :=
              exported_of_mem_exportsSinceSave hrecent
            rw [hexported, hleft] at hportable
            exact ⟨_, hportable⟩

def wholeTensor : Sharding ℕ ℕ where
  distribute _ full _ := full
  gather world parts := if h : 0 < world then parts ⟨0, h⟩ else 0
  gather_distribute _ _ hpositive := dif_pos hpositive

def savedState (value : ℕ) : TrainingSnapshot ℕ ℕ ℕ Unit :=
  ⟨value, value, value, fun _ => ()⟩

def staleCalls : List (ManagerCall ℕ ℕ ℕ Unit) :=
  [.save 1 Nat.one_pos (savedState 1),
    .exportPortable 1 Nat.one_pos (savedState 1),
    .save 2 Nat.two_pos (savedState 2)]

def manyRankCalls : List (ManagerCall ℕ ℕ ℕ Unit) :=
  [.save 2 Nat.two_pos (savedState 2),
    .exportPortable 2 Nat.two_pos (savedState 2)]

/-- A run of four loads the state a run of one rank has exported and a run of
two has since replaced, and nothing where no run of one rank has saved. -/
theorem stale_and_missing_loads : (∃ ranks : RankStates ℕ ℕ ℕ Unit 4,
      (ManagerCall.files wholeTensor wholeTensor staleCalls).loadCheckpoint
        wholeTensor wholeTensor 4 = .ok ranks ∧
      lastOf ManagerCall.saved staleCalls = some (2, savedState 2) ∧
      wholeTensor.gather 4 ranks.model = 1) ∧
    ¬ LoadsLast wholeTensor wholeTensor staleCalls 4 ∧
    (ManagerCall.files wholeTensor wholeTensor manyRankCalls).loadCheckpoint
        wholeTensor wholeTensor 4 = .error .missingPortableExtra ∧
    ¬ LoadsElsewhere wholeTensor wholeTensor manyRankCalls 4 := by
  refine ⟨⟨_, rfl, rfl, rfl⟩, ?_, rfl, ?_⟩
  · intro hloads
    obtain ⟨size, snapshot, hlast, hrestores⟩ := hloads _ rfl
    obtain ⟨-, rfl⟩ := Prod.mk.inj (Option.some.inj hlast)
    exact absurd hrestores.model (by decide)
  · intro hloads
    obtain ⟨ranks, hranks⟩ := hloads 2 (savedState 2) (savedState 2) rfl
      List.mem_cons_self ⟨rfl, rfl, rfl⟩ (by decide)
    cases hranks

end Manager

end VerlVla
