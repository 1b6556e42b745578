import VerlVla.SamplingLaw

/-!
# Saved replay pools

Every rank writes its pool to a file of its own and reads it back into a pool
that was built with any configuration.  The placeholder of a pool that never
held a transition is not written.
-/

namespace VerlVla

variable {τ D : Type}

structure TaskPayload (D : Type) where
  positivePool : List (ReplayRow D)
  negativePool : Option (List (ReplayRow D))
  positiveSize : ℕ
  negativeSize : ℕ
  positivePosition : ℕ
  negativePosition : ℕ

structure PoolPayload (D : Type) where
  version : ℕ
  singlePoolCapacity : ℕ
  positiveOnly : Bool
  size : ℕ
  positiveSize : ℕ
  negativeSize : ℕ
  taskCount : ℕ
  tasks : Dict (TaskPayload D)

/-- The file of every rank. -/
abbrev PoolDirectory (D : Type) : Type := ℕ → Option (PoolPayload D)

namespace ReplayPool

/-- A positive-only pool has no negative rows to write. -/
def taskPayload (state : DualPoolState D) : TaskPayload D where
  positivePool := state.positive.cells
  negativePool := if state.negative.cells.isEmpty then none
    else some state.negative.cells
  positiveSize := state.positive.size
  negativeSize := state.negative.size
  positivePosition := state.positive.position
  negativePosition := state.negative.position

def payload (pool : ReplayPool D) : PoolPayload D where
  version := 5
  singlePoolCapacity := pool.singlePoolCapacity
  positiveOnly := pool.positiveOnly
  size := pool.size
  positiveSize := pool.positiveSize
  negativeSize := pool.negativeSize
  taskCount := pool.taskPools.entries.length
  tasks := pool.taskPools.map fun _ => taskPayload

def saveTo (files : PoolDirectory D) (rank : ℕ) (pool : ReplayPool D) :
    PoolDirectory D :=
  Function.update files rank (some pool.payload)

def saveAll (files : PoolDirectory D) (saves : List (ℕ × ReplayPool D)) :
    PoolDirectory D :=
  saves.foldl (fun files save => save.2.saveTo files save.1) files

def loadTask (positiveOnly : Bool) (task : TaskPayload D) :
    DualPoolState D where
  positive :=
    { cells := task.positivePool
      size := task.positiveSize
      position := task.positivePosition }
  negative :=
    { cells := if positiveOnly then [] else task.negativePool.getD []
      size := if positiveOnly then 0 else task.negativeSize
      position := task.negativePosition }

def loadPayload (pool : ReplayPool D) (payload : PoolPayload D) :
    ReplayPool D := refreshGlobalStats { pool with
  singlePoolCapacity := payload.singlePoolCapacity
  positiveOnly := payload.positiveOnly
  taskPools := payload.tasks.map fun _ => loadTask payload.positiveOnly }

/-- Whether the rank has a file, and the pool after the call. -/
def loadFrom (files : PoolDirectory D) (rank : ℕ) (pool : ReplayPool D) :
    Bool × ReplayPool D :=
  match files rank with
  | none => (false, pool)
  | some payload => (true, pool.loadPayload payload)

def fromPath (files : PoolDirectory D) (rank : ℕ) :
    Option (ReplayPool D) := do
  let payload ← files rank
  let loaded := loadFrom files rank
    (create payload.singlePoolCapacity payload.positiveOnly)
  if loaded.1 then some loaded.2 else none

def withPlaceholder (placeholder : Option (ReplayRow D))
    (pool : ReplayPool D) : ReplayPool D :=
  { pool with invalidSample := placeholder }

/-! ## What stays stored -/

section Stored

variable [Inhabited D] {pool next : ReplayPool D}

theorem Sound.size_ne_zero (hsound : Sound pool) : pool.size ≠ 0 ↔
      ∃ task positive, (pool.ring task positive).size ≠ 0 := by
  have htotal : ∀ positive, totalSize pool.taskPools positive ≠ 0 ↔
      ∃ task, (pool.ring task positive).size ≠ 0 := by
    intro positive
    simp only [totalSize, ne_eq, List.sum_eq_zero_iff, List.mem_map,
      forall_exists_index, and_imp, forall_apply_eq_imp_iff₂, not_forall]
    constructor
    · rintro ⟨⟨task, state⟩, hentry, hsize⟩
      have hlookup : pool.taskPools.lookup task = some state :=
        AList.mem_lookup_iff.mpr hentry
      exact ⟨task, by simpa [ring, hlookup] using hsize⟩
    · rintro ⟨task, hsize⟩
      cases hlookup : pool.taskPools.lookup task with
      | none =>
        cases positive with
        | true | false =>
          simp [ring, hlookup, emptyTaskPool, DualPoolState.ring,
            Ring.create] at hsize
      | some state =>
        refine ⟨⟨task, state⟩, AList.mem_lookup_iff.mp hlookup, ?_⟩
        simpa [ring, hlookup] using hsize
  have hsum : pool.size ≠ 0 ↔ totalSize pool.taskPools true ≠ 0 ∨
      totalSize pool.taskPools false ≠ 0 := by
    rw [hsound.size, hsound.positiveSize, hsound.negativeSize]
    omega
  rw [hsum, htotal, htotal]
  constructor
  · rintro (⟨task, hsize⟩ | ⟨task, hsize⟩)
    · exact ⟨task, true, hsize⟩
    · exact ⟨task, false, hsize⟩
  · rintro ⟨task, _ | _, hsize⟩
    · exact .inr ⟨task, hsize⟩
    · exact .inl ⟨task, hsize⟩

theorem Sound.size_addBatch {normalizeTaskId : τ → String}
    (hsound : Sound pool) (hsize : pool.size ≠ 0)
    (hadd : pool.addBatch normalizeTaskId batch = .ok next) :
    next.size ≠ 0 := by
  obtain ⟨task, positive, hring⟩ := hsound.size_ne_zero.mp hsize
  apply (hsound.addBatch hadd).size_ne_zero.mpr
  refine ⟨task, positive, ?_⟩
  rw [ring_addBatch hadd, insertBlockToPool]
  have hcapacity := hsound.capacity
  split_ifs
  · exact hring
  · simp only [Ring.insert]
    omega

theorem Sound.addAll (normalizeTaskId : τ → String)
    (hsound : Sound pool) (batches : List (PoolBatch τ D)) :
    Sound (pool.addAll normalizeTaskId batches) ∧
      (pool.size ≠ 0 → (pool.addAll normalizeTaskId batches).size ≠ 0) := by
  induction batches using List.reverseRecOn with
  | nil => exact ⟨hsound, id⟩
  | append_singleton batches batch ih =>
    obtain ⟨hbefore, hsize⟩ := ih
    rw [addAll_snoc]
    cases hadd : (pool.addAll normalizeTaskId batches).addBatch
        normalizeTaskId batch with
    | error error => exact ⟨hbefore, hsize⟩
    | ok next =>
      exact ⟨hbefore.addBatch hadd, fun hpool =>
        hbefore.size_addBatch (hsize hpool) hadd⟩

end Stored

/-! ## Reading back what was written -/

section Restored

variable {pool : ReplayPool D}

/-- The files that other ranks write later do not touch this one. -/
theorem saveAll_rank {saves : List (ℕ × ReplayPool D)}
    (hothers : ∀ other ∈ saves, other.1 ≠ rank)
    (files : PoolDirectory D) :
    saveAll (pool.saveTo files rank) saves rank = some pool.payload := by
  unfold saveAll
  induction saves using List.reverseRecOn with
  | nil => simp [saveTo]
  | append_singleton saves other ih =>
    simp only [List.mem_append, List.mem_singleton] at hothers
    rw [List.foldl_concat, saveTo,
      Function.update_of_ne (hothers other (.inr rfl)).symm,
      ih fun other hother => hothers other (.inl hother)]

variable [Inhabited D]

theorem Sound.loadTask_taskPayload (hsound : Sound pool)
    (hstate : pool.taskPools.lookup task = some state) :
    loadTask pool.positiveOnly (taskPayload state) = state := by
  obtain ⟨rows, hholds, _⟩ := hsound.rings task false
  have hring : pool.ring task false = state.negative := by
    simp [ring, hstate, DualPoolState.ring]
  rw [hring] at hholds
  have hcells := hholds.cells
  have hsize := hholds.size
  have hcapacity := hsound.capacity
  obtain ⟨positive, cells, size, position⟩ := state
  cases honly : pool.positiveOnly with
  | true =>
    simp only [honly, ringCapacity] at hcells hsize
    simp_all [loadTask, taskPayload]
  | false =>
    simp only [honly, ringCapacity] at hcells
    have hne : cells ≠ [] := by
      rw [← List.length_pos_iff]
      simpa [hcells] using hcapacity
    simp [loadTask, taskPayload, hne]

theorem Sound.loadPayload (hsound : Sound pool) (fresh : ReplayPool D) :
    fresh.loadPayload pool.payload =
      pool.withPlaceholder fresh.invalidSample := by
  have htasks : (pool.taskPools.map fun _ => taskPayload).map
      (fun _ => loadTask pool.positiveOnly) = pool.taskPools := by
    apply AList.ext
    simp only [Dict.map, List.map_map]
    nth_rewrite 2 [← List.map_id pool.taskPools.entries]
    apply List.map_congr_left
    intro entry hentry
    have hlookup := AList.mem_lookup_iff.mpr hentry
    simp [hsound.loadTask_taskPayload hlookup]
  simp only [ReplayPool.loadPayload, payload, refreshGlobalStats, htasks,
    withPlaceholder]
  rw [← hsound.positiveSize, ← hsound.negativeSize, ← hsound.size]

theorem Sound.loadFrom {files : PoolDirectory D} (hsound : Sound pool)
    (hfile : files rank = some pool.payload) (fresh : ReplayPool D) :
    fresh.loadFrom files rank =
      (true, pool.withPlaceholder fresh.invalidSample) := by
  rw [ReplayPool.loadFrom, hfile]
  simp [hsound.loadPayload]

theorem Sound.withPlaceholder (hsound : Sound pool)
    (placeholder : Option (ReplayRow D)) :
    Sound (pool.withPlaceholder placeholder) :=
  ⟨hsound.1, hsound.2, hsound.3, hsound.4, hsound.5⟩

end Restored

/-! ## The placeholder -/

section Placeholder

variable [Inhabited D] {normalizeTaskId : τ → String} {pool : ReplayPool D}

/-- The placeholder does not decide what is stored. -/
theorem addBatch_map_placeholder (placeholder : Option (ReplayRow D))
    (batch : PoolBatch τ D) :
    ((pool.withPlaceholder placeholder).addBatch normalizeTaskId batch).map
        (withPlaceholder none) =
      (pool.addBatch normalizeTaskId batch).map (withPlaceholder none) := by
  unfold addBatch require
  by_cases hrows : batch.rows.isEmpty
  · simp [hrows, Except.map, withPlaceholder]
  · by_cases hlength : batch.taskIds.length = batch.rows.length
    · cases hvalid : (validEntries normalizeTaskId pool.positiveOnly
        batch).isEmpty with
      | true | false =>
        simp [hrows, hlength, hvalid, withPlaceholder, Except.map,
          refreshGlobalStats, pure, bind, Except.pure, Except.bind]
    · simp [hrows, hlength, Except.map, bind, Except.bind]

/-- Once the pool holds a transition its placeholder is never looked at. -/
theorem sampleBatch_withPlaceholder (hsize : pool.size ≠ 0)
    (placeholder : Option (ReplayRow D)) (product : Product) (batchSize : ℕ)
    (ratio : ℚ) (draws : SampleDraws) :
    sampleBatch product (pool.withPlaceholder placeholder) batchSize ratio
        draws = sampleBatch product pool batchSize ratio draws := by
  simp only [sampleBatch, withPlaceholder, hsize, if_false]
  rfl

end Placeholder

/-! ## Later calls -/

inductive PoolCall (τ D : Type)
  | add (batch : PoolBatch τ D)
  | sample (batchSize : ℕ) (ratio : ℚ) (draws : SampleDraws)
  | save

inductive PoolAnswer (D : Type)
  | added (result : Except AddError Unit)
  | sampled
      (answer : Except SampleError (List (ReplayRow D) × SampleInfo))
  | saved (payload : PoolPayload D)

section Calls

variable [Inhabited D] (product : Product) (normalizeTaskId : τ → String)

def call (pool : ReplayPool D) : PoolCall τ D → PoolAnswer D × ReplayPool D
  | .add batch =>
    (.added ((pool.addBatch normalizeTaskId batch).map fun _ => ()),
      pool.addAll normalizeTaskId [batch])
  | .sample batchSize ratio draws =>
    (.sampled (sampleBatch product pool batchSize ratio draws), pool)
  | .save => (.saved pool.payload, pool)

def answers (pool : ReplayPool D) : List (PoolCall τ D) → List (PoolAnswer D)
  | [] => []
  | poolCall :: calls =>
    let next := pool.call product normalizeTaskId poolCall
    next.1 :: answers next.2 calls

/-- Pools that differ in their placeholder at most. -/
def SameRows (pool other : ReplayPool D) : Prop :=
  pool.withPlaceholder none = other.withPlaceholder none

variable {pool other : ReplayPool D}

omit [Inhabited D] in
theorem SameRows.eq_withPlaceholder (hsame : pool.SameRows other) :
    pool = other.withPlaceholder pool.invalidSample := by
  have hset := congrArg (withPlaceholder pool.invalidSample) hsame
  exact hset

theorem SameRows.addBatch (hsame : pool.SameRows other)
    (batch : PoolBatch τ D) :
    (pool.addBatch normalizeTaskId batch).map (withPlaceholder none) =
      (other.addBatch normalizeTaskId batch).map (withPlaceholder none) := by
  rw [← addBatch_map_placeholder none, hsame, addBatch_map_placeholder none]

theorem SameRows.addAll (hsame : pool.SameRows other)
    (batches : List (PoolBatch τ D)) :
    (pool.addAll normalizeTaskId batches).SameRows
      (other.addAll normalizeTaskId batches) := by
  induction batches generalizing pool other with
  | nil => exact hsame
  | cons batch batches ih =>
    apply ih
    have hmap := hsame.addBatch normalizeTaskId batch
    cases hpool : pool.addBatch normalizeTaskId batch <;>
      cases hother : other.addBatch normalizeTaskId batch <;>
      simp_all [Except.map, Except.toOption, SameRows]

theorem SameRows.answers (hsame : pool.SameRows other) (hsound : Sound other)
    (hsize : other.size ≠ 0) (calls : List (PoolCall τ D)) :
    pool.answers product normalizeTaskId calls =
      other.answers product normalizeTaskId calls := by
  induction calls generalizing pool other with
  | nil => rfl
  | cons poolCall calls ih =>
    cases poolCall with
    | add batch =>
      have hadd := congrArg (Except.map fun _ => ())
        (hsame.addBatch normalizeTaskId batch)
      obtain ⟨hnext, hkept⟩ := hsound.addAll normalizeTaskId [batch]
      simp only [ReplayPool.answers, call,
        ih (hsame.addAll normalizeTaskId [batch]) hnext (hkept hsize)]
      cases hpool : pool.addBatch normalizeTaskId batch <;>
        cases hother : other.addBatch normalizeTaskId batch <;>
        simp_all [Except.map]
    | sample batchSize ratio draws =>
      simp only [ReplayPool.answers, call, ih hsame hsound hsize]
      rw [hsame.eq_withPlaceholder, sampleBatch_withPlaceholder hsize]
    | save =>
      simp only [ReplayPool.answers, call, ih hsame hsound hsize]
      rw [hsame.eq_withPlaceholder]
      rfl

end Calls

/-! ## Resumed runs -/

/-- One process of a run: the configuration it builds its pool with, what
other ranks saved before it read its file, and what it adds. -/
structure PoolLife (τ D : Type) where
  singlePoolCapacity : ℕ
  positiveOnly : Bool
  others : List (ℕ × ReplayPool D)
  batches : List (PoolBatch τ D)

section Resumed

variable [Inhabited D] (normalizeTaskId : τ → String)
  (files : PoolDirectory D) (rank : ℕ)

/-- The pool is saved, and the next process loads it and goes on. -/
def resume (pool : ReplayPool D) (life : PoolLife τ D) : ReplayPool D :=
  let written := saveAll (pool.saveTo files rank) life.others
  ((create life.singlePoolCapacity life.positiveOnly).loadFrom written
    rank).2.addAll normalizeTaskId life.batches

theorem Sound.resume {pool : ReplayPool D} {life : PoolLife τ D}
    (hsound : Sound pool)
    (hothers : ∀ other ∈ life.others, other.1 ≠ rank) :
    pool.resume normalizeTaskId files rank life =
      (pool.withPlaceholder none).addAll normalizeTaskId life.batches := by
  have hload := hsound.loadFrom (saveAll_rank hothers files)
    (create life.singlePoolCapacity life.positiveOnly)
  simp only [ReplayPool.resume, hload]
  rfl

theorem Sound.lives {pool : ReplayPool D} {lives : List (PoolLife τ D)}
    (hsound : Sound pool)
    (hothers : ∀ life ∈ lives, ∀ other ∈ life.others, other.1 ≠ rank) :
    Sound (lives.foldl (ReplayPool.resume normalizeTaskId files rank) pool) ∧
      (lives.foldl (ReplayPool.resume normalizeTaskId files rank)
        pool).SameRows
          (pool.addAll normalizeTaskId (lives.flatMap (·.batches))) := by
  induction lives generalizing pool with
  | nil => exact ⟨hsound, rfl⟩
  | cons life lives ih =>
    simp only [List.mem_cons, forall_eq_or_imp] at hothers
    have hnext := hsound.resume normalizeTaskId files rank hothers.1
    have hstart : (pool.withPlaceholder none).SameRows pool := rfl
    have hsame := (hstart.addAll normalizeTaskId life.batches).addAll
      normalizeTaskId (lives.flatMap (·.batches))
    have hlater := ih ((hsound.withPlaceholder none).addAll normalizeTaskId
      life.batches).1 hothers.2
    have hjoin : (pool.addAll normalizeTaskId life.batches).addAll
        normalizeTaskId (lives.flatMap (·.batches)) =
        pool.addAll normalizeTaskId ((life :: lives).flatMap (·.batches)) := by
      simp [ReplayPool.addAll]
    rw [List.foldl_cons, hnext, ← hjoin]
    exact ⟨hlater.1, hlater.2.trans hsame⟩

/-- What a run of several processes shares with the one that never stopped,
and what its next file gives back. -/
structure ResumedRun (product : Product) (resumed whole : ReplayPool D)
    (written : PoolDirectory D) : Prop where
  rows : resumed.SameRows whole
  continues : whole.size ≠ 0 → ∀ calls : List (PoolCall τ D),
    resumed.answers product normalizeTaskId calls =
      whole.answers product normalizeTaskId calls
  loaded : ∀ fresh : ReplayPool D, fresh.loadFrom written rank =
    (true, resumed.withPlaceholder fresh.invalidSample)
  fromPath : fromPath written rank = some (resumed.withPlaceholder none)
  answers : (∀ calls : List (PoolCall τ D),
      (resumed.withPlaceholder none).answers product normalizeTaskId calls =
        resumed.answers product normalizeTaskId calls) ↔
    resumed.size ≠ 0 ∨ resumed.invalidSample = none

theorem resumed_run_continues (product : Product) (hcapacity : 0 < capacity)
    (positiveOnly : Bool) {lives : List (PoolLife τ D)}
    {others : List (ℕ × ReplayPool D)}
    (hlives : ∀ life ∈ lives, ∀ other ∈ life.others, other.1 ≠ rank)
    (hothers : ∀ other ∈ others, other.1 ≠ rank) :
    let resumed := lives.foldl (resume normalizeTaskId files rank)
      (create capacity positiveOnly)
    ResumedRun normalizeTaskId rank product resumed
      ((create capacity positiveOnly).addAll normalizeTaskId
        (lives.flatMap (·.batches)))
      (saveAll (resumed.saveTo files rank) others) := by
  intro resumed
  have hreachable : Reachable normalizeTaskId
      (create capacity positiveOnly : ReplayPool D) :=
    .create hcapacity positiveOnly
  obtain ⟨hsound, hrows⟩ := hreachable.sound.lives normalizeTaskId files rank
    hlives
  have hfile : saveAll (resumed.saveTo files rank) others rank =
      some resumed.payload := saveAll_rank hothers files
  have hload := hsound.loadFrom hfile
  constructor
  case rows => exact hrows
  case continues =>
    intro hsize calls
    exact hrows.answers product normalizeTaskId
      (hreachable.sound.addAll normalizeTaskId _).1 hsize calls
  case loaded => exact hload
  case fromPath =>
    simp only [ReplayPool.fromPath, hfile, Option.bind_eq_bind,
      Option.bind_some]
    rw [hload]
    rfl
  case answers =>
    constructor
    · intro hanswers
      by_contra hfresh
      push Not at hfresh
      obtain ⟨sample, hsample⟩ := Option.ne_none_iff_exists'.mp hfresh.2
      have hfirst := hanswers [.sample 1 0 ⟨fun _ _ => [], []⟩]
      simp [answers, call, sampleBatch, ReplayPool.withPlaceholder, hfresh.1,
        hsample] at hfirst
    · rintro (hsize | hnone) calls
      · have hsame : (resumed.withPlaceholder none).SameRows resumed := rfl
        exact hsame.answers product normalizeTaskId hsound hsize calls
      · have hsame : resumed.withPlaceholder none = resumed := by
          rw [← hnone]
          rfl
        rw [hsame]

end Resumed

/-- The second process is configured with another capacity and flag, and
another rank saves an empty pool. -/
def restarted : PoolLife String ℕ where
  singlePoolCapacity := 5
  positiveOnly := true
  others := [(1, create 1 true)]
  batches := [successBatch [2]]

theorem resumed_run_continues_restarted :
    (([⟨1, false, [], [successBatch [0, 1]]⟩, restarted].foldl
      (resume id (fun _ => none) 0) (create 2 false)).answers exactProduct id
        [.sample 2 1 ⟨fun _ _ => [0, 1], [0, 1]⟩]) =
      ((create 2 false).addAll id [successBatch [0, 1],
        successBatch [2]]).answers exactProduct id
          [.sample 2 1 ⟨fun _ _ => [0, 1], [0, 1]⟩] :=
  (resumed_run_continues id (fun _ => none) 0 exactProduct (by decide) false
    (by simp [restarted]) (List.forall_mem_nil _)).continues (by decide) _

end ReplayPool
end VerlVla
