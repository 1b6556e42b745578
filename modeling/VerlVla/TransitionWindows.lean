import Mathlib.Data.List.GetD
import VerlVla.BlockPartition
import VerlVla.Checks

/-!
# Windows of recorded transitions

The replay is prefilled from a dataset of recorded episodes.  Every transition
is a pair of action chunks of one episode, taken at a stride, and an episode
may end with its last chunk as a transition to itself.
-/

namespace VerlVla

open List hiding cons count head nil
namespace Rlpd

/-- The columns of a frame that the replay reads. -/
structure Frame (A : Type) where
  action : A
  reward : ℚ
  terminated : Bool
  success : Bool

structure DatasetEpisode where
  episodeIndex : ℤ
  datasetFromIndex : ℕ
  datasetToIndex : ℕ

def Consecutive : ℕ → List DatasetEpisode → ℕ → Prop
  | first, [], last => first = last
  | first, episode :: episodes, last =>
    episode.datasetFromIndex = first ∧ first ≤ episode.datasetToIndex ∧
      Consecutive episode.datasetToIndex episodes last

structure LeRobotDataset (A : Type) where
  episodes : List DatasetEpisode
  frames : List (Frame A)
  consecutive : Consecutive 0 episodes frames.length

inductive DatasetError
  | valueError (text : String)
  | indexError (index : ℕ)
  | runtimeError (text : String)
  deriving DecidableEq

def frameAt {A : Type} (frames : List (Frame A)) (index : ℕ) :
    Except DatasetError (Frame A) :=
  match frames[index]? with
  | some frame => .ok frame
  | none => .error (.indexError index)

/-! ## The records -/

structure TransitionRecord where
  start : ℕ
  next : ℕ
  terminal : Bool
  episodeSuccess : Bool
  deriving DecidableEq

/-- The records that the generator has yielded, and whether it has
returned. -/
structure Generated where
  records : List TransitionRecord
  emitted : ℕ
  returned : Bool

namespace Generated

def initial : Generated := ⟨[], 0, false⟩

/-- Yield a record, or return at the limit; 0 is no limit. -/
def yieldRecord (maxTransitions : ℕ) (generated : Generated)
    (record : TransitionRecord) : Generated :=
  if generated.returned then generated
  else if 0 < maxTransitions ∧ maxTransitions ≤ generated.emitted then
    { generated with returned := true }
  else ⟨generated.records ++ [record], generated.emitted + 1, false⟩

def yieldRecords (maxTransitions : ℕ) (generated : Generated)
    (records : List TransitionRecord) : Generated :=
  records.foldl (yieldRecord maxTransitions) generated

end Generated

def rangeStep (stop step : ℕ) : List ℕ :=
  range' 0 ((stop + step - 1) / step) step

variable {A : Type}

def readEpisodeSuccess (frames : List (Frame A))
    (episode : DatasetEpisode) : Except DatasetError Bool :=
  if episode.datasetFromIndex < episode.datasetToIndex then
    (frameAt frames (episode.datasetToIndex - 1)).map Frame.success
  else .ok false

/-- One round of the loop over the selected episodes. -/
def iterEpisode (frames : List (Frame A)) (actionChunkSteps stride : ℕ)
    (includeFinalTransition : Bool) (maxTransitions : ℕ)
    (generated : Generated) (episode : DatasetEpisode) :
    Except DatasetError Generated :=
  if generated.returned then .ok generated
  else do
    let start := episode.datasetFromIndex
    let stop := episode.datasetToIndex
    let episodeLength := (stop : ℤ) - start
    let episodeSuccess ← readEpisodeSuccess frames episode
    let numTransitions := (stop : ℤ) - start - actionChunkSteps * 2 + 1
    let windows :=
      if 0 < numTransitions then rangeStep numTransitions.toNat stride
      else []
    let generated := generated.yieldRecords maxTransitions
      (windows.map fun offset =>
        ⟨start + offset, start + offset + actionChunkSteps, false,
          episodeSuccess⟩)
    if includeFinalTransition ∧ (actionChunkSteps : ℤ) ≤ episodeLength then
      .ok (generated.yieldRecord maxTransitions
        ⟨stop - actionChunkSteps, stop - actionChunkSteps, true,
          episodeSuccess⟩)
    else .ok generated

def isSelected (episodes : Option (List ℤ)) (episode : DatasetEpisode) :
    Bool :=
  match episodes with
  | none => true
  | some selected => selected.contains episode.episodeIndex

def iterLerobotTransitionRecords (dataset : LeRobotDataset A)
    (actionChunkSteps : ℕ) (transitionStride : ℤ)
    (includeFinalTransition : Bool) (episodes : Option (List ℤ))
    (maxTransitions : ℕ) : Except DatasetError (List TransitionRecord) := do
  require (0 < transitionStride) (.valueError
    s!"transition_stride must be positive, got {transitionStride}")
  let generated ← dataset.episodes.foldlM (fun generated episode =>
    if isSelected episodes episode then
      iterEpisode dataset.frames actionChunkSteps transitionStride.toNat
        includeFinalTransition maxTransitions generated episode
    else .ok generated) Generated.initial
  .ok generated.records

def stackLerobotHfRows {B : Type} (frames : List (Frame A))
    (key : Frame A → B) (indices : List ℕ) :
    Except DatasetError (List B) := do
  let values ← indices.mapM (frameAt frames)
  require (values ≠ []) (.runtimeError "stack expects a non-empty TensorList")
  .ok (values.map key)

def chunkIndices (startIndices : List ℕ) (chunkSize : ℕ) : List ℕ :=
  startIndices.flatMap fun start =>
    (range chunkSize).map fun offset => start + offset

def readChunks {B : Type} (frames : List (Frame A)) (key : Frame A → B)
    (startIndices : List ℕ) (chunkSize : ℕ) :
    Except DatasetError (List (List B)) := do
  let values ← stackLerobotHfRows frames key
    (chunkIndices startIndices chunkSize)
  .ok ((range startIndices.length).map fun sample =>
    block chunkSize sample values)

def readLerobotActionChunks (frames : List (Frame A))
    (startIndices : List ℕ) (chunkSize : ℕ) :
    Except DatasetError (List (List A)) :=
  readChunks frames Frame.action startIndices chunkSize

def readLerobotScalarChunks {B : Type} (frames : List (Frame A))
    (key : Frame A → B) (startIndices : List ℕ) (chunkSize : ℕ) :
    Except DatasetError (List (List B)) :=
  readChunks frames key startIndices chunkSize

/-! ## What the generator yields -/

namespace Generated

variable {maxTransitions : ℕ} {generated : Generated}

theorem yieldRecords_append (left right : List TransitionRecord) :
    generated.yieldRecords maxTransitions (left ++ right) =
      (generated.yieldRecords maxTransitions left).yieldRecords
        maxTransitions right :=
  foldl_append

theorem yieldRecords_of_returned (hreturned : generated.returned = true)
    (records : List TransitionRecord) :
    generated.yieldRecords maxTransitions records = generated := by
  induction records with
  | nil => rfl
  | cons record records ih =>
    have hskip : generated.yieldRecord maxTransitions record = generated := by
      simp [yieldRecord, hreturned]
    change (generated.yieldRecord maxTransitions record).yieldRecords
      maxTransitions records = generated
    rw [hskip, ih]

theorem records_yieldRecords (hreturned : generated.returned = false)
    (hemitted : generated.emitted = generated.records.length)
    (records : List TransitionRecord) :
    (generated.yieldRecords maxTransitions records).records =
      generated.records ++ (if maxTransitions = 0 then records
        else records.take (maxTransitions - generated.records.length)) := by
  induction records generalizing generated with
  | nil => simp [yieldRecords]
  | cons record records ih =>
    change ((generated.yieldRecord maxTransitions record).yieldRecords
      maxTransitions records).records = _
    by_cases hlimit : 0 < maxTransitions ∧ maxTransitions ≤ generated.emitted
    · have hstop : generated.yieldRecord maxTransitions record =
          { generated with returned := true } := by
        simp [yieldRecord, hreturned, hlimit]
      have hnone : maxTransitions - generated.records.length = 0 := by
        omega
      rw [hstop, yieldRecords_of_returned rfl, if_neg (by omega), hnone,
        take_zero, append_nil]
    · have hyield : generated.yieldRecord maxTransitions record =
          ⟨generated.records ++ [record], generated.emitted + 1, false⟩ := by
        simp [yieldRecord, hreturned, hlimit]
      rw [hyield, ih rfl (by simp [hemitted])]
      by_cases hall : maxTransitions = 0
      · simp [hall]
      · have hone : maxTransitions - generated.records.length =
            maxTransitions - (generated.records ++ [record]).length + 1 := by
          rw [length_append, length_singleton]
          omega
        rw [if_neg hall, if_neg hall, hone, take_succ_cons,
          append_assoc, singleton_append]

end Generated

section Episodes

variable {frames : List (Frame A)} {actionChunkSteps stride : ℕ}
  {includeFinalTransition : Bool} {maxTransitions : ℕ}
  {episode : DatasetEpisode}

def episodeSuccess (frames : List (Frame A)) (episode : DatasetEpisode) :
    Bool :=
  if episode.datasetFromIndex < episode.datasetToIndex then
    (frames[episode.datasetToIndex - 1]?.map Frame.success).getD false
  else false

theorem readEpisodeSuccess_eq
    (hinside : episode.datasetToIndex ≤ frames.length) :
    readEpisodeSuccess frames episode =
      .ok (episodeSuccess frames episode) := by
  unfold readEpisodeSuccess episodeSuccess
  by_cases hframes : episode.datasetFromIndex < episode.datasetToIndex
  · have hlast : episode.datasetToIndex - 1 < frames.length := by
      omega
    rw [if_pos hframes, if_pos hframes, frameAt, getElem?_eq_getElem hlast]
    rfl
  · rw [if_neg hframes, if_neg hframes]

def windowRecords (frames : List (Frame A)) (actionChunkSteps stride : ℕ)
    (includeFinalTransition : Bool) (episode : DatasetEpisode) :
    List TransitionRecord :=
  let start := episode.datasetFromIndex
  let stop := episode.datasetToIndex
  let success := episodeSuccess frames episode
  let numTransitions := (stop : ℤ) - start - actionChunkSteps * 2 + 1
  ((if 0 < numTransitions then rangeStep numTransitions.toNat stride
    else []).map fun offset =>
      ⟨start + offset, start + offset + actionChunkSteps, false, success⟩) ++
    if includeFinalTransition ∧
        (actionChunkSteps : ℤ) ≤ (stop : ℤ) - start then
      [⟨stop - actionChunkSteps, stop - actionChunkSteps, true, success⟩]
    else []

theorem iterEpisode_eq (hinside : episode.datasetToIndex ≤ frames.length)
    (generated : Generated) :
    iterEpisode frames actionChunkSteps stride includeFinalTransition
        maxTransitions generated episode =
      .ok (generated.yieldRecords maxTransitions
        (windowRecords frames actionChunkSteps stride
          includeFinalTransition episode)) := by
  unfold iterEpisode
  by_cases hreturned : generated.returned = true
  · rw [if_pos hreturned, Generated.yieldRecords_of_returned hreturned]
  · rw [if_neg hreturned]
    rw [readEpisodeSuccess_eq hinside]
    unfold windowRecords
    rw [Generated.yieldRecords_append]
    by_cases hfinal : includeFinalTransition = true ∧ (actionChunkSteps : ℤ) ≤
          (episode.datasetToIndex : ℤ) - episode.datasetFromIndex
    · simp only [if_pos hfinal]
      rfl
    · simp only [if_neg hfinal]
      rfl

theorem iterEpisodes_eq {selected : DatasetEpisode → Bool}
    {episodes : List DatasetEpisode}
    (hinside : ∀ episode ∈ episodes,
      episode.datasetToIndex ≤ frames.length) (generated : Generated) :
    (episodes.foldlM (fun generated episode =>
      if selected episode then
        iterEpisode frames actionChunkSteps stride includeFinalTransition
          maxTransitions generated episode
      else .ok generated) generated) =
      .ok (generated.yieldRecords maxTransitions
        ((episodes.filter selected).flatMap
          (windowRecords frames actionChunkSteps stride
            includeFinalTransition))) := by
  induction episodes generalizing generated with
  | nil => rfl
  | cons episode episodes ih =>
    have hrest := fun next => ih (fun other hother =>
      hinside other (mem_cons_of_mem _ hother)) next
    rw [foldlM_cons]
    cases hselected : selected episode with
    | false =>
      rw [filter_cons_of_neg (by simp [hselected])]
      exact hrest generated
    | true =>
      rw [filter_cons_of_pos hselected, flatMap_cons,
        Generated.yieldRecords_append, if_pos rfl,
        iterEpisode_eq (hinside episode mem_cons_self)]
      exact hrest _

end Episodes

/-! ## The windows of an episode -/

def IsTransition (actionChunkSteps stride : ℕ) (episode : DatasetEpisode)
    (record : TransitionRecord) : Prop :=
  record.terminal = false ∧
    (∃ index, record.start = episode.datasetFromIndex + index * stride) ∧
    record.start + 2 * actionChunkSteps ≤ episode.datasetToIndex ∧
    record.next = record.start + actionChunkSteps

def IsFinal (actionChunkSteps : ℕ) (includeFinalTransition : Bool)
    (episode : DatasetEpisode) (record : TransitionRecord) : Prop :=
  record.terminal = true ∧ includeFinalTransition = true ∧
    episode.datasetFromIndex + actionChunkSteps ≤ episode.datasetToIndex ∧
    record.start + actionChunkSteps = episode.datasetToIndex ∧
    record.next = record.start

/-- The records of an episode: its windows in order, and nothing else. -/
structure EpisodeWindows (frames : List (Frame A))
    (actionChunkSteps stride : ℕ) (includeFinalTransition : Bool)
    (episode : DatasetEpisode) (records : List TransitionRecord) : Prop where
  increasing : records.Pairwise fun first second =>
    first.start < second.start
  mem_iff : ∀ record, record ∈ records ↔
    (IsTransition actionChunkSteps stride episode record ∨
      IsFinal actionChunkSteps includeFinalTransition episode record) ∧
    frames[episode.datasetToIndex - 1]?.map Frame.success =
      some record.episodeSuccess

structure InEpisode (actionChunkSteps : ℕ) (episode : DatasetEpisode)
    (record : TransitionRecord) : Prop where
  start_ge : episode.datasetFromIndex ≤ record.start
  start_le : record.start + actionChunkSteps ≤ episode.datasetToIndex
  next_ge : episode.datasetFromIndex ≤ record.next
  next_le : record.next + actionChunkSteps ≤ episode.datasetToIndex

theorem mem_rangeStep (hstep : 0 < step) : index ∈ rangeStep stop step ↔
      index < stop ∧ ∃ count, index = count * step := by
  have hround := Nat.div_add_mod (stop + step - 1) step
  have hrest := Nat.mod_lt (stop + step - 1) hstep
  unfold rangeStep
  rw [mem_range']
  constructor
  · rintro ⟨count, hcount, hindex⟩
    have hle := Nat.mul_le_mul_left step (Nat.succ_le_of_lt hcount)
    rw [Nat.mul_succ] at hle
    refine ⟨by omega, count, ?_⟩
    rw [hindex, Nat.zero_add, Nat.mul_comm]
  · rintro ⟨hstop, count, hindex⟩
    refine ⟨count, ?_, ?_⟩
    · apply (Nat.lt_div_iff_mul_lt hstep).mpr
      rw [hindex] at hstop
      omega
    · rw [hindex, Nat.zero_add, Nat.mul_comm]

section Windows

variable {frames : List (Frame A)} {actionChunkSteps stride : ℕ}
  {includeFinalTransition : Bool} {episode : DatasetEpisode}
  {record : TransitionRecord}

theorem InEpisode.of_window
    (hwindow : IsTransition actionChunkSteps stride episode record ∨
      IsFinal actionChunkSteps includeFinalTransition episode record) :
    InEpisode actionChunkSteps episode record := by
  rcases hwindow with ⟨_, ⟨index, hstart⟩, hfits, hnext⟩ |
    ⟨_, _, hlength, hstart, hnext⟩
  · constructor <;> omega
  · constructor <;> omega

theorem EpisodeWindows.inEpisode
    (hwindows : EpisodeWindows frames actionChunkSteps stride
      includeFinalTransition episode records) (hrecord : record ∈ records) :
    InEpisode actionChunkSteps episode record :=
  .of_window ((hwindows.mem_iff record).mp hrecord).1

section

variable (hsteps : 0 < actionChunkSteps) (hstride : 0 < stride)

include hsteps hstride

theorem mem_windowRecords (hinside : episode.datasetToIndex ≤ frames.length) :
    record ∈ windowRecords frames actionChunkSteps stride
        includeFinalTransition episode ↔
      (IsTransition actionChunkSteps stride episode record ∨
        IsFinal actionChunkSteps includeFinalTransition episode record) ∧
      frames[episode.datasetToIndex - 1]?.map Frame.success =
        some record.episodeSuccess := by
  have hsuccess : episode.datasetFromIndex < episode.datasetToIndex →
      frames[episode.datasetToIndex - 1]?.map Frame.success =
        some (episodeSuccess frames episode) := by
    intro hframes
    have hlast : episode.datasetToIndex - 1 < frames.length := by omega
    rw [episodeSuccess, if_pos hframes, getElem?_eq_getElem hlast]
    rfl
  unfold windowRecords
  simp only [mem_append, mem_map]
  constructor
  · rintro (⟨offset, hoffset, hrecord⟩ | hfinal)
    · by_cases hcount : 0 < (episode.datasetToIndex : ℤ) -
          episode.datasetFromIndex - actionChunkSteps * 2 + 1
      · rw [if_pos hcount, mem_rangeStep hstride] at hoffset
        obtain ⟨hlt, index, hindex⟩ := hoffset
        rw [← hrecord]
        refine ⟨.inl ⟨rfl, ⟨index, ?_⟩, ?_, rfl⟩, hsuccess (by omega)⟩
        · rw [hindex]
        · change episode.datasetFromIndex + offset +
            2 * actionChunkSteps ≤ episode.datasetToIndex
          omega
      · rw [if_neg hcount] at hoffset
        cases hoffset
    · by_cases hlast : includeFinalTransition = true ∧ (actionChunkSteps : ℤ) ≤
            (episode.datasetToIndex : ℤ) - episode.datasetFromIndex
      · rw [if_pos hlast, mem_singleton] at hfinal
        rw [hfinal]
        refine ⟨.inr ⟨rfl, hlast.1, by omega, ?_, rfl⟩, hsuccess (by omega)⟩
        change episode.datasetToIndex - actionChunkSteps +
          actionChunkSteps = episode.datasetToIndex
        omega
      · rw [if_neg hlast] at hfinal
        cases hfinal
  · rintro ⟨hwindow, hflag⟩
    have hin := InEpisode.of_window hwindow
    have hframes : episode.datasetFromIndex < episode.datasetToIndex := by
      have hlow := hin.start_ge
      have hhigh := hin.start_le
      omega
    rw [hsuccess hframes, Option.some.injEq] at hflag
    rcases hwindow with ⟨hterminal, ⟨index, hstart⟩, hfits, hnext⟩ |
      ⟨hterminal, hinclude, hlength, hstart, hnext⟩
    · left
      refine ⟨index * stride, ?_, ?_⟩
      · rw [if_pos (by omega), mem_rangeStep hstride]
        exact ⟨by omega, index, rfl⟩
      · cases record
        simp_all
    · right
      rw [if_pos ⟨hinclude, by omega⟩, mem_singleton]
      cases record
      simp only at hterminal hnext hstart hflag
      rw [TransitionRecord.mk.injEq]
      refine ⟨by omega, by omega, hterminal, hflag.symm⟩

theorem windowRecords_increasing :
    (windowRecords frames actionChunkSteps stride includeFinalTransition
      episode).Pairwise fun first second => first.start < second.start := by
  unfold windowRecords
  rw [pairwise_append]
  refine ⟨?_, ?_, ?_⟩
  · rw [pairwise_map]
    by_cases hcount : 0 < (episode.datasetToIndex : ℤ) -
        episode.datasetFromIndex - actionChunkSteps * 2 + 1
    · rw [if_pos hcount]
      apply List.Pairwise.imp _ (pairwise_lt_range' stride hstride)
      intro first second hlt
      exact Nat.add_lt_add_left hlt _
    · rw [if_neg hcount]
      exact .nil
  · by_cases hlast : includeFinalTransition = true ∧ (actionChunkSteps : ℤ) ≤
          (episode.datasetToIndex : ℤ) - episode.datasetFromIndex
    · rw [if_pos hlast]
      exact pairwise_singleton ..
    · rw [if_neg hlast]
      exact .nil
  · intro first hfirst second hsecond
    rw [mem_map] at hfirst
    obtain ⟨offset, hoffset, hrecord⟩ := hfirst
    by_cases hcount : 0 < (episode.datasetToIndex : ℤ) -
        episode.datasetFromIndex - actionChunkSteps * 2 + 1
    · rw [if_pos hcount, mem_rangeStep hstride] at hoffset
      by_cases hlast : includeFinalTransition = true ∧ (actionChunkSteps : ℤ) ≤
            (episode.datasetToIndex : ℤ) - episode.datasetFromIndex
      · rw [if_pos hlast, mem_singleton] at hsecond
        rw [← hrecord, hsecond]
        change episode.datasetFromIndex + offset <
          episode.datasetToIndex - actionChunkSteps
        omega
      · rw [if_neg hlast] at hsecond
        cases hsecond
    · rw [if_neg hcount] at hoffset
      cases hoffset

theorem windowRecords_windows
    (hinside : episode.datasetToIndex ≤ frames.length) :
    EpisodeWindows frames actionChunkSteps stride includeFinalTransition
      episode (windowRecords frames actionChunkSteps stride
        includeFinalTransition episode) where
  increasing := windowRecords_increasing hsteps hstride
  mem_iff _ := mem_windowRecords hsteps hstride hinside

end

end Windows

/-! ## Consecutive episodes -/

section

variable {first last : ℕ} {episodes : List DatasetEpisode}
  (hepisodes : Consecutive first episodes last)

include hepisodes

theorem Consecutive.le : first ≤ last := by
  induction episodes generalizing first with
  | nil => exact Nat.le_of_eq hepisodes
  | cons head episodes ih => exact hepisodes.2.1.trans (ih hepisodes.2.2)

theorem Consecutive.bounds :
    ∀ episode ∈ episodes, first ≤ episode.datasetFromIndex ∧
      episode.datasetToIndex ≤ last := by
  induction episodes generalizing first with
  | nil =>
    exact nofun
  | cons head episodes ih =>
    obtain ⟨hfrom, hle, hrest⟩ := hepisodes
    have hlast := hrest.le
    intro episode hepisode
    rcases mem_cons.mp hepisode with heq | hlater
    · rw [heq]
      exact ⟨hfrom.ge, hlast⟩
    · obtain ⟨hlow, hhigh⟩ := ih hrest episode hlater
      exact ⟨by omega, hhigh⟩

theorem Consecutive.ordered : episodes.Pairwise fun earlier later =>
      earlier.datasetToIndex ≤ later.datasetFromIndex := by
  induction episodes generalizing first with
  | nil => exact .nil
  | cons head episodes ih =>
    obtain ⟨_, _, hrest⟩ := hepisodes
    rw [pairwise_cons]
    constructor
    · intro later hlater
      exact (hrest.bounds later hlater).1
    · exact ih hrest

end

section Datasets

variable (dataset : LeRobotDataset A) {actionChunkSteps stride : ℕ}

def LeRobotDataset.selected (episodes : Option (List ℤ)) :
    List DatasetEpisode :=
  dataset.episodes.filter (isSelected episodes)

theorem LeRobotDataset.inside : ∀ episode ∈ dataset.episodes,
      episode.datasetToIndex ≤ dataset.frames.length :=
  fun episode hepisode =>
    (dataset.consecutive.bounds episode hepisode).2

theorem iterLerobotTransitionRecords_eq (hstride : 0 < stride)
    (includeFinalTransition : Bool) (episodes : Option (List ℤ))
    (maxTransitions : ℕ) :
    iterLerobotTransitionRecords dataset actionChunkSteps stride
        includeFinalTransition episodes maxTransitions =
      .ok (if maxTransitions = 0 then
          (dataset.selected episodes).flatMap
            (windowRecords dataset.frames actionChunkSteps stride
              includeFinalTransition)
        else ((dataset.selected episodes).flatMap
            (windowRecords dataset.frames actionChunkSteps stride
              includeFinalTransition)).take maxTransitions) := by
  have hpositive : 0 < (stride : ℤ) := by omega
  unfold iterLerobotTransitionRecords
  rw [require_of hpositive, Int.toNat_natCast, iterEpisodes_eq dataset.inside]
  change Except.ok (Generated.yieldRecords maxTransitions _ _).records = _
  rw [Generated.records_yieldRecords rfl rfl]
  rfl

theorem windowRecords_ordered (hsteps : 0 < actionChunkSteps)
    (hstride : 0 < stride) (includeFinalTransition : Bool)
    (episodes : Option (List ℤ)) :
    ((dataset.selected episodes).flatMap
      (windowRecords dataset.frames actionChunkSteps stride
        includeFinalTransition)).Pairwise fun first second =>
          first.start < second.start := by
  have hall : ∀ episode ∈ dataset.selected episodes,
      EpisodeWindows dataset.frames actionChunkSteps stride
        includeFinalTransition episode
        (windowRecords dataset.frames actionChunkSteps stride
          includeFinalTransition episode) := by
    intro episode hepisode
    exact windowRecords_windows hsteps hstride
      (dataset.inside episode (mem_of_mem_filter hepisode))
  have hordered := dataset.consecutive.ordered.filter (isSelected episodes)
  rw [pairwise_flatMap]
  constructor
  · intro episode hepisode
    exact (hall episode hepisode).increasing
  · apply List.Pairwise.imp_of_mem _ hordered
    intro earlier later hearlier hlater hbefore first hfirst second hsecond
    have hin := (hall earlier hearlier).inEpisode hfirst
    have hout := (hall later hlater).inEpisode hsecond
    have hend := hin.start_le
    have hbegin := hout.start_ge
    omega

end Datasets

/-! ## Chunks of the records -/

/-- The rows read for some records are those of the columns of their chunks,
each within an episode. -/
def ChunksOfEpisodes {B : Type} (frames : List (Frame A))
    (actionChunkSteps : ℕ) (episodes : List DatasetEpisode)
    (key : Frame A → B) (starts : List ℕ) (rows : List (List B)) : Prop :=
  Forall₂ (fun start row =>
    row.map some = (range' start actionChunkSteps).map
      (fun index => frames[index]?.map key) ∧
    ∃ episode ∈ episodes, ∀ index ∈ range' start actionChunkSteps,
      episode.datasetFromIndex ≤ index ∧ index < episode.datasetToIndex)
    starts rows

theorem chunkIndices_eq (starts : List ℕ) (chunkSize : ℕ) :
    chunkIndices starts chunkSize =
      starts.flatMap fun start => range' start chunkSize := by
  unfold chunkIndices
  congr 1
  funext start
  rw [range'_eq_map_range]

theorem block_flatMap_starts {B : Type} (starts : List ℕ)
    (chunkSize : ℕ) (value : ℕ → B) :
    ((range starts.length).map fun sample =>
      block chunkSize sample ((starts.flatMap fun start =>
          range' start chunkSize).map value)) =
      starts.map fun start =>
        (range' start chunkSize).map value := by
  have hstarts : starts =
      (range starts.length).map fun sample => starts.getD sample 0 := by
    apply ext_getElem
    · simp
    · intro sample hsample _
      rw [getElem_map, getElem_range, getD_eq_getElem _ _ hsample]
  have hflat : (starts.flatMap fun start =>
      range' start chunkSize) =
      (range starts.length).flatMap fun sample =>
        range' (starts.getD sample 0) chunkSize := by
    conv_lhs => rw [hstarts]
    rw [flatMap_map]
  have hright : (starts.map fun start =>
      (range' start chunkSize).map value) =
      (range starts.length).map fun sample =>
        (range' (starts.getD sample 0) chunkSize).map value := by
    conv_lhs => rw [hstarts]
    rw [map_map]
    rfl
  rw [hright]
  apply map_congr_left
  intro sample hsample
  have hrow : block chunkSize sample
      ((range starts.length).flatMap fun sample =>
        range' (starts.getD sample 0) chunkSize) =
      range' (starts.getD sample 0) chunkSize := by
    apply block_flatMap
    · intro index _
      exact length_range'
    · exact mem_range.mp hsample
  rw [block_map, hflat, hrow]

theorem readChunks_ok {B : Type} (key : Frame A → B)
    (hsteps : 0 < actionChunkSteps) (hstarts : starts ≠ [])
    (hinside : ∀ start ∈ starts, start + actionChunkSteps ≤ frames.length) :
    ∃ value : ℕ → Frame A,
      (∀ index < frames.length, frames[index]? = some (value index)) ∧
      readChunks frames key starts actionChunkSteps =
        .ok (starts.map fun start =>
          (range' start actionChunkSteps).map
            fun index => key (value index)) := by
  obtain ⟨first, hfirst⟩ := exists_mem_of_ne_nil starts hstarts
  have hframes : 0 < frames.length := by
    have hfits := hinside first hfirst
    omega
  have hvalue : ∀ index < frames.length,
      frames[index]? = some (frames.getD index frames[0]) := by
    intro index hindex
    rw [getD_eq_getElem _ _ hindex, getElem?_eq_getElem hindex]
  refine ⟨fun index => frames.getD index frames[0], hvalue, ?_⟩
  have hrows : (chunkIndices starts actionChunkSteps).mapM (frameAt frames)
      = .ok ((chunkIndices starts actionChunkSteps).map
        fun index => frames.getD index frames[0]) := by
    apply mapM_eq_ok_map
    intro index hindex
    rw [chunkIndices_eq, mem_flatMap] at hindex
    obtain ⟨start, hstart, hrange⟩ := hindex
    have hfits := hinside start hstart
    have hlt := (mem_range'_1.mp hrange).2
    rw [frameAt, hvalue index (by omega)]
  have hsome : (chunkIndices starts actionChunkSteps).map
      (fun index => frames.getD index frames[0]) ≠ [] := by
    intro hnil
    rw [map_eq_nil_iff, chunkIndices_eq, flatMap_eq_nil_iff] at hnil
    have hempty := congrArg List.length (hnil first hfirst)
    rw [length_range', length_nil] at hempty
    omega
  unfold readChunks stackLerobotHfRows
  rw [hrows]
  change (require _ _ >>= fun _ => Except.ok _) >>= _ = _
  rw [require_of hsome]
  change Except.ok _ = _
  rw [chunkIndices_eq, map_map, block_flatMap_starts starts actionChunkSteps]
  rfl

theorem readChunks_ofEpisodes {B : Type} {dataset : LeRobotDataset A}
    (hepisodes : ∀ episode ∈ episodes, episode ∈ dataset.episodes)
    (hsteps : 0 < actionChunkSteps) (hstarts : starts ≠ [])
    (hinside : ∀ start ∈ starts, ∃ episode ∈ episodes,
      episode.datasetFromIndex ≤ start ∧
        start + actionChunkSteps ≤ episode.datasetToIndex) (key : Frame A → B) :
    ∃ rows, readChunks dataset.frames key starts actionChunkSteps = .ok rows ∧
      ChunksOfEpisodes dataset.frames actionChunkSteps episodes key starts
        rows := by
  have hfits : ∀ start ∈ starts,
      start + actionChunkSteps ≤ dataset.frames.length := by
    intro start hstart
    obtain ⟨episode, hepisode, _, hend⟩ := hinside start hstart
    exact hend.trans (dataset.inside episode (hepisodes episode hepisode))
  obtain ⟨value, hvalue, hread⟩ := readChunks_ok key hsteps hstarts hfits
  refine ⟨_, hread, ?_⟩
  unfold ChunksOfEpisodes
  rw [forall₂_map_right_iff, forall₂_same]
  intro start hstart
  have hend := hfits start hstart
  constructor
  · rw [map_map]
    apply map_congr_left
    intro index hindex
    have hlt := (mem_range'_1.mp hindex).2
    rw [hvalue index (by omega)]
    rfl
  · obtain ⟨episode, hepisode, hfrom, hto⟩ := hinside start hstart
    refine ⟨episode, hepisode, ?_⟩
    intro index hindex
    obtain ⟨hlow, hhigh⟩ := mem_range'_1.mp hindex
    constructor <;> omega

/-- Every selected episode is tiled by its windows, in order and each once,
and a limit cuts the records of all episodes.  The chunks of any of them are
read from the frames of their own episode. -/
theorem transition_windows_tile (dataset : LeRobotDataset A)
    {actionChunkSteps stride : ℕ} (hsteps : 0 < actionChunkSteps)
    (hstride : 0 < stride) (includeFinalTransition : Bool)
    (episodes : Option (List ℤ)) :
    ∃ records parts,
      iterLerobotTransitionRecords dataset actionChunkSteps stride
        includeFinalTransition episodes 0 = .ok records ∧
      records = parts.flatten ∧
      Forall₂ (EpisodeWindows dataset.frames actionChunkSteps stride
        includeFinalTransition) (dataset.selected episodes) parts ∧
      (records.Pairwise fun first second => first.start < second.start) ∧
      (∀ record ∈ records, ∃ episode ∈ dataset.selected episodes,
        InEpisode actionChunkSteps episode record) ∧
      (∀ maxTransitions, 0 < maxTransitions →
        iterLerobotTransitionRecords dataset actionChunkSteps stride
          includeFinalTransition episodes maxTransitions =
          .ok (records.take maxTransitions)) ∧
      ∀ samples : List TransitionRecord, samples ≠ [] →
        (∀ sample ∈ samples, sample ∈ records) →
        ∀ index : TransitionRecord → ℕ,
          index = TransitionRecord.start ∨ index = TransitionRecord.next →
          (∃ rows, readLerobotActionChunks dataset.frames
              (samples.map index) actionChunkSteps = .ok rows ∧
            ChunksOfEpisodes dataset.frames actionChunkSteps
              (dataset.selected episodes) Frame.action
              (samples.map index) rows) ∧
          ∀ (B : Type) (key : Frame A → B),
            ∃ rows, readLerobotScalarChunks dataset.frames key
                (samples.map index) actionChunkSteps = .ok rows ∧
              ChunksOfEpisodes dataset.frames actionChunkSteps
                (dataset.selected episodes) key (samples.map index)
                rows := by
  have hselected : ∀ episode ∈ dataset.selected episodes,
      episode ∈ dataset.episodes :=
    fun episode hepisode => mem_of_mem_filter hepisode
  have hwindows : ∀ episode ∈ dataset.selected episodes,
      EpisodeWindows dataset.frames actionChunkSteps stride
        includeFinalTransition episode
        (windowRecords dataset.frames actionChunkSteps stride
          includeFinalTransition episode) := by
    intro episode hepisode
    exact windowRecords_windows hsteps hstride
      (dataset.inside episode (hselected episode hepisode))
  have hin : ∀ record ∈ (dataset.selected episodes).flatMap
      (windowRecords dataset.frames actionChunkSteps stride
        includeFinalTransition),
      ∃ episode ∈ dataset.selected episodes,
        InEpisode actionChunkSteps episode record := by
    intro record hrecord
    obtain ⟨episode, hepisode, hmember⟩ := mem_flatMap.mp hrecord
    exact ⟨episode, hepisode, (hwindows episode hepisode).inEpisode hmember⟩
  refine ⟨_, _, iterLerobotTransitionRecords_eq dataset hstride
    includeFinalTransition episodes 0, flatMap_def, ?_,
    windowRecords_ordered dataset hsteps hstride includeFinalTransition
      episodes, hin, ?_, ?_⟩
  · rw [forall₂_map_right_iff, forall₂_same]
    exact hwindows
  · intro maxTransitions hlimit
    rw [iterLerobotTransitionRecords_eq dataset hstride, if_neg (by omega)]
    rfl
  · intro samples hne hsamples index hindex
    have hstarts : samples.map index ≠ [] := by
      intro hnil
      exact hne (map_eq_nil_iff.mp hnil)
    have hinside : ∀ start ∈ samples.map index,
        ∃ episode ∈ dataset.selected episodes,
          episode.datasetFromIndex ≤ start ∧
            start + actionChunkSteps ≤ episode.datasetToIndex := by
      intro start hstart
      obtain ⟨sample, hsample, heq⟩ := mem_map.mp hstart
      obtain ⟨episode, hepisode, hbounds⟩ := hin sample
        (hsamples sample hsample)
      refine ⟨episode, hepisode, ?_⟩
      rw [← heq]
      rcases hindex with hfield | hfield
      · rw [hfield]
        exact ⟨hbounds.start_ge, hbounds.start_le⟩
      · rw [hfield]
        exact ⟨hbounds.next_ge, hbounds.next_le⟩
    constructor
    · exact readChunks_ofEpisodes hselected hsteps hstarts hinside
        Frame.action
    · intro B key
      exact readChunks_ofEpisodes hselected hsteps hstarts hinside key

def threeEpisodes : LeRobotDataset ℕ where
  episodes := [⟨0, 0, 5⟩, ⟨1, 5, 5⟩, ⟨2, 5, 8⟩]
  frames := (range 8).map fun index => ⟨index, 0, false, index == 7⟩
  consecutive := by
    refine ⟨rfl, by decide, rfl, by decide, rfl, by decide, rfl⟩

theorem transition_windows_tile_threeEpisodes :
    iterLerobotTransitionRecords threeEpisodes 2 1 true none 3 =
        .ok [⟨0, 2, false, false⟩, ⟨1, 3, false, false⟩, ⟨3, 3, true, false⟩] ∧
      ∃ records : List TransitionRecord,
        records.Pairwise (fun first second => first.start < second.start) ∧
        iterLerobotTransitionRecords threeEpisodes 2 1 true none 3 =
          .ok (records.take 3) := by
  obtain ⟨records, _, _, _, _, hordered, _, hlimit, _⟩ :=
    transition_windows_tile threeEpisodes (Nat.zero_lt_two : 0 < 2)
      Nat.zero_lt_one true none
  exact ⟨rfl, records, hordered, hlimit 3 (by decide)⟩

end Rlpd
end VerlVla
